import CommitStatus.Proofs.Json.Reading
import CommitStatus.Text.Lines
import Mathlib.Data.List.Infix

/-!
# The ends of lines do not matter in JSON

A text that is read from a file has its ends of lines made line feeds. Between the parts of a JSON text every end of a
line is white space, and within a part there is none. So a text and the same text with other ends of lines (`Relined`)
are read to the same end (`read?_relined`, `read?_unixLines`).
-/

namespace CommitStatus.Json

/-- A text and the same text in which carriage returns, also those before a line feed, are line feeds. -/
inductive Relined : List Char → List Char → Prop
  | nil : Relined [] []
  | char {c : Char} {s t : List Char} (hc : c ≠ '\r') (h : Relined s t) : Relined (c :: s) (c :: t)
  | cr {s t : List Char} (h : Relined s t) : Relined ('\r' :: s) ('\n' :: t)
  | crlf {s t : List Char} (h : Relined s t) : Relined ('\r' :: '\n' :: s) ('\n' :: t)

namespace Relined

variable {s t : List Char}

theorem unixLines (s : List Char) : Relined s (Text.unixLines s) := by
  fun_induction Text.unixLines s with
  | case1 rest ih => exact .crlf ih
  | case2 rest hne ih => exact .cr ih
  | case3 c rest h₁ h₂ ih => exact .char h₂ ih
  | case4 => exact .nil

theorem length_le (h : Relined s t) : t.length ≤ s.length := by
  induction h <;> simp <;> omega

theorem isEmpty (h : Relined s t) : s.isEmpty = t.isEmpty := by
  cases h <;> rfl

/-- A character that is no end of a line comes first in both texts or in neither. -/
theorem head (h : Relined s t) {d : Char} (hr : d ≠ '\r') (hn : d ≠ '\n') :
    (∃ s' t', s = d :: s' ∧ t = d :: t' ∧ Relined s' t') ∨ ((∀ s', s ≠ d :: s') ∧ ∀ t', t ≠ d :: t') := by
  cases h with
  | nil => exact .inr ⟨nofun, nofun⟩
  | @char c s t hc h =>
    by_cases hd : c = d
    · subst hd
      exact .inl ⟨s, t, rfl, rfl, h⟩
    · refine .inr ⟨fun _ he => hd (List.cons.inj he).1, fun _ he => hd (List.cons.inj he).1⟩
  | cr h => exact .inr ⟨fun _ he => hr (List.cons.inj he).1.symm, fun _ he => hn (List.cons.inj he).1.symm⟩
  | crlf h => exact .inr ⟨fun _ he => hr (List.cons.inj he).1.symm, fun _ he => hn (List.cons.inj he).1.symm⟩

/-- A head without ends of lines is the same in both texts. -/
theorem append_left {p : List Char} (hp : ∀ c ∈ p, c ≠ '\r' ∧ c ≠ '\n') : ∀ {t : List Char}, Relined (p ++ s) t →
    ∃ t', t = p ++ t' ∧ Relined s t' := by
  induction p with
  | nil => exact fun {t} h => ⟨t, rfl, h⟩
  | cons c p ih =>
    intro t h
    obtain ⟨hr, hn⟩ := hp c List.mem_cons_self
    rcases h.head hr hn with ⟨s', t', hs, rfl, h'⟩ | ⟨hs, -⟩
    · cases hs
      obtain ⟨t'', rfl, h''⟩ := ih (fun d hd => hp d (List.mem_cons_of_mem _ hd)) h'
      exact ⟨t'', rfl, h''⟩
    · exact absurd rfl (hs _)

theorem append_right {p : List Char} (hp : ∀ c ∈ p, c ≠ '\r' ∧ c ≠ '\n') : ∀ {s : List Char}, Relined s (p ++ t) →
    ∃ s', s = p ++ s' ∧ Relined s' t := by
  induction p with
  | nil => exact fun {s} h => ⟨s, rfl, h⟩
  | cons c p ih =>
    intro s h
    obtain ⟨hr, hn⟩ := hp c List.mem_cons_self
    rcases h.head hr hn with ⟨s', t', rfl, ht, h'⟩ | ⟨-, ht⟩
    · cases ht
      obtain ⟨s'', rfl, h''⟩ := ih (fun d hd => hp d (List.mem_cons_of_mem _ hd)) h'
      exact ⟨s'', rfl, h''⟩
    · exact absurd rfl (ht _)

/-- White space in front is skipped in both texts. -/
theorem skip (h : Relined s t) : Relined (Json.skip s) (Json.skip t) := by
  induction h with
  | nil => exact .nil
  | @char c s t hc h ih =>
    by_cases hg : isGap c = true
    · simpa [Json.skip, hg] using ih
    · simpa [Json.skip, hg] using Relined.char hc h
  | cr h ih => exact ih
  | crlf h ih => exact ih

/-- Characters that are no ends of lines are taken from both texts. -/
theorem takeWhile {p : Char → Bool} (hr : p '\r' = false) (hn : p '\n' = false) (h : Relined s t) :
    s.takeWhile p = t.takeWhile p ∧ Relined (s.dropWhile p) (t.dropWhile p) := by
  induction h with
  | nil => exact ⟨rfl, .nil⟩
  | @char c s t hc h ih =>
    cases hp : p c with
    | true => simpa [List.takeWhile_cons, List.dropWhile_cons, hp] using ih
    | false => simpa [List.takeWhile_cons, List.dropWhile_cons, hp] using Relined.char hc h
  | cr h ih => simpa [List.takeWhile_cons, List.dropWhile_cons, hr, hn] using Relined.cr h
  | crlf h ih => simpa [List.takeWhile_cons, List.dropWhile_cons, hr, hn] using Relined.crlf h

end Relined

/-! ## The parts of the reader -/

section Parts

variable {α β : Type} {s t : List Char}

/-- Two readings come to the same and leave texts that differ at most in their ends of lines. -/
def SameReading : Option (α × List Char) → Option (α × List Char) → Prop :=
  Option.Rel fun a b => a.1 = b.1 ∧ Relined a.2 b.2

theorem SameReading.bind {x y : Option (α × List Char)} {f g : α × List Char → Option (β × List Char)}
    (h : SameReading x y) (hfg : ∀ a r r', Relined r r' → SameReading (f (a, r)) (g (a, r'))) :
    SameReading (x.bind f) (y.bind g) := by
  cases h with
  | none => exact .none
  | @some a b h =>
    obtain ⟨v, r⟩ := a
    obtain ⟨v', r'⟩ := b
    obtain ⟨rfl, hr⟩ := h
    exact hfg v r r' hr

/-- A part of the reader comes to the same in texts that differ at most in their ends of lines. -/
def IgnoresLineEnds (f : List Char → Option (α × List Char)) : Prop :=
  ∀ ⦃s t⦄, Relined s t → SameReading (f s) (f t)

theorem IgnoresLineEnds.bind {f : List Char → Option (α × List Char)} {g : α → List Char → Option (β × List Char)}
    (hf : IgnoresLineEnds f) (hg : ∀ a, IgnoresLineEnds (g a)) :
    IgnoresLineEnds fun s => (f s).bind fun a => g a.1 (skip a.2) :=
  fun _ _ h => (hf h).bind fun a _ _ hr => hg a hr.skip

/-- A part of the reader that reads a head without ends of lines, whatever follows. -/
def ReadsHead (f : List Char → Option (α × List Char)) : Prop :=
  ∀ s a rest, f s = some (a, rest) →
    ∃ p, s = p ++ rest ∧ (∀ c ∈ p, c ≠ '\r' ∧ c ≠ '\n') ∧ ∀ rest', f (p ++ rest') = some (a, rest')

/-- Such a part finds its head in both texts or in neither. -/
theorem ReadsHead.ignoresLineEnds {f : List Char → Option (α × List Char)} (hf : ReadsHead f) : IgnoresLineEnds f := by
  intro s t h
  cases hs : f s with
  | none =>
    cases ht : f t with
    | none => exact .none
    | some b =>
      obtain ⟨v, r⟩ := b
      obtain ⟨p, rfl, hp, happend⟩ := hf _ _ _ ht
      obtain ⟨s', rfl, -⟩ := h.append_right hp
      rw [happend] at hs
      cases hs
  | some a =>
    obtain ⟨v, r⟩ := a
    obtain ⟨p, rfl, hp, happend⟩ := hf _ _ _ hs
    obtain ⟨t', rfl, h'⟩ := h.append_left hp
    rw [happend]
    exact .some ⟨rfl, h'⟩

theorem readsHead_stringBody? (acc : List Char) : ReadsHead (stringBody? acc) := by
  intro s text rest h
  obtain ⟨p, hs, hp, happend⟩ := stringBody?_append h
  refine ⟨p, hs, fun c hc => ?_, happend⟩
  have := hp c hc
  constructor <;> rintro rfl <;> exact absurd this (by decide)

theorem word?_eq_some_iff {word : String} {rest : List Char} : word? word s = some rest ↔ s = word.toList ++ rest := by
  unfold word?
  constructor
  · intro h
    split at h
    · rename_i hprefix
      cases h
      rw [← String.length_toList]
      exact List.prefix_append_drop (List.isPrefixOf_iff_prefix.1 hprefix)
    · cases h
  · rintro rfl
    rw [if_pos (List.isPrefixOf_iff_prefix.2 (List.prefix_append _ _)), ← String.length_toList, List.drop_left]

theorem readsHead_word? (word : String) (hword : '\r' ∉ word.toList ∧ '\n' ∉ word.toList) (a : α) :
    ReadsHead fun s => (word? word s).map (a, ·) := by
  intro s v rest h
  obtain ⟨r, hr, h⟩ := Option.map_eq_some_iff.1 h
  cases h
  have hplain : ∀ c ∈ word.toList, c ≠ '\r' ∧ c ≠ '\n' := fun c hc =>
    ⟨fun h => hword.1 (h ▸ hc), fun h => hword.2 (h ▸ hc)⟩
  refine ⟨word.toList, word?_eq_some_iff.1 hr, hplain, fun rest' => ?_⟩
  dsimp only
  rw [word?_eq_some_iff.2 rfl]
  rfl

theorem ignoresLineEnds_fraction? : IgnoresLineEnds fraction? := by
  intro s t h
  rcases h.head (d := '.') (by decide) (by decide) with ⟨s', t', rfl, rfl, h'⟩ | ⟨hs, ht⟩
  · obtain ⟨hdigits, hrest⟩ := h'.takeWhile (p := Char.isDigit) rfl rfl
    simp only [fraction?, ← hdigits]
    split
    · exact .none
    · exact .some ⟨rfl, hrest⟩
  · have hnone : ∀ u : List Char, (∀ u', u ≠ '.' :: u') → fraction? u = some ([], u) := by
      intro u hu
      unfold fraction?
      split
      · exact absurd rfl (hu _)
      · rfl
    rw [hnone s hs, hnone t ht]
    exact .some ⟨rfl, h⟩

theorem Relined.splitSign (h : Relined s t) :
    (Decimal.Integer.splitSign s).1 = (Decimal.Integer.splitSign t).1 ∧
      Relined (Decimal.Integer.splitSign s).2 (Decimal.Integer.splitSign t).2 := by
  rcases h.head (d := '-') (by decide) (by decide) with ⟨s', t', rfl, rfl, h'⟩ | ⟨hs, ht⟩
  · exact ⟨rfl, h'⟩
  rcases h.head (d := '+') (by decide) (by decide) with ⟨s', t', rfl, rfl, h'⟩ | ⟨hs', ht'⟩
  · exact ⟨rfl, h'⟩
  have hnone : ∀ u : List Char, (∀ u', u ≠ '-' :: u') → (∀ u', u ≠ '+' :: u') →
      Decimal.Integer.splitSign u = (false, u) := by
    intro u hu hu'
    unfold Decimal.Integer.splitSign
    split
    · exact absurd rfl (hu _)
    · exact absurd rfl (hu' _)
    · rfl
  rw [hnone s hs hs', hnone t ht ht']
  exact ⟨rfl, h⟩

theorem ignoresLineEnds_exponent? : IgnoresLineEnds exponent? := by
  intro s t h
  cases h with
  | nil => exact .some ⟨rfl, .nil⟩
  | cr h => exact .some ⟨rfl, .cr h⟩
  | crlf h => exact .some ⟨rfl, .crlf h⟩
  | @char c s t hc h =>
    obtain ⟨hsign, hrest⟩ := h.splitSign
    obtain ⟨hdigits, hrest⟩ := hrest.takeWhile (p := Char.isDigit) rfl rfl
    simp only [exponent?, ← hsign, ← hdigits]
    split
    · split
      · exact .none
      · exact .some ⟨rfl, hrest⟩
    · exact .some ⟨rfl, .char hc h⟩

theorem ignoresLineEnds_magnitude? (negative : Bool) : IgnoresLineEnds (magnitude? negative) := by
  intro s t h
  obtain ⟨hdigits, hrest⟩ := h.takeWhile (p := Char.isDigit) rfl rfl
  rw [magnitude?_eq, magnitude?_eq, ← hdigits]
  split
  · exact .none
  · refine (ignoresLineEnds_fraction? hrest).bind fun f r r' hr => ?_
    exact (ignoresLineEnds_exponent? hr).bind fun e r r' hr => .some ⟨rfl, hr⟩

theorem ignoresLineEnds_number? : IgnoresLineEnds number? := by
  intro s t h
  rcases h.head (d := '-') (by decide) (by decide) with ⟨s', t', rfl, rfl, h'⟩ | ⟨hs, ht⟩
  · have hword := (readsHead_word? "Infinity" (by decide) (Value.float (.infinite true))).ignoresLineEnds h'
    simp only [number?]
    rcases hs : word? "Infinity" s' with _ | r <;> rcases ht : word? "Infinity" t' with _ | r'
    · exact ignoresLineEnds_magnitude? true h'
    · rw [hs, ht] at hword
      cases hword
    · rw [hs, ht] at hword
      cases hword
    · rw [hs, ht] at hword
      exact hword
  · have hnone : ∀ u : List Char, (∀ u', u ≠ '-' :: u') → number? u = magnitude? false u := by
      intro u hu
      unfold number?
      split
      · exact absurd rfl (hu _)
      · rfl
    rw [hnone s hs, hnone t ht]
    exact ignoresLineEnds_magnitude? false h

theorem ignoresLineEnds_atom? : IgnoresLineEnds atom? := by
  intro s t h
  rcases h.head (d := '"') (by decide) (by decide) with ⟨s', t', rfl, rfl, h'⟩ | ⟨hs₁, ht₁⟩
  · have hbody := (readsHead_stringBody? []).ignoresLineEnds h'
    simp only [atom?, Option.map_eq_bind]
    exact hbody.bind fun text r r' hr => .some ⟨rfl, hr⟩
  rcases h.head (d := 'n') (by decide) (by decide) with ⟨s', t', rfl, rfl, -⟩ | ⟨hs₂, ht₂⟩
  · exact (readsHead_word? "null" (by decide) Value.null).ignoresLineEnds h
  rcases h.head (d := 't') (by decide) (by decide) with ⟨s', t', rfl, rfl, -⟩ | ⟨hs₃, ht₃⟩
  · exact (readsHead_word? "true" (by decide) (Value.bool true)).ignoresLineEnds h
  rcases h.head (d := 'f') (by decide) (by decide) with ⟨s', t', rfl, rfl, -⟩ | ⟨hs₄, ht₄⟩
  · exact (readsHead_word? "false" (by decide) (Value.bool false)).ignoresLineEnds h
  rcases h.head (d := 'N') (by decide) (by decide) with ⟨s', t', rfl, rfl, -⟩ | ⟨hs₅, ht₅⟩
  · exact (readsHead_word? "NaN" (by decide) (Value.float .nan)).ignoresLineEnds h
  rcases h.head (d := 'I') (by decide) (by decide) with ⟨s', t', rfl, rfl, -⟩ | ⟨hs₆, ht₆⟩
  · exact (readsHead_word? "Infinity" (by decide) (Value.float (.infinite false))).ignoresLineEnds h
  have hnumber : ∀ u : List Char, (∀ u', u ≠ '"' :: u') → (∀ u', u ≠ 'n' :: u') → (∀ u', u ≠ 't' :: u') →
      (∀ u', u ≠ 'f' :: u') → (∀ u', u ≠ 'N' :: u') → (∀ u', u ≠ 'I' :: u') → atom? u = number? u := by
    intro u h₁ h₂ h₃ h₄ h₅ h₆
    unfold atom?
    split
    · exact absurd rfl (h₁ _)
    · exact absurd rfl (h₂ _)
    · exact absurd rfl (h₃ _)
    · exact absurd rfl (h₄ _)
    · exact absurd rfl (h₅ _)
    · exact absurd rfl (h₆ _)
    · rfl
  rw [hnumber s hs₁ hs₂ hs₃ hs₄ hs₅ hs₆, hnumber t ht₁ ht₂ ht₃ ht₄ ht₅ ht₆]
  exact ignoresLineEnds_number? h

end Parts

/-! ## Values -/

section Values

variable {fuel depth : Nat}

theorem ignoresLineEnds_afterBracket (hitems : ∀ depth acc, IgnoresLineEnds (items? fuel depth acc)) :
    IgnoresLineEnds (afterBracket fuel depth) := by
  intro s t h
  rcases h.head (d := ']') (by decide) (by decide) with ⟨s', t', rfl, rfl, h'⟩ | ⟨hs, ht⟩
  · exact .some ⟨rfl, h'⟩
  · rw [afterBracket.eq_2 _ _ _ hs, afterBracket.eq_2 _ _ _ ht]
    split
    · exact .none
    · exact hitems _ _ h

theorem ignoresLineEnds_afterBrace (hmembers : ∀ depth acc, IgnoresLineEnds (members? fuel depth acc)) :
    IgnoresLineEnds (afterBrace fuel depth) := by
  intro s t h
  rcases h.head (d := '\x7d') (by decide) (by decide) with ⟨s', t', rfl, rfl, h'⟩ | ⟨hs, ht⟩
  · exact .some ⟨rfl, h'⟩
  · rw [afterBrace.eq_2 _ _ _ hs, afterBrace.eq_2 _ _ _ ht]
    split
    · exact .none
    · exact hmembers _ _ h

theorem ignoresLineEnds_afterItem (hitems : ∀ depth acc, IgnoresLineEnds (items? fuel depth acc)) (acc : List Value) :
    IgnoresLineEnds (afterItem fuel depth acc) := by
  intro s t h
  rcases h.head (d := ',') (by decide) (by decide) with ⟨s', t', rfl, rfl, h'⟩ | ⟨hs, ht⟩
  · exact hitems _ _ h'.skip
  rcases h.head (d := ']') (by decide) (by decide) with ⟨s', t', rfl, rfl, h'⟩ | ⟨hs', ht'⟩
  · exact .some ⟨rfl, h'⟩
  · rw [afterItem.eq_3 _ _ _ _ hs hs', afterItem.eq_3 _ _ _ _ ht ht']
    exact .none

theorem ignoresLineEnds_afterMember (hmembers : ∀ depth acc, IgnoresLineEnds (members? fuel depth acc))
    (acc : Members) : IgnoresLineEnds (afterMember fuel depth acc) := by
  intro s t h
  rcases h.head (d := ',') (by decide) (by decide) with ⟨s', t', rfl, rfl, h'⟩ | ⟨hs, ht⟩
  · exact hmembers _ _ h'.skip
  rcases h.head (d := '\x7d') (by decide) (by decide) with ⟨s', t', rfl, rfl, h'⟩ | ⟨hs', ht'⟩
  · exact .some ⟨rfl, h'⟩
  · rw [afterMember.eq_3 _ _ _ _ hs hs', afterMember.eq_3 _ _ _ _ ht ht']
    exact .none

theorem ignoresLineEnds_afterKey (hvalue : ∀ depth, IgnoresLineEnds (value? fuel depth))
    (hmembers : ∀ depth acc, IgnoresLineEnds (members? fuel depth acc)) (acc : Members) (key : String) :
    IgnoresLineEnds (afterKey fuel depth acc key) := by
  intro s t h
  rcases h.head (d := ':') (by decide) (by decide) with ⟨s', t', rfl, rfl, h'⟩ | ⟨hs, ht⟩
  · exact (hvalue depth).bind (fun v => ignoresLineEnds_afterMember hmembers ((key, v) :: acc)) h'.skip
  · rw [afterKey.eq_2 _ _ _ _ _ hs, afterKey.eq_2 _ _ _ _ _ ht]
    exact .none

/-- Values, items and members are read to the same end. -/
theorem ignoresLineEnds_value? : ∀ fuel, (∀ depth, IgnoresLineEnds (value? fuel depth)) ∧
    (∀ depth acc, IgnoresLineEnds (items? fuel depth acc)) ∧ (∀ depth acc, IgnoresLineEnds (members? fuel depth acc))
  | 0 => by
    refine ⟨fun depth s t _ => ?_, fun depth acc s t _ => ?_, fun depth acc s t _ => ?_⟩
    · rw [value?, value?]; exact .none
    · rw [items?, items?]; exact .none
    · rw [members?, members?]; exact .none
  | fuel + 1 => by
    obtain ⟨hvalue, hitems, hmembers⟩ := ignoresLineEnds_value? fuel
    refine ⟨fun depth s t h => ?_, fun depth acc s t h => ?_, fun depth acc s t h => ?_⟩
    · rcases h.head (d := '[') (by decide) (by decide) with ⟨s', t', rfl, rfl, h'⟩ | ⟨hs, ht⟩
      · exact ignoresLineEnds_afterBracket hitems h'.skip
      rcases h.head (d := '\x7b') (by decide) (by decide) with ⟨s', t', rfl, rfl, h'⟩ | ⟨hs', ht'⟩
      · exact ignoresLineEnds_afterBrace hmembers h'.skip
      · rw [value?.eq_4 _ _ _ hs hs', value?.eq_4 _ _ _ ht ht']
        exact ignoresLineEnds_atom? h
    · rw [items?_succ, items?_succ]
      exact (hvalue depth).bind (fun v => ignoresLineEnds_afterItem hitems (v :: acc)) h
    · rcases h.head (d := '"') (by decide) (by decide) with ⟨s', t', rfl, rfl, h'⟩ | ⟨hs, ht⟩
      · rw [members?_succ, members?_succ]
        exact (readsHead_stringBody? []).ignoresLineEnds.bind (ignoresLineEnds_afterKey hvalue hmembers acc) h'
      · rw [members?.eq_3 _ _ _ _ hs, members?.eq_3 _ _ _ _ ht]
        exact .none

end Values

/-! ## Texts -/

/-- **A text is read to the same end whatever its ends of lines are.** -/
theorem read?_relined {s t : List Char} (h : Relined s t) (depth : Nat) : read? depth s = read? depth t := by
  have hfuel : value? (2 * s.length + 2) depth (skip t) = value? (2 * t.length + 2) depth (skip t) := by
    have := h.length_le
    have := length_skip t
    exact value?_of_le (by omega) (by omega)
  have hsame := (ignoresLineEnds_value? (2 * s.length + 2)).1 depth h.skip
  rw [hfuel] at hsame
  unfold read?
  generalize value? (2 * s.length + 2) depth (skip s) = x at hsame ⊢
  generalize value? (2 * t.length + 2) depth (skip t) = y at hsame ⊢
  cases hsame with
  | none => rfl
  | @some a b hab =>
    obtain ⟨v, r⟩ := a
    obtain ⟨v', r'⟩ := b
    obtain ⟨rfl, hr⟩ := hab
    simp only [hr.skip.isEmpty]

/-- A text that is read from a file is read to the same end as the text of the file. -/
theorem read?_unixLines (depth : Nat) (s : List Char) : read? depth (Text.unixLines s) = read? depth s :=
  (read?_relined (.unixLines s) depth).symm

end CommitStatus.Json
