import CommitStatus.Json.Writer
import CommitStatus.Proofs.Decimal.Integer
import CommitStatus.Proofs.Json.Lines

/-!
# What is written is read back

A value that is written is read back (`read?_chars`) if the reader has room for it (`Value.Fits`): its integers are no
longer and its arrays and objects no deeper than what is read, and there are no floating-point numbers in it. The parts
are read back in front of any rest that a value may be followed by: strings (`stringBody?_escaped`), integers
(`number?_text`), items and members.
-/

namespace CommitStatus.Json

open CommitStatus.Decimal (Integer.text Integer.naturalText Integer.maxDigits)

/-! ## Strings -/

theorem hex_four (n : Nat) : Text.hex 4 n = [Text.hexDigit (n / 16 / 16 / 16 % 16), Text.hexDigit (n / 16 / 16 % 16),
    Text.hexDigit (n / 16 % 16), Text.hexDigit (n % 16)] := rfl

/-- The number of a control character is read back from its digits. -/
theorem unit?_hexDigit : ∀ n < 0x20, unit? (Text.hexDigit (n / 16 / 16 / 16 % 16)) (Text.hexDigit (n / 16 / 16 % 16))
    (Text.hexDigit (n / 16 % 16)) (Text.hexDigit (n % 16)) = some n := by decide

/-- A character is read back from what it is written as. -/
theorem stringBody?_escaped_append (acc rest : List Char) (c : Char) :
    stringBody? acc (escaped c ++ rest) = stringBody? (c :: acc) rest := by
  unfold escaped
  split
  · rename_i hmark
    rcases Bool.or_eq_true_iff.1 hmark with h | h
    · cases eq_of_beq h
      exact stringBody?_short rfl
    · cases eq_of_beq h
      exact stringBody?_short rfl
  · rename_i hmark
    obtain ⟨hquote, hslash⟩ : c ≠ '"' ∧ c ≠ '\\' := by simpa using hmark
    split
    · rename_i hcontrol
      have hunit := unit?_hexDigit c.toNat hcontrol
      have hlow : (c.toNat < 0xD800 || 0xE000 ≤ c.toNat) = true := by
        simp only [Bool.or_eq_true, decide_eq_true_eq]
        omega
      rw [hex_four]
      refine (stringBody?_unit hunit hlow).trans ?_
      rw [Char.ofNat_toNat]
      rfl
    · rename_i hcontrol
      exact stringBody?_char hquote hslash (Nat.not_lt.1 hcontrol)

/-- The body of a string is read back up to its closing mark. -/
theorem stringBody?_escaped (s acc rest : List Char) :
    stringBody? acc (s.flatMap escaped ++ '"' :: rest) = some (String.ofList (acc.reverse ++ s), rest) := by
  induction s generalizing acc with
  | nil => simp [stringBody?]
  | cons c s ih =>
    rw [List.flatMap_cons, List.append_assoc, stringBody?_escaped_append, ih]
    simp

/-! ## Numbers -/

/-- What may follow a value: nothing, or a mark that no value goes on with. -/
def Follows (rest : List Char) : Prop := ∀ c ∈ rest.head?, c = ',' ∨ c = ']' ∨ c = '}'

section Numbers

variable {rest : List Char}

theorem Follows.isDigit_head (h : Follows rest) : ∀ c ∈ rest.head?, c.isDigit = false := by
  intro c hc
  rcases h c hc with rfl | rfl | rfl <;> rfl

/-- Behind a number there is neither a fraction nor an exponent. -/
theorem Follows.fraction?_exponent? (h : Follows rest) : fraction? rest = some ([], rest) ∧
    exponent? rest = some (none, rest) := by
  cases rest with
  | nil => exact ⟨rfl, rfl⟩
  | cons c rest => rcases h c rfl with rfl | rfl | rfl <;> exact ⟨rfl, rfl⟩

/-- The digits of a number are read up to what follows. -/
theorem Follows.takeWhile_naturalText (h : Follows rest) (n : Nat) :
    (Integer.naturalText n ++ rest).takeWhile Char.isDigit = Integer.naturalText n ∧
      (Integer.naturalText n ++ rest).dropWhile Char.isDigit = rest := by
  have hdigits : ∀ c ∈ Integer.naturalText n, c.isDigit = true := fun c => Decimal.Integer.isDigit_of_mem_naturalText
  have hrest : rest.takeWhile Char.isDigit = [] ∧ rest.dropWhile Char.isDigit = rest := by
    cases rest with
    | nil => exact ⟨rfl, rfl⟩
    | cons c rest => simp [h.isDigit_head c rfl]
  rw [List.takeWhile_append_of_pos hdigits, List.dropWhile_append_of_pos hdigits, hrest.1, hrest.2]
  exact ⟨List.append_nil _, rfl⟩

theorem magnitude?_naturalText (hrest : Follows rest) (negative : Bool) {n : Nat}
    (h : (Integer.naturalText n).length + negative.toNat ≤ Integer.maxDigits) :
    magnitude? negative (Integer.naturalText n ++ rest) = some (.int (if negative then -(n : Int) else n), rest) := by
  obtain ⟨htake, hdrop⟩ := hrest.takeWhile_naturalText n
  obtain ⟨hfraction, hexponent⟩ := hrest.fraction?_exponent?
  have hrefused : isRefused negative (Integer.naturalText n) = false := by
    obtain ⟨c, s, hs, hzero⟩ := Decimal.Integer.naturalText_eq_cons n
    have hlong : ¬Integer.maxDigits < (Integer.naturalText n).length + negative.toNat := Nat.not_lt.2 h
    rw [hs] at hlong ⊢
    unfold isRefused
    simp only [List.isEmpty_cons, Bool.false_or, hlong, decide_false, Bool.or_false]
    split
    · rename_i hdigits
      cases hdigits
      cases hzero rfl
    · rfl
  rw [magnitude?_eq, htake, hdrop, hrefused, hfraction, Option.bind_some, hexponent, Option.bind_some, numberOf,
    List.append_nil, Decimal.Integer.digitsValue_naturalText]
  rfl

theorem text_eq_cons (n : Int) : ∃ c s, Integer.text n = c :: s ∧ (c.isDigit = true ∨ c = '-') := by
  cases n with
  | ofNat n =>
    obtain ⟨c, s, hs, -⟩ := Decimal.Integer.naturalText_eq_cons n
    exact ⟨c, s, hs, .inl (Decimal.Integer.isDigit_of_mem_naturalText (hs ▸ List.mem_cons_self))⟩
  | negSucc n => exact ⟨'-', _, rfl, .inr rfl⟩

/-- A text of digits is read for a number, also behind a minus sign. -/
theorem number?_text (hrest : Follows rest) {n : Int} (h : (Integer.text n).length ≤ Integer.maxDigits) :
    number? (Integer.text n ++ rest) = some (.int n, rest) := by
  cases n with
  | ofNat n =>
    obtain ⟨c, s, hs, -⟩ := Decimal.Integer.naturalText_eq_cons n
    have hc : c.isDigit = true := Decimal.Integer.isDigit_of_mem_naturalText (hs ▸ List.mem_cons_self)
    have hread := magnitude?_naturalText hrest false (n := n) h
    show number? (Integer.naturalText n ++ rest) = _
    rw [hs] at hread ⊢
    have hminus : c ≠ '-' := by
      rintro rfl
      cases hc
    simpa [number?, hminus] using hread
  | negSucc n =>
    obtain ⟨c, s, hs, -⟩ := Decimal.Integer.naturalText_eq_cons (n + 1)
    have hc : c.isDigit = true := Decimal.Integer.isDigit_of_mem_naturalText (hs ▸ List.mem_cons_self)
    have hread := magnitude?_naturalText hrest true (n := n + 1) h
    show number? ('-' :: (Integer.naturalText (n + 1) ++ rest)) = _
    have hword : word? "Infinity" (Integer.naturalText (n + 1) ++ rest) = none := by
      have hI : c ≠ 'I' := by
        rintro rfl
        cases hc
      rw [hs]
      simp [word?, List.isPrefixOf, Ne.symm hI]
    rw [number?, hword]
    exact hread

end Numbers

/-! ## Values -/

/-- A value without floating-point numbers, with integers no longer and arrays and objects no deeper than what is
read. -/
inductive Value.Fits : Nat → Value → Prop
  | null {depth : Nat} : Fits depth .null
  | bool {depth : Nat} (b : Bool) : Fits depth (.bool b)
  | int {depth : Nat} {n : Int} (h : (Integer.text n).length ≤ Integer.maxDigits) : Fits depth (.int n)
  | string {depth : Nat} (s : String) : Fits depth (.string s)
  | array {depth : Nat} {items : List Value} (h : ∀ v ∈ items, Fits depth v) : Fits (depth + 1) (.array items)
  | object {depth : Nat} {members : Members} (h : ∀ m ∈ members, Fits depth m.2) : Fits (depth + 1) (.object members)

/-- With the fuel that its length asks for, a value is read back from what it is written as, in front of what may follow
a value. -/
def Value.ReadsBack (depth : Nat) (v : Value) : Prop :=
  ∀ rest, Follows rest → ∀ fuel, 2 * (v.chars ++ rest).length + 1 ≤ fuel →
    value? fuel depth (v.chars ++ rest) = some (v, rest)

/-- A value that is written begins neither with a gap nor with the end of an array. -/
theorem Value.Fits.chars_eq_cons {depth : Nat} {v : Value} (h : v.Fits depth) :
    ∃ c s, v.chars = c :: s ∧ isGap c = false ∧ c ≠ ']' := by
  cases h with
  | null => exact ⟨'n', _, rfl, rfl, by decide⟩
  | bool b =>
    cases b with
    | false => exact ⟨'f', _, rfl, rfl, by decide⟩
    | true => exact ⟨'t', _, rfl, rfl, by decide⟩
  | @int _ n h =>
    obtain ⟨c, s, hs, hc⟩ := text_eq_cons n
    refine ⟨c, s, hs, ?_, ?_⟩
    · simp only [isGap, Bool.or_eq_false_iff, beq_eq_false_iff_ne]
      refine ⟨⟨⟨?_, ?_⟩, ?_⟩, ?_⟩ <;> · rintro rfl; simp at hc
    · rintro rfl
      simp at hc
  | string s => exact ⟨'"', _, rfl, rfl, by decide⟩
  | array h => exact ⟨'[', _, rfl, rfl, by decide⟩
  | object h => exact ⟨'{', _, rfl, rfl, by decide⟩

theorem skip_cons {c : Char} (h : isGap c = false) (s : List Char) : skip (c :: s) = c :: s := by
  simp [skip, h]

section Parts

variable {fuel depth : Nat} {s rest : List Char} {v : Value}

theorem items?_last {acc : List Value} (h : value? fuel depth s = some (v, ']' :: rest)) :
    items? (fuel + 1) depth acc s = some (.array (acc.reverse ++ [v]), rest) := by
  rw [items?_succ, h, Option.bind_some, skip_cons rfl, afterItem, List.reverse_cons]

theorem items?_more {acc : List Value} (h : value? fuel depth s = some (v, ',' :: rest)) :
    items? (fuel + 1) depth acc s = items? fuel depth (v :: acc) (skip rest) := by
  rw [items?_succ, h, Option.bind_some, skip_cons rfl, afterItem]

theorem itemChars_cons_cons (v w : Value) (more : List Value) :
    itemChars (v :: w :: more) = v.chars ++ ',' :: itemChars (w :: more) := rfl

/-- Items begin with the first of them. -/
theorem itemChars_eq_cons {items : List Value} (hne : items ≠ []) (hfits : ∀ v ∈ items, v.Fits depth) :
    ∃ c s, itemChars items = c :: s ∧ isGap c = false ∧ c ≠ ']' := by
  match items, hne with
  | v :: more, _ =>
    obtain ⟨c, s, hs, hgap, hend⟩ := (hfits v List.mem_cons_self).chars_eq_cons
    cases more with
    | nil => exact ⟨c, s ++ [']'], by rw [itemChars, hs, List.cons_append], hgap, hend⟩
    | cons w more =>
      exact ⟨c, s ++ ',' :: itemChars (w :: more), by rw [itemChars_cons_cons, hs, List.cons_append], hgap, hend⟩

/-- The items of an array are read back up to its end. -/
theorem items?_itemChars : ∀ {items : List Value}, items ≠ [] → (∀ v ∈ items, v.Fits depth) →
    (∀ v ∈ items, v.ReadsBack depth) → ∀ acc rest fuel, 2 * (itemChars items ++ rest).length + 2 ≤ fuel →
      items? fuel depth acc (itemChars items ++ rest) = some (.array (acc.reverse ++ items), rest)
  | [], hne, _, _, _, _, _, _ => absurd rfl hne
  | _, _, _, _, _, _, 0, hfuel => by omega
  | [v], _, _, hread, acc, rest, fuel + 1, hfuel => by
    rw [itemChars, List.append_assoc, List.singleton_append] at hfuel ⊢
    exact items?_last (hread v List.mem_cons_self (']' :: rest) (by simp [Follows]) fuel (by omega))
  | v :: w :: more, _, hfits, hread, acc, rest, fuel + 1, hfuel => by
    have hfits' : ∀ u ∈ w :: more, u.Fits depth := fun u hu => hfits u (List.mem_cons_of_mem _ hu)
    obtain ⟨c, s, hs, hgap, -⟩ := itemChars_eq_cons (List.cons_ne_nil w more) hfits'
    rw [itemChars_cons_cons, List.append_assoc, List.cons_append] at hfuel ⊢
    rw [items?_more (hread v List.mem_cons_self _ (by simp [Follows]) fuel (by omega)), hs, List.cons_append,
      skip_cons hgap, ← List.cons_append, ← hs, items?_itemChars (List.cons_ne_nil w more) hfits'
        (fun u hu => hread u (List.mem_cons_of_mem _ hu))]
    · simp
    · simp only [List.length_append, List.length_cons] at hfuel ⊢
      omega

/-! ### Members -/

theorem stringText_append (key : String) (rest : List Char) :
    stringText key ++ rest = '"' :: (key.toList.flatMap escaped ++ '"' :: rest) := by
  simp [stringText]

theorem members?_last {acc : Members} {key : String}
    (h : value? fuel depth (skip s) = some (v, '}' :: rest)) :
    members? (fuel + 1) depth acc (stringText key ++ ':' :: s) = some (.object (acc.reverse ++ [(key, v)]), rest) := by
  rw [members?_succ, stringText_append]
  simp only [stringBody?_escaped]
  rw [Option.bind_some, skip_cons rfl, afterKey, h, Option.bind_some, skip_cons rfl, afterMember]
  simp

theorem members?_more {acc : Members} {key : String}
    (h : value? fuel depth (skip s) = some (v, ',' :: rest)) :
    members? (fuel + 1) depth acc (stringText key ++ ':' :: s) = members? fuel depth ((key, v) :: acc) (skip rest) := by
  rw [members?_succ, stringText_append]
  simp only [stringBody?_escaped]
  rw [Option.bind_some, skip_cons rfl, afterKey, h, Option.bind_some, skip_cons rfl, afterMember]
  simp

theorem memberChars_singleton (key : String) (v : Value) :
    memberChars [(key, v)] = stringText key ++ ':' :: (v.chars ++ ['}']) := rfl

theorem memberChars_cons_cons (key : String) (v : Value) (m : String × Value) (more : Members) :
    memberChars ((key, v) :: m :: more) = stringText key ++ ':' :: (v.chars ++ ',' :: memberChars (m :: more)) := rfl

/-- Members begin with the mark of a name. -/
theorem memberChars_eq_cons {members : Members} (hne : members ≠ []) : ∃ s, memberChars members = '"' :: s := by
  match members, hne with
  | (key, v) :: [], _ => exact ⟨_, rfl⟩
  | (key, v) :: m :: more, _ => exact ⟨_, rfl⟩

/-- The members of an object are read back up to its end. -/
theorem members?_memberChars : ∀ {members : Members}, members ≠ [] → (∀ m ∈ members, m.2.Fits depth) →
    (∀ m ∈ members, m.2.ReadsBack depth) → ∀ acc rest fuel, 2 * (memberChars members ++ rest).length + 2 ≤ fuel →
      members? fuel depth acc (memberChars members ++ rest) = some (.object (acc.reverse ++ members), rest)
  | [], hne, _, _, _, _, _, _ => absurd rfl hne
  | _, _, _, _, _, _, 0, hfuel => by omega
  | [(key, v)], _, hfits, hread, acc, rest, fuel + 1, hfuel => by
    obtain ⟨c, s, hs, hgap, -⟩ := (hfits (key, v) List.mem_cons_self).chars_eq_cons
    rw [memberChars_singleton, List.append_assoc, List.cons_append, List.append_assoc, List.singleton_append] at hfuel ⊢
    refine members?_last ?_
    rw [show v.chars = c :: s from hs, List.cons_append, skip_cons hgap, ← List.cons_append, ← hs]
    refine hread (key, v) List.mem_cons_self ('}' :: rest) (by simp [Follows]) fuel ?_
    simp only [List.length_append, List.length_cons] at hfuel ⊢
    omega
  | (key, v) :: m :: more, _, hfits, hread, acc, rest, fuel + 1, hfuel => by
    obtain ⟨c, s, hs, hgap, -⟩ := (hfits (key, v) List.mem_cons_self).chars_eq_cons
    obtain ⟨s', hs'⟩ := memberChars_eq_cons (List.cons_ne_nil m more)
    rw [memberChars_cons_cons, List.append_assoc, List.cons_append, List.append_assoc, List.cons_append] at hfuel ⊢
    have hvalue : value? fuel depth (skip (v.chars ++ ',' :: (memberChars (m :: more) ++ rest))) =
        some (v, ',' :: (memberChars (m :: more) ++ rest)) := by
      rw [show v.chars = c :: s from hs, List.cons_append, skip_cons hgap, ← List.cons_append, ← hs]
      refine hread (key, v) List.mem_cons_self _ (by simp [Follows]) fuel ?_
      simp only [List.length_append, List.length_cons] at hfuel ⊢
      omega
    rw [members?_more hvalue, hs', List.cons_append, skip_cons rfl, ← List.cons_append, ← hs',
      members?_memberChars (List.cons_ne_nil m more) (fun u hu => hfits u (List.mem_cons_of_mem _ hu))
        (fun u hu => hread u (List.mem_cons_of_mem _ hu))]
    · simp
    · simp only [List.length_append, List.length_cons] at hfuel ⊢
      omega

end Parts

/-- What begins with a digit or a minus sign is read for a number. -/
theorem value?_number {c : Char} (hc : c.isDigit = true ∨ c = '-') (fuel depth : Nat) (s : List Char) :
    value? (fuel + 1) depth (c :: s) = number? (c :: s) := by
  have hne : ∀ d : Char, d.isDigit = false → d ≠ '-' → c ≠ d := by
    rintro d hd hminus rfl
    rcases hc with hc | hc
    · rw [hd] at hc
      cases hc
    · exact hminus hc
  have hopening : c ≠ '[' ∧ c ≠ '{' := ⟨hne _ rfl (by decide), hne _ rfl (by decide)⟩
  have hmark : c ≠ '"' := hne _ rfl (by decide)
  have hword : c ≠ 'n' ∧ c ≠ 't' ∧ c ≠ 'f' ∧ c ≠ 'N' ∧ c ≠ 'I' :=
    ⟨hne _ rfl (by decide), hne _ rfl (by decide), hne _ rfl (by decide), hne _ rfl (by decide), hne _ rfl (by decide)⟩
  simp [value?_succ, atom?, hopening, hmark, hword]

/-- **What fits is read back** in front of whatever a value may be followed by. -/
theorem Value.Fits.readsBack {depth : Nat} {v : Value} (h : v.Fits depth) : v.ReadsBack depth := by
  induction h with
  | null =>
    rintro rest - (_ | fuel) hfuel
    · omega
    · show (word? "null" ("null".toList ++ rest)).map (Value.null, ·) = _
      rw [word?_eq_some_iff.2 rfl]
      rfl
  | bool b =>
    rintro rest - (_ | fuel) hfuel
    · omega
    · cases b with
      | false =>
        show (word? "false" ("false".toList ++ rest)).map (Value.bool false, ·) = _
        rw [word?_eq_some_iff.2 rfl]
        rfl
      | true =>
        show (word? "true" ("true".toList ++ rest)).map (Value.bool true, ·) = _
        rw [word?_eq_some_iff.2 rfl]
        rfl
  | string s =>
    rintro rest - (_ | fuel) hfuel
    · omega
    · rw [Value.chars, stringText_append]
      show (stringBody? [] (s.toList.flatMap escaped ++ '"' :: rest)).map _ = _
      rw [stringBody?_escaped]
      simp
  | @int _ n hn =>
    rintro rest hrest (_ | fuel) hfuel
    · omega
    · obtain ⟨c, s, hs, hc⟩ := text_eq_cons n
      rw [Value.chars, ← number?_text hrest hn, hs, List.cons_append, value?_number hc]
  | @array depth items hitems ih =>
    rintro rest - (_ | fuel) hfuel
    · omega
    · rw [Value.chars, List.cons_append, value?_succ]
      show afterBracket fuel (depth + 1) (skip (itemChars items ++ rest)) = _
      simp only [Value.chars, List.cons_append, List.length_cons] at hfuel
      by_cases hne : items = []
      · subst hne
        rfl
      · obtain ⟨c, s, hs, hgap, hend⟩ := itemChars_eq_cons hne hitems
        have hitems' := items?_itemChars hne hitems ih [] rest fuel (by omega)
        rw [hs, List.cons_append] at hitems' ⊢
        rw [skip_cons hgap, afterBracket]
        · simpa using hitems'
        · intro r hr
          cases hr
          exact hend rfl
  | @object depth members hmembers ih =>
    rintro rest - (_ | fuel) hfuel
    · omega
    · rw [Value.chars, List.cons_append, value?_succ]
      show afterBrace fuel (depth + 1) (skip (memberChars members ++ rest)) = _
      simp only [Value.chars, List.cons_append, List.length_cons] at hfuel
      by_cases hne : members = []
      · subst hne
        rfl
      · obtain ⟨s, hs⟩ := memberChars_eq_cons hne
        have hmembers' := members?_memberChars hne hmembers ih [] rest fuel (by omega)
        rw [hs, List.cons_append] at hmembers' ⊢
        rw [skip_cons rfl, afterBrace]
        · simpa using hmembers'
        · intro r hr
          cases hr

/-- **What is written is read back.** -/
theorem read?_chars {depth : Nat} {v : Value} (h : v.Fits depth) : read? depth v.chars = some v := by
  obtain ⟨c, s, hs, hgap, -⟩ := h.chars_eq_cons
  have hread := h.readsBack [] (by simp [Follows]) (2 * v.chars.length + 2) (by simp)
  rw [List.append_nil] at hread
  unfold read?
  rw [show skip v.chars = v.chars by rw [hs, skip_cons hgap], hread]
  rfl

end CommitStatus.Json
