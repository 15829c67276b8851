import CommitStatus.Json.Reader
import Mathlib.Data.List.TakeWhile

/-!
# How much of a text the reader of JSON reads

Each part of the reader reads some characters at the head of a text and leaves the rest. The characters of a string's
body are no control characters, and what follows them does not matter (`stringBody?_append`). What is left is no longer
than the text (`shortens_value?`), so a text is read with the fuel that its length asks for or more to the same end
(`value?_of_le`).
-/

namespace CommitStatus.Json

/-! ## Strings -/

theorem toNat_of_hexValue? {c : Char} {n : Nat} (h : hexValue? c = some n) : 0x20 ≤ c.toNat := by
  have hchar : ∀ d : Char, 0x20 ≤ d.toNat → d ≤ c → 0x20 ≤ c.toNat := fun d hd hle => Nat.le_trans hd hle
  unfold hexValue? at h
  split at h
  · rename_i hc
    simp only [Char.isDigit, Bool.and_eq_true, decide_eq_true_eq] at hc
    exact Nat.le_trans (by decide) (UInt32.le_iff_toNat_le.1 hc.1)
  · split at h
    · rename_i hc
      simp only [Bool.and_eq_true, decide_eq_true_eq] at hc
      exact hchar _ (by decide) hc.1
    · split at h
      · rename_i hc
        simp only [Bool.and_eq_true, decide_eq_true_eq] at hc
        exact hchar _ (by decide) hc.1
      · cases h

/-- The digits of a unit are no control characters. -/
theorem toNat_of_unit? {a b c d : Char} {n : Nat} (h : unit? a b c d = some n) :
    ∀ x ∈ [a, b, c, d], 0x20 ≤ x.toNat := by
  simp only [unit?, bind, Option.bind_eq_some_iff] at h
  obtain ⟨_, ha, _, hb, _, hc, _, hd, -⟩ := h
  simp only [List.mem_cons, List.not_mem_nil, or_false]
  rintro x (rfl | rfl | rfl | rfl)
  · exact toNat_of_hexValue? ha
  · exact toNat_of_hexValue? hb
  · exact toNat_of_hexValue? hc
  · exact toNat_of_hexValue? hd

/-- The letter of a short escape is no control character, and not that of a unit. -/
theorem toNat_of_shortEscape? {c e : Char} (h : shortEscape? c = some e) : 0x20 ≤ c.toNat ∧ c ≠ 'u' := by
  unfold shortEscape? at h
  split at h
  case h_9 => cases h
  all_goals decide

section Steps

variable {acc rest : List Char} {a b c d e : Char} {n : Nat}

theorem stringBody?_unit (h : unit? a b c d = some n) (hn : (n < 0xD800 || 0xE000 ≤ n) = true) :
    stringBody? acc ('\\' :: 'u' :: a :: b :: c :: d :: rest) = stringBody? (Char.ofNat n :: acc) rest := by
  rw [stringBody?, h]
  exact if_pos hn

theorem stringBody?_pair {a' b' c' d' : Char} {m : Nat} (h : unit? a b c d = some n)
    (hn : ¬(n < 0xD800 || 0xE000 ≤ n) = true) (hn' : ¬0xDC00 ≤ n) (h' : unit? a' b' c' d' = some m)
    (hm : (0xDC00 ≤ m && m < 0xE000) = true) :
    stringBody? acc ('\\' :: 'u' :: a :: b :: c :: d :: '\\' :: 'u' :: a' :: b' :: c' :: d' :: rest) =
      stringBody? (Char.ofNat (0x10000 + (n - 0xD800) * 0x400 + (m - 0xDC00)) :: acc) rest := by
  rw [stringBody?, h]
  dsimp only
  rw [if_neg hn, if_neg hn']
  simp only [h', hm, if_true]

theorem stringBody?_short (h : shortEscape? c = some e) :
    stringBody? acc ('\\' :: c :: rest) = stringBody? (e :: acc) rest := by
  have hu := (toNat_of_shortEscape? h).2
  rw [stringBody?.eq_3 acc c rest (fun _ _ _ _ _ hc _ => hu hc), h]

theorem stringBody?_char (hmark : c ≠ '"') (hslash : c ≠ '\\') (hc : 0x20 ≤ c.toNat) :
    stringBody? acc (c :: rest) = stringBody? (c :: acc) rest := by
  rw [stringBody?.eq_4 acc c rest hmark (fun _ _ _ _ _ h _ => hslash h) (fun _ _ h _ => hslash h),
    if_neg (Nat.not_lt.2 hc)]

end Steps

/-- The body of a string is read off a head of the text without control characters, whatever follows. -/
theorem stringBody?_append {acc s : List Char} {text : String} {rest : List Char}
    (h : stringBody? acc s = some (text, rest)) :
    ∃ p, s = p ++ rest ∧ (∀ c ∈ p, 0x20 ≤ c.toNat) ∧
      ∀ rest', stringBody? acc (p ++ rest') = some (text, rest') := by
  fun_induction stringBody? acc s
  case case1 acc r =>
    cases h
    exact ⟨['"'], rfl, by simp, fun _ => rfl⟩
  case case3 acc a b c d r n hn hrange ih =>
    obtain ⟨p, rfl, hp, happend⟩ := ih h
    have hunit := toNat_of_unit? hn
    refine ⟨'\\' :: 'u' :: a :: b :: c :: d :: p, rfl, ?_, fun rest' => ?_⟩
    · simp_all
    · exact (stringBody?_unit hn hrange).trans (happend rest')
  case case6 acc a b c d n hn hrange hhigh a' b' c' d' r m hm hlow ih =>
    obtain ⟨p, rfl, hp, happend⟩ := ih h
    have hunit := toNat_of_unit? hn
    have hunit' := toNat_of_unit? hm
    refine ⟨'\\' :: 'u' :: a :: b :: c :: d :: '\\' :: 'u' :: a' :: b' :: c' :: d' :: p, rfl, ?_, fun rest' => ?_⟩
    · simp_all
    · exact (stringBody?_pair hn hrange hhigh hm hlow).trans (happend rest')
  case case10 acc c r hu e he ih =>
    obtain ⟨p, rfl, hp, happend⟩ := ih h
    have hc := (toNat_of_shortEscape? he).1
    refine ⟨'\\' :: c :: p, rfl, ?_, fun rest' => ?_⟩
    · simp_all
    · exact (stringBody?_short he).trans (happend rest')
  case case12 acc c r hmark hu hslash hc ih =>
    obtain ⟨p, rfl, hp, happend⟩ := ih h
    have hne : c ≠ '\\' := by
      rintro rfl
      cases hr : p ++ rest with
      | nil => simp [hr, stringBody?] at h
      | cons d l => exact hslash d l rfl hr
    refine ⟨c :: p, rfl, ?_, fun rest' => ?_⟩
    · simp_all
    · exact (stringBody?_char hmark hne (Nat.not_lt.1 hc)).trans (happend rest')
  all_goals cases h

/-! ## Numbers -/

/-- Digits before the point that make no number. -/
def isRefused (negative : Bool) (digits : List Char) : Bool :=
  let zeroInFront := match digits with
    | '0' :: _ :: _ => true
    | _ => false
  digits.isEmpty || zeroInFront || Decimal.Integer.maxDigits < digits.length + negative.toNat

/-- The number of its digits before and behind the point and its exponent. -/
def numberOf (negative : Bool) (digits fraction : List Char) (exponent : Option Int) : Value :=
  let n := digitsValue (digits ++ fraction)
  if fraction.isEmpty && exponent.isNone then .int (if negative then -(n : Int) else n)
  else .float (Decimal.Binary64.ofDecimal negative n (exponent.getD 0 - fraction.length))

/-- A number is read part by part. -/
theorem magnitude?_eq (negative : Bool) (s : List Char) :
    magnitude? negative s =
      if isRefused negative (s.takeWhile Char.isDigit) then none
      else (fraction? (s.dropWhile Char.isDigit)).bind fun f =>
        (exponent? f.2).bind fun e => some (numberOf negative (s.takeWhile Char.isDigit) f.1 e.1, e.2) := by
  unfold magnitude? isRefused numberOf
  dsimp only
  refine ite_congr rfl (fun _ => rfl) fun _ => ?_
  refine congrArg (Option.bind _) (funext fun f => congrArg (Option.bind _) (funext fun e => ?_))
  split <;> rfl

/-! ## What is left -/

/-- A part of the reader leaves no more of a text than there is. -/
def Shortens {α : Type} (f : List Char → Option (α × List Char)) : Prop :=
  ∀ s a rest, f s = some (a, rest) → rest.length ≤ s.length

theorem length_skip (s : List Char) : (skip s).length ≤ s.length := List.length_dropWhile_le _ _

theorem shortens_stringBody? (acc : List Char) : Shortens (stringBody? acc) := by
  intro s text rest h
  obtain ⟨p, rfl, -⟩ := stringBody?_append h
  simp

theorem shortens_word? (word : String) {rest s : List Char} (h : word? word s = some rest) :
    rest.length ≤ s.length := by
  unfold word? at h
  split at h
  · cases h
    simp
  · cases h

theorem shortens_fraction? : Shortens fraction? := by
  intro s digits rest h
  unfold fraction? at h
  split at h
  · rename_i r
    dsimp only at h
    split at h
    · cases h
    · cases h
      exact Nat.le_succ_of_le (List.length_dropWhile_le _ r)
  · cases h
    exact Nat.le_refl _

theorem length_splitSign (s : List Char) : (Decimal.Integer.splitSign s).2.length ≤ s.length := by
  unfold Decimal.Integer.splitSign
  split <;> simp

theorem shortens_exponent? : Shortens exponent? := by
  intro s e rest h
  unfold exponent? at h
  split at h
  · rename_i c r
    have hsign := length_splitSign r
    split at h
    · rcases hs : Decimal.Integer.splitSign r with ⟨negative, r'⟩
      rw [hs] at hsign
      simp only [hs] at h
      split at h
      · cases h
      · cases h
        exact Nat.le_trans (List.length_dropWhile_le _ r') (Nat.le_succ_of_le hsign)
    · cases h
      exact Nat.le_refl _
  · cases h
    exact Nat.le_refl _

theorem shortens_magnitude? (negative : Bool) : Shortens (magnitude? negative) := by
  intro s v rest h
  rw [magnitude?_eq] at h
  split at h
  · cases h
  · simp only [Option.bind_eq_some_iff] at h
    obtain ⟨⟨fraction, r⟩, hf, ⟨e, r'⟩, he, h⟩ := h
    cases h
    exact (shortens_exponent? _ _ _ he).trans ((shortens_fraction? _ _ _ hf).trans (List.length_dropWhile_le _ s))

theorem shortens_number? : Shortens number? := by
  intro s v rest h
  unfold number? at h
  split at h
  · rename_i r
    split at h
    · rename_i r' hword
      cases h
      exact Nat.le_succ_of_le (shortens_word? _ hword)
    · exact Nat.le_succ_of_le (shortens_magnitude? true _ _ _ h)
  · exact shortens_magnitude? false _ _ _ h

theorem shortens_atom? : Shortens atom? := by
  intro s v rest h
  unfold atom? at h
  split at h
  · obtain ⟨⟨text, r⟩, hs, h⟩ := Option.map_eq_some_iff.1 h
    cases h
    exact Nat.le_succ_of_le (shortens_stringBody? [] _ _ _ hs)
  case h_7 => exact shortens_number? _ _ _ h
  all_goals
    obtain ⟨r, hword, h⟩ := Option.map_eq_some_iff.1 h
    cases h
    exact shortens_word? _ hword

/-! ## Step by step -/

/-- What comes behind an opening bracket and white space. -/
def afterBracket (fuel depth : Nat) : List Char → Option (Value × List Char)
  | ']' :: rest => some (.array [], rest)
  | rest => if depth = 0 then none else items? fuel (depth - 1) [] rest

/-- What comes behind an opening brace and white space. -/
def afterBrace (fuel depth : Nat) : List Char → Option (Value × List Char)
  | '}' :: rest => some (.object [], rest)
  | rest => if depth = 0 then none else members? fuel (depth - 1) [] rest

/-- What comes behind an item and white space. -/
def afterItem (fuel depth : Nat) (acc : List Value) : List Char → Option (Value × List Char)
  | ',' :: rest => items? fuel depth acc (skip rest)
  | ']' :: rest => some (.array acc.reverse, rest)
  | _ => none

/-- What comes behind a member and white space. -/
def afterMember (fuel depth : Nat) (acc : Members) : List Char → Option (Value × List Char)
  | ',' :: rest => members? fuel depth acc (skip rest)
  | '}' :: rest => some (.object acc.reverse, rest)
  | _ => none

/-- What comes behind a key and white space. -/
def afterKey (fuel depth : Nat) (acc : Members) (key : String) : List Char → Option (Value × List Char)
  | ':' :: rest =>
    (value? fuel depth (skip rest)).bind fun a => afterMember fuel depth ((key, a.1) :: acc) (skip a.2)
  | _ => none

section Steps

variable (fuel depth : Nat) (s : List Char)

theorem value?_succ :
    value? (fuel + 1) depth s =
      match s with
      | '[' :: rest => afterBracket fuel depth (skip rest)
      | '{' :: rest => afterBrace fuel depth (skip rest)
      | s => atom? s := by
  split
  · rfl
  · rfl
  · rename_i harray hobject
    exact value?.eq_4 _ _ _ harray hobject

theorem items?_succ (acc : List Value) :
    items? (fuel + 1) depth acc s =
      (value? fuel depth s).bind fun a => afterItem fuel depth (a.1 :: acc) (skip a.2) := by
  rw [items?]
  rcases value? fuel depth s with _ | ⟨v, rest⟩ <;> rfl

theorem members?_succ (acc : Members) :
    members? (fuel + 1) depth acc s =
      match s with
      | '"' :: rest => (stringBody? [] rest).bind fun a => afterKey fuel depth acc a.1 (skip a.2)
      | _ => none := by
  split
  · rename_i rest
    rw [members?]
    rcases stringBody? [] rest with _ | ⟨key, rest⟩
    · rfl
    · dsimp only [Option.bind]
      generalize skip rest = r
      split
      · rename_i r
        rw [afterKey]
        rcases value? fuel depth (skip r) with _ | ⟨v, r⟩ <;> rfl
      · rename_i hcolon
        exact (afterKey.eq_2 _ _ _ _ _ hcolon).symm
  · rename_i hmark
    exact members?.eq_3 _ _ _ _ hmark

end Steps

/-! ## What is left of a value -/

theorem Shortens.bind {α β : Type} {f : List Char → Option (α × List Char)} {g : α → List Char → Option (β × List Char)}
    (hf : Shortens f) (hg : ∀ a, Shortens (g a)) : Shortens fun s => (f s).bind fun a => g a.1 (skip a.2) := by
  intro s b rest h
  obtain ⟨⟨a, r⟩, ha, h⟩ := Option.bind_eq_some_iff.1 h
  exact (hg a _ _ _ h).trans ((length_skip r).trans (hf _ _ _ ha))

section Left

variable {fuel depth : Nat}

theorem shortens_afterBracket (h : ∀ depth acc, Shortens (items? fuel depth acc)) :
    Shortens (afterBracket fuel depth) := by
  intro s v rest hs
  unfold afterBracket at hs
  split at hs
  · cases hs
    exact Nat.le_succ _
  · split at hs
    · cases hs
    · exact h _ _ _ _ _ hs

theorem shortens_afterBrace (h : ∀ depth acc, Shortens (members? fuel depth acc)) :
    Shortens (afterBrace fuel depth) := by
  intro s v rest hs
  unfold afterBrace at hs
  split at hs
  · cases hs
    exact Nat.le_succ _
  · split at hs
    · cases hs
    · exact h _ _ _ _ _ hs

theorem shortens_afterItem (h : ∀ depth acc, Shortens (items? fuel depth acc)) (acc : List Value) :
    Shortens (afterItem fuel depth acc) := by
  intro s v rest hs
  unfold afterItem at hs
  split at hs
  · rename_i r
    exact (h _ _ _ _ _ hs).trans (Nat.le_succ_of_le (length_skip r))
  · cases hs
    exact Nat.le_succ _
  · cases hs

theorem shortens_afterMember (h : ∀ depth acc, Shortens (members? fuel depth acc)) (acc : Members) :
    Shortens (afterMember fuel depth acc) := by
  intro s v rest hs
  unfold afterMember at hs
  split at hs
  · rename_i r
    exact (h _ _ _ _ _ hs).trans (Nat.le_succ_of_le (length_skip r))
  · cases hs
    exact Nat.le_succ _
  · cases hs

theorem shortens_afterKey (hvalue : ∀ depth, Shortens (value? fuel depth))
    (hmembers : ∀ depth acc, Shortens (members? fuel depth acc)) (acc : Members) (key : String) :
    Shortens (afterKey fuel depth acc key) := by
  intro s v rest hs
  unfold afterKey at hs
  split at hs
  · rename_i r
    have := (hvalue depth).bind (fun u => shortens_afterMember hmembers ((key, u) :: acc)) _ _ _ hs
    exact this.trans (Nat.le_succ_of_le (length_skip r))
  · cases hs

/-- Values, items and members leave no more of a text than there is. -/
theorem shortens_value? : ∀ fuel, (∀ depth, Shortens (value? fuel depth)) ∧
    (∀ depth acc, Shortens (items? fuel depth acc)) ∧ (∀ depth acc, Shortens (members? fuel depth acc))
  | 0 => ⟨fun _ _ _ _ h => by simp [value?] at h, fun _ _ _ _ _ h => by simp [items?] at h,
      fun _ _ _ _ _ h => by simp [members?] at h⟩
  | fuel + 1 => by
    obtain ⟨hvalue, hitems, hmembers⟩ := shortens_value? fuel
    refine ⟨fun depth s v rest h => ?_, fun depth acc s v rest h => ?_, fun depth acc s v rest h => ?_⟩
    · rw [value?_succ] at h
      split at h
      · rename_i r
        exact (shortens_afterBracket hitems _ _ _ h).trans (Nat.le_succ_of_le (length_skip r))
      · rename_i r
        exact (shortens_afterBrace hmembers _ _ _ h).trans (Nat.le_succ_of_le (length_skip r))
      · exact shortens_atom? _ _ _ h
    · rw [items?_succ] at h
      exact (hvalue depth).bind (fun u => shortens_afterItem hitems (u :: acc)) _ _ _ h
    · rw [members?_succ] at h
      split at h
      · have hafter : ∀ key, Shortens (afterKey fuel depth acc key) := shortens_afterKey hvalue hmembers acc
        exact Nat.le_succ_of_le ((shortens_stringBody? []).bind hafter _ _ _ h)
      · cases h

end Left

/-! ## How much fuel is enough -/

/-- Where there is fuel for two steps with each character and one more, another changes nothing. -/
theorem value?_succ_of_le : ∀ fuel,
    (∀ depth s, 2 * s.length + 1 ≤ fuel → value? (fuel + 1) depth s = value? fuel depth s) ∧
    (∀ depth acc s, 2 * s.length + 2 ≤ fuel → items? (fuel + 1) depth acc s = items? fuel depth acc s) ∧
    (∀ depth acc s, 2 * s.length + 2 ≤ fuel → members? (fuel + 1) depth acc s = members? fuel depth acc s)
  | 0 => ⟨fun _ _ h => by omega, fun _ _ _ h => by omega, fun _ _ _ h => by omega⟩
  | fuel + 1 => by
    obtain ⟨hvalue, hitems, hmembers⟩ := value?_succ_of_le fuel
    have hshort := (shortens_value? fuel).1
    refine ⟨fun depth s h => ?_, fun depth acc s h => ?_, fun depth acc s h => ?_⟩
    · rw [value?_succ, value?_succ]
      split
      · rename_i r
        have hr := length_skip r
        unfold afterBracket
        split
        · rfl
        · rw [hitems]
          grind
      · rename_i r
        have hr := length_skip r
        unfold afterBrace
        split
        · rfl
        · rw [hmembers]
          grind
      · rfl
    · rw [items?_succ, items?_succ, hvalue _ _ (by omega)]
      refine Option.bind_congr fun ⟨v, r⟩ hv => ?_
      have hr := (length_skip r).trans (hshort _ _ _ _ hv)
      unfold afterItem
      split
      · rename_i r' hr'
        have := length_skip r'
        rw [hitems]
        grind
      · rfl
      · rfl
    · rw [members?_succ, members?_succ]
      split
      · rename_i r
        refine Option.bind_congr fun ⟨key, r₁⟩ hk => ?_
        have hr₁ := (length_skip r₁).trans (shortens_stringBody? _ _ _ _ hk)
        unfold afterKey
        split
        · rename_i r₂ hr₂
          have h₂ := length_skip r₂
          rw [hvalue _ _ (by grind)]
          refine Option.bind_congr fun ⟨v, r₃⟩ hv => ?_
          have hr₃ := (length_skip r₃).trans (hshort _ _ _ _ hv)
          unfold afterMember
          split
          · rename_i r₄ hr₄
            have := length_skip r₄
            rw [hmembers]
            grind
          · rfl
          · rfl
        · rfl
      · rfl

/-- **Fuel does not limit what is read**: with what the length of a text asks for, it is read as with more. -/
theorem value?_of_le {fuel fuel' depth : Nat} {s : List Char} (h : 2 * s.length + 1 ≤ fuel) (hle : fuel ≤ fuel') :
    value? fuel' depth s = value? fuel depth s := by
  induction fuel', hle using Nat.le_induction with
  | base => rfl
  | succ m hm ih => rw [(value?_succ_of_le m).1 depth s (h.trans hm), ih]

end CommitStatus.Json
