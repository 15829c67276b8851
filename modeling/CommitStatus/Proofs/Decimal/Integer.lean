import CommitStatus.Json.Reader
import CommitStatus.Text.Split
import Mathlib.Algebra.Ring.Nat
import Mathlib.Data.List.Induction

/-!
# Integers in base ten

The digits that an integer is written with are read back as the integer (`digitsValue_naturalText`), so integers are
told apart by their texts (`text_injective`), also behind other text and a separator (`append_cons_text_inj`); none of
the digits is a zero in front of others (`naturalText_eq_cons`). No other digits for the integer are fewer
(`length_text_le`).
-/

namespace CommitStatus.Decimal.Integer

open CommitStatus.Json (digitsValue)

/-! ## Digits of natural numbers -/

theorem isDigit_of_mem_naturalText {n : Nat} {c : Char} (h : c ∈ naturalText n) : c.isDigit = true :=
  Nat.isDigit_of_mem_toDigits (by decide) (by decide) h

theorem toNat_of_isDigit {c : Char} (h : c.isDigit = true) : 48 ≤ c.toNat ∧ c.toNat ≤ 57 := by
  simp only [Char.isDigit, Bool.and_eq_true, decide_eq_true_eq] at h
  exact ⟨UInt32.le_iff_toNat_le.1 h.1, UInt32.le_iff_toNat_le.1 h.2⟩

/-- What digits write is read off them. -/
theorem digitsValue_eq (digits : List Char) : digitsValue digits = Nat.ofDigitChars 10 digits 0 := by
  simp only [digitsValue, ofDigits, List.foldl_map, Nat.ofDigitChars_eq_foldl, Nat.mul_comm]
  rfl

theorem digitsValue_naturalText (n : Nat) : digitsValue (naturalText n) = n := by
  rw [digitsValue_eq]
  exact Nat.ofDigitChars_toDigits (by decide) (by decide)

/-- A number is written with a digit or more, and begins with a zero only if it is zero. -/
theorem naturalText_eq_cons (n : Nat) : ∃ c s, naturalText n = c :: s ∧ (c = '0' → s = []) := by
  induction n using Nat.strongRecOn with
  | ind n ih =>
    by_cases hn : n < 10
    · exact ⟨n.digitChar, [], Nat.toDigits_of_lt_base hn, fun _ => rfl⟩
    · obtain ⟨c, s, hs, hzero⟩ := ih (n / 10) (by omega)
      have hdigits : naturalText n = c :: (s ++ [(n % 10).digitChar]) := by
        rw [naturalText, Nat.toDigits_of_base_le (by decide) (by omega)]
        exact congrArg (· ++ _) hs
      refine ⟨c, _, hdigits, fun hc => ?_⟩
      -- a zero in front would be the only digit of a tenth of the number
      exfalso
      have hvalue := digitsValue_naturalText (n / 10)
      rw [hs, hc, hzero hc] at hvalue
      have hnone : digitsValue ['0'] = 0 := rfl
      omega

theorem naturalText_injective : Function.Injective naturalText := fun m n h => by
  rw [← digitsValue_naturalText m, h, digitsValue_naturalText]

/-! ## Texts of integers -/

/-- The text of an integer holds digits, and a minus sign at most. -/
theorem notMem_text {c : Char} (hminus : c ≠ '-') (hdigit : c.isDigit = false) (n : Int) : c ∉ text n := by
  have hdigits : ∀ n, c ∉ naturalText n := by
    intro n hmem
    rw [isDigit_of_mem_naturalText hmem] at hdigit
    cases hdigit
  cases n with
  | ofNat n => exact hdigits n
  | negSucc n =>
    intro hmem
    rcases List.mem_cons.1 hmem with rfl | hmem
    · exact hminus rfl
    · exact hdigits _ hmem

/-- Integers are told apart by their texts. -/
theorem text_injective : Function.Injective text := by
  have hsign : ∀ m n, '-' :: naturalText m ≠ naturalText n := by
    intro m n h
    have hmem : '-' ∈ naturalText n := h ▸ List.mem_cons_self
    exact absurd (isDigit_of_mem_naturalText hmem) (by decide)
  intro a b h
  cases a with
  | ofNat m =>
    cases b with
    | ofNat n => exact congrArg Int.ofNat (naturalText_injective h)
    | negSucc n => exact absurd h.symm (hsign _ _)
  | negSucc m =>
    cases b with
    | ofNat n => exact absurd h (hsign _ _)
    | negSucc n =>
      have hdigits : naturalText (m + 1) = naturalText (n + 1) := (List.cons.inj h).2
      exact congrArg Int.negSucc (Nat.succ.inj (naturalText_injective hdigits))

/-- An integer behind a separator is told by the whole text, and so is what stands in front of the separator, where
separators may stand as well. -/
theorem append_cons_text_inj {c : Char} (hminus : c ≠ '-') (hdigit : c.isDigit = false) {s s' : List Char} {m n : Int} :
    s ++ c :: text m = s' ++ c :: text n ↔ s = s' ∧ m = n := by
  rw [Text.append_cons_inj_of_notMem (notMem_text hminus hdigit m) (notMem_text hminus hdigit n), text_injective.eq_iff]

/-! ## How many digits there are -/

/-- Digits write less than a power of ten. -/
theorem digitsValue_lt {digits : List Char} (h : digits.all Char.isDigit = true) :
    digitsValue digits < 10 ^ digits.length := by
  rw [digitsValue_eq]
  induction digits using List.reverseRecOn with
  | nil => decide
  | append_singleton digits c ih =>
    simp only [List.all_append, List.all_cons, List.all_nil, Bool.and_true, Bool.and_eq_true] at h
    have hc : c.toNat - '0'.toNat < 10 := by
      have hnine := (toNat_of_isDigit h.2).2
      have hzero : '0'.toNat = 48 := rfl
      omega
    have hdigits := ih h.1
    rw [Nat.ofDigitChars_append, List.length_append, List.length_singleton, Nat.pow_succ]
    simp only [Nat.ofDigitChars_cons, Nat.ofDigitChars_nil]
    omega

/-- An integer of so many digits has a text of so many characters, and one for its sign. -/
theorem length_text_le_of_lt {n : Int} {k : Nat} (hk : 0 < k) (h : n.natAbs < 10 ^ k) : (text n).length ≤ k + 1 := by
  cases n with
  | ofNat n =>
    have hlength : (naturalText n).length ≤ k := (Nat.length_toDigits_le_iff (by decide) hk).2 h
    exact Nat.le_succ_of_le hlength
  | negSucc n =>
    have hlength : (naturalText (n + 1)).length ≤ k := (Nat.length_toDigits_le_iff (by decide) hk).2 h
    exact Nat.succ_le_succ hlength

/-- An integer that some digits write has a text that is no longer than these and the sign in front of them. -/
theorem length_text_le {digits : List Char} (negative : Bool) (hne : digits ≠ [])
    (h : digits.all Char.isDigit = true) :
    (text (if negative then -(digitsValue digits : Int) else digitsValue digits)).length ≤
      digits.length + negative.toNat := by
  have hlength : ∀ {m : Nat}, m ≤ digitsValue digits → (naturalText m).length ≤ digits.length := fun hm =>
    (Nat.length_toDigits_le_iff (by decide) (List.length_pos_iff.2 hne)).2 (Nat.lt_of_le_of_lt hm (digitsValue_lt h))
  cases negative with
  | false => exact hlength (Nat.le_refl _)
  | true =>
    rcases hn : digitsValue digits with _ | n
    · exact Nat.le_succ_of_le (hlength (Nat.zero_le _))
    · exact Nat.succ_le_succ (hlength (Nat.le_of_eq hn.symm))

end CommitStatus.Decimal.Integer
