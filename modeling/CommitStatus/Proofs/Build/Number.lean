import CommitStatus.Build.Number
import CommitStatus.Proofs.Json.Measured

/-!
# Build numbers in documents

A build number that is read from a document is no longer than what is read, however it was spelled
(`length_text_of_check`). Digits are read as the number that they write, zeros in front of it or not
(`ofText_digits`).
-/

namespace CommitStatus.Build.Number

open CommitStatus.Decimal (Integer.text Integer.maxDigits)
open CommitStatus.Json (digitsValue)

/-! ## The plain form -/

theorem plain_of_head?_ne {s : List Char} (h : s.head? ≠ some '-') : plain s = plainFrom false s := by
  unfold plain
  split
  · exact absurd rfl h
  · rfl

/-- Digits without a zero in front are read as the number that they write. -/
theorem plain_digits {s : List Char} (hne : s ≠ []) (h : ∀ c ∈ s, c.isDigit = true) (hzero : zeroInFront s = false)
    (hshort : s.length ≤ Integer.maxDigits) : plain s = .integer (digitsValue s) := by
  have hminus : s.head? ≠ some '-' := fun hhead => by cases h '-' (List.mem_of_mem_head? hhead)
  have hrun : s.takeWhile Char.isDigit = s := List.takeWhile_eq_self_iff.2 h
  have hshape : ¬(s.isEmpty || zeroInFront s) = true := by simp [hne, hzero]
  simp only [plain_of_head?_ne hminus, plainFrom, hrun, if_neg hshape, Bool.toNat_false, Nat.add_zero,
    if_neg (Nat.not_lt.2 hshort), Nat.lt_irrefl, if_false, Bool.false_eq_true]

/-! ## How long a number is -/

/-- What stands behind a sign, or behind none, is no longer with that sign than what is read. -/
theorem length_text_of_plainFrom {negative : Bool} {s : List Char} {n : Int} (h : plainFrom negative s = .integer n) :
    (Integer.text n).length ≤ Integer.maxDigits := by
  unfold plainFrom at h
  dsimp only at h
  split at h
  · cases h
  · rename_i hshape
    split at h
    · cases h
    · rename_i hshort
      split at h
      · cases h
      · cases h
        have hne : s.takeWhile Char.isDigit ≠ [] := fun hnil => hshape (by simp [hnil])
        exact Nat.le_trans (Decimal.Integer.length_text_le negative hne List.all_takeWhile) (Nat.not_lt.1 hshort)

/-- A number in plain form is no longer than what is read. -/
theorem length_text_of_plain {s : List Char} {n : Int} (h : plain s = .integer n) :
    (Integer.text n).length ≤ Integer.maxDigits := by
  unfold plain at h
  split at h <;> exact length_text_of_plainFrom h

theorem length_text_of_ofText {s : List Char} {n : Int} (h : ofText s = .valid n) :
    (Integer.text n).length ≤ Integer.maxDigits := by
  unfold ofText at h
  split at h
  · rename_i hplain
    cases h
    exact length_text_of_plain hplain
  · cases h
  · split at h
    · rename_i htidy
      cases h
      obtain ⟨t, -, hplain⟩ := Option.map_eq_some_iff.1 htidy
      exact length_text_of_plain hplain
    · cases h

/-- A whole number within 64 bits is no longer than what is read. -/
theorem length_text_of_isWithin64 {n : Int} (h : Decimal.Integer.isWithin64 n = true) :
    (Integer.text n).length ≤ Integer.maxDigits := by
  simp only [Decimal.Integer.isWithin64, Bool.and_eq_true, decide_eq_true_eq] at h
  have hleast : Decimal.Integer.least64 = -9223372036854775808 := rfl
  have hgreatest : Decimal.Integer.greatest64 = 9223372036854775807 := rfl
  have hsmall : n.natAbs < 10 ^ 19 := by omega
  have hdigits : Integer.maxDigits = 4300 := rfl
  exact Nat.le_trans (Decimal.Integer.length_text_le_of_lt (by decide) hsmall) (by omega)

theorem length_text_of_ofFloat {x : Decimal.Binary64} {n : Int} (h : ofFloat x = .valid n) :
    (Integer.text n).length ≤ Integer.maxDigits := by
  unfold ofFloat at h
  split at h
  · cases h
  · split at h
    · cases h
    · split at h
      · rename_i hwithin
        cases h
        exact length_text_of_isWithin64 hwithin
      · cases h

/-- **A number that is read from a document is no longer than what is read.** -/
theorem length_text_of_check {v : Json.Value} {n : Int} (hv : v.Measured) (h : check v = .valid n) :
    (Integer.text n).length ≤ Integer.maxDigits := by
  cases hv with
  | int hn =>
    cases h
    exact hn
  | float x => exact length_text_of_ofFloat h
  | bool b =>
    cases h
    cases b <;> decide
  | string s => exact length_text_of_ofText h
  | null => cases h
  | array => cases h
  | object => cases h

/-! ## Digits with zeros in front -/

section Digits

variable {s : List Char}

theorem ne_of_isDigit {c d : Char} (h : c.isDigit = true) (hd : d.isDigit = false) : c ≠ d := by
  rintro rfl
  rw [h] at hd
  cases hd

theorem isSpace_of_isDigit {c : Char} (h : c.isDigit = true) : Text.isSpace c = false := by
  have hrange := Decimal.Integer.toNat_of_isDigit h
  simp only [Text.isSpace, Text.isBlank, Bool.and_eq_false_iff, Bool.or_eq_false_iff, decide_eq_false_iff_not,
    beq_eq_false_iff_ne]
  omega

theorem trimBy_isSpace_of_digits (h : ∀ c ∈ s, c.isDigit = true) : Text.trimBy Text.isSpace s = s := by
  have hdrop : ∀ t : List Char, (∀ c ∈ t, c.isDigit = true) → t.dropWhile Text.isSpace = t := by
    intro t ht
    cases t with
    | nil => rfl
    | cons c t => simp [isSpace_of_isDigit (ht c List.mem_cons_self)]
  rw [Text.trimBy, Text.trimRightBy, hdrop s h, hdrop s.reverse (by simpa using h), List.reverse_reverse]

theorem dropFraction_of_digits (h : ∀ c ∈ s, c.isDigit = true) : dropFraction s = s := by
  unfold dropFraction
  split
  · rename_i rest hzero
    split
    · rename_i before hpoint
      -- a point would be one of the digits
      have hmem : '.' ∈ s.reverse :=
        hzero ▸ List.mem_cons_of_mem _ ((List.dropWhile_sublist _).mem (hpoint ▸ List.mem_cons_self))
      cases h '.' (List.mem_reverse.1 hmem)
    · rfl
  · rfl

theorem dropLowLines_of_digits (h : ∀ c ∈ s, c.isDigit = true) : (dropLowLines s).getD s = s := by
  unfold dropLowLines
  split
  · rfl
  · simp only [Option.getD_some, List.filter_eq_self, bne_iff_ne]
    exact fun c hc => ne_of_isDigit (h c hc) rfl

theorem beginsNumber_of_isDigit {c : Char} (h : c.isDigit = true) (hzero : c ≠ '0') : beginsNumber c = true := by
  obtain ⟨hlow, hhigh⟩ := Decimal.Integer.toNat_of_isDigit h
  have hne : c.toNat ≠ 48 := fun h => hzero (Char.toNat_inj.1 h)
  simp only [beginsNumber, Bool.or_eq_true, Bool.and_eq_true, decide_eq_true_eq]
  exact .inr ⟨UInt32.le_iff_toNat_le.2 (show 49 ≤ c.toNat by omega), UInt32.le_iff_toNat_le.2 hhigh⟩

/-- What is left of digits behind zeros has no zero in front and writes the same number. -/
theorem behindZeros_of_digits (h : ∀ c ∈ s, c.isDigit = true) :
    ∃ t, behindZeros '0' s = some t ∧ t ≠ [] ∧ zeroInFront t = false ∧ (∀ c ∈ t, c.isDigit = true) ∧
      digitsValue t = digitsValue s ∧ t.length ≤ s.length + 1 := by
  induction s with
  | nil => exact ⟨['0'], rfl, List.cons_ne_nil _ _, rfl, List.forall_mem_singleton.2 rfl, rfl, Nat.le_refl _⟩
  | cons c s ih =>
    by_cases hzero : c = '0'
    · subst hzero
      obtain ⟨t, ht, hne, hfront, hdigits, hvalue, hlength⟩ := ih fun d hd => h d (List.mem_cons_of_mem _ hd)
      exact ⟨t, ht, hne, hfront, hdigits, hvalue, Nat.le_succ_of_le hlength⟩
    · have hc := h c List.mem_cons_self
      have hline : c ≠ '_' := ne_of_isDigit hc rfl
      refine ⟨c :: s, ?_, List.cons_ne_nil _ _, ?_, h, rfl, Nat.le_succ _⟩
      · simp [behindZeros, hzero, hline, beginsNumber_of_isDigit hc hzero]
      · simp [zeroInFront, hzero]

end Digits

/-- **Digits are read as the number that they write**, zeros in front of it or not. -/
theorem ofText_digits {s : List Char} (hne : s ≠ []) (h : ∀ c ∈ s, c.isDigit = true)
    (hshort : s.length ≤ Integer.maxDigits) : ofText s = .valid (digitsValue s) := by
  unfold ofText
  cases hzero : zeroInFront s with
  | false => rw [plain_digits hne h hzero hshort]
  | true =>
    obtain ⟨c, rest, rfl⟩ : ∃ c rest, s = '0' :: c :: rest := by
      unfold zeroInFront at hzero
      split at hzero
      · exact ⟨_, _, rfl⟩
      · cases hzero
    obtain ⟨t, ht, hne', hfront, hdigits, hvalue, hlength⟩ := behindZeros_of_digits (s := c :: rest) fun d hd =>
      h d (List.mem_cons_of_mem _ hd)
    have hplus : dropPlus ('0' :: c :: rest) = '0' :: c :: rest := rfl
    have hzeros : dropSignedZeros ('0' :: c :: rest) = some t := ht
    have hchange : t ≠ '0' :: c :: rest := by
      rintro rfl
      cases hfront
    have htidy : tidy ('0' :: c :: rest) = some t := by
      simp only [tidy, trimBy_isSpace_of_digits h, hplus, hzeros, dropFraction_of_digits hdigits,
        dropLowLines_of_digits hdigits, if_neg hchange]
    have hother : plain ('0' :: c :: rest) = .other := by
      rw [plain_of_head?_ne (by simp), plainFrom]
      simp [hzero]
    have hshort' : t.length ≤ Integer.maxDigits := Nat.le_trans hlength hshort
    rw [hother, htidy, Option.map_some, plain_digits hne' hdigits hfront hshort', hvalue]
    rfl

end CommitStatus.Build.Number
