import CommitStatus.Text.LowerCase

/-!
# What lower case leaves alone

Capital letters become letters, so a text in lower case holds the same marks and digits as before (`mem_lower_iff`) and
is empty only if the text was (`lower_eq_nil_iff`).
-/

namespace CommitStatus.Text

/-- A character that is given by its code point is none of those below a bound from the space on if the code point is
not below it. -/
theorem ofNat_ne_of_le {c : Char} {n bound : Nat} (hspace : 32 ≤ c.toNat) (hc : c.toNat < bound) (hn : bound ≤ n) :
    Char.ofNat n ≠ c := by
  rintro rfl
  by_cases hvalid : n.isValidChar
  · have hnat : (Char.ofNat n).toNat = n := congrArg Char.toNat (dif_pos hvalid)
    omega
  · have hzero : (Char.ofNat n).toNat = 0 := congrArg Char.toNat (dif_neg hvalid)
    omega

/-- The targets of capital letters lie behind the marks and digits. -/
theorem le_target : ∀ row ∈ lowerRows, 0x41 ≤ row.2.2.2 := by decide +kernel

/-- The lower-case form of a character holds a mark or a digit only if the character is that. -/
theorem mem_lowerChar_iff {c : Char} (hspace : 32 ≤ c.toNat) (hc : c.toNat < 0x41) (d : Char) :
    c ∈ lowerChar d ↔ c = d := by
  have hfar : ∀ {n : Nat}, 0x41 ≤ n → c ≠ Char.ofNat n := fun hn => (ofNat_ne_of_le hspace hc hn).symm
  unfold lowerChar
  dsimp only
  split
  · -- an ASCII character
    split
    · rename_i hcapital
      simp only [Bool.and_eq_true, decide_eq_true_eq] at hcapital
      have hne : c ≠ d := by rintro rfl; omega
      simp [hfar (n := d.toNat + 32) (by omega), hne]
    · simp
  · rename_i hascii
    have hne : c ≠ d := by rintro rfl; omega
    split
    · have hi : c ≠ 'i' := by rintro rfl; exact absurd hc (by decide)
      simp [hne, hi, hfar (n := 0x307) (by decide)]
    · split
      · rename_i first last step target hrow
        have htarget : 0x41 ≤ target := le_target _ (List.mem_of_find?_eq_some hrow)
        simp [hne, hfar (n := target + (d.toNat - first)) (by omega)]
      · simp

/-- A text in lower case holds the same marks and digits. -/
theorem mem_lower_iff {c : Char} (hspace : 32 ≤ c.toNat) (hc : c.toNat < 0x41) (s : List Char) :
    c ∈ lower s ↔ c ∈ s := by
  simp only [lower, List.mem_flatMap, mem_lowerChar_iff hspace hc, exists_eq_right']

theorem lowerChar_ne_nil (c : Char) : lowerChar c ≠ [] := by
  unfold lowerChar
  dsimp only
  split
  · simp
  · split
    · simp
    · split <;> simp

/-- Only the empty text is empty in lower case. -/
theorem lower_eq_nil_iff (s : List Char) : lower s = [] ↔ s = [] := by
  cases s with
  | nil => exact iff_of_true rfl rfl
  | cons c s => simp [lower, lowerChar_ne_nil]

end CommitStatus.Text
