import CommitStatus.Text.Utf8
import Mathlib.Tactic.Common

/-!
# UTF-8 gives back the texts that it is given

The octets of a text are read as that text (`decode_encode`). A character is read back from its octets (`next_octets`):
each of the up to three later octets carries six bits, behind those of the first (`lead?_three`, `lead?_four`).
-/

namespace CommitStatus.Text.Utf8

/-- A later octet, which carries six bits. -/
def trail (n : Nat) : UInt8 := UInt8.ofNat (0x80 + n % 64)

theorem toNat_ofNat_of_lt {n : Nat} (h : n < 256) : (UInt8.ofNat n).toNat = n := by
  simp only [UInt8.toNat_ofNat']
  omega

theorem toNat_trail (n : Nat) : (trail n).toNat = 0x80 + n % 64 := toNat_ofNat_of_lt (by omega)

/-- The octet of the lowest six bits. -/
theorem trail_zero (n : Nat) : UInt8.ofNat (0x80 + n / Nat.pow 64 0 % 64) = trail n := by
  rw [trail, show n / Nat.pow 64 0 = n from Nat.div_one n]

/-- A later octet is read if it is in the range for it. -/
theorem later_trail {more acc low high n : Nat} {rest : List UInt8} (hlow : low ≤ 0x80 + n % 64)
    (hhigh : 0x80 + n % 64 ≤ high) {r : Nat × List UInt8} (h : later more (acc * 64 + n % 64) 0x80 0xBF rest = .ok r) :
    later (more + 1) acc low high (trail n :: rest) = .ok r := by
  have hn : 0x80 + n % 64 - 0x80 = n % 64 := by omega
  simp only [later, toNat_trail, hlow, hhigh, decide_true, Bool.and_self, if_true, hn, h]

/-- The last of the later octets has no range of its own. -/
theorem later_last {acc n : Nat} (rest : List UInt8) :
    later 1 acc 0x80 0xBF (trail n :: rest) = .ok (acc * 64 + n % 64, rest) :=
  later_trail (by omega) (by omega) rfl

/-! ## First octets -/

/-- The first octet of a character of two octets. -/
theorem lead?_two : ∀ q < 32, 2 ≤ q → lead? (0xC0 + q) = some ⟨1, q, 0x80, 0xBF⟩ := by decide

/-- The first octet of a character of three octets: those that are too low and the surrogates are left out by the range
of the second octet. -/
theorem lead?_three {n : Nat} (h : 0x800 ≤ n) (h' : n < 0x10000) (hs : n < 0xD800 ∨ 0xDFFF < n) :
    ∃ low high, lead? (0xE0 + n / 4096) = some ⟨2, n / 4096, low, high⟩ ∧ low ≤ 0x80 + n / 64 % 64 ∧
      0x80 + n / 64 % 64 ≤ high := by
  have hlead : ∀ q < 16, q ≠ 0 → q ≠ 13 → lead? (0xE0 + q) = some ⟨2, q, 0x80, 0xBF⟩ := by decide
  by_cases h₀ : n / 4096 = 0
  · exact ⟨0xA0, 0xBF, by rw [h₀]; rfl, by omega, by omega⟩
  by_cases h₁₃ : n / 4096 = 13
  · exact ⟨0x80, 0x9F, by rw [h₁₃]; rfl, by omega, by omega⟩
  exact ⟨0x80, 0xBF, hlead _ (by omega) h₀ h₁₃, by omega, by omega⟩

/-- The first octet of a character of four octets: those that are too low or too high are left out by the range of the
second octet. -/
theorem lead?_four {n : Nat} (h : 0x10000 ≤ n) (h' : n < 0x110000) :
    ∃ low high, lead? (0xF0 + n / 262144) = some ⟨3, n / 262144, low, high⟩ ∧ low ≤ 0x80 + n / 4096 % 64 ∧
      0x80 + n / 4096 % 64 ≤ high := by
  have hlead : ∀ q < 4, q ≠ 0 → lead? (0xF0 + q) = some ⟨3, q, 0x80, 0xBF⟩ := by decide
  by_cases h₀ : n / 262144 = 0
  · exact ⟨0x90, 0xBF, by rw [h₀]; rfl, by omega, by omega⟩
  by_cases h₄ : n / 262144 = 4
  · exact ⟨0x80, 0x8F, by rw [h₄]; rfl, by omega, by omega⟩
  exact ⟨0x80, 0xBF, hlead _ (by omega) h₀, by omega, by omega⟩

/-! ## Characters and texts -/

/-- A character is no surrogate and not too high. -/
theorem toNat_range (c : Char) : c.toNat < 0xD800 ∨ 0xDFFF < c.toNat ∧ c.toNat < 0x110000 := c.valid

/-- A longer character is read if its first octet tells of it and the later ones are read. -/
theorem next_of_later {position : Nat} {b n : Nat} {c : Char} {l : Lead} {octets rest : List UInt8} (hb : b < 256)
    (h80 : 0x80 ≤ b) (hlead : lead? b = some l) (hlater : later l.more l.bits l.low l.high octets = .ok (n, rest))
    (hc : Char.ofNat n = c) : next position (UInt8.ofNat b) octets = .ok (c, rest) := by
  have hnot : ¬b < 0x80 := by omega
  simp only [next, toNat_ofNat_of_lt hb, hnot, if_false, hlead, hlater, hc]

/-- A character is read back from its octets. -/
theorem next_octets (c : Char) (position : Nat) (rest : List UInt8) :
    ∃ b octets, encodeChar c = b :: octets ∧ next position b (octets ++ rest) = .ok (c, rest) := by
  have hrange := toNat_range c
  by_cases h₁ : c.toNat < 0x80
  · refine ⟨UInt8.ofNat c.toNat, [], by simp only [encodeChar, h₁, if_true], ?_⟩
    have hb : (UInt8.ofNat c.toNat).toNat = c.toNat := toNat_ofNat_of_lt (by omega)
    simp only [next, hb, h₁, if_true, Char.ofNat_toNat, List.nil_append]
  by_cases h₂ : c.toNat < 0x800
  · refine ⟨UInt8.ofNat (0xC0 + c.toNat / 64), [trail c.toNat], ?_, ?_⟩
    · simp only [encodeChar, h₁, h₂, if_true, if_false, trail_zero]
    · refine next_of_later (by omega) (by omega) (lead?_two _ (by omega) (by omega)) (later_last rest) ?_
      rw [show c.toNat / 64 * 64 + c.toNat % 64 = c.toNat by omega, Char.ofNat_toNat]
  by_cases h₃ : c.toNat < 0x10000
  · refine ⟨UInt8.ofNat (0xE0 + c.toNat / 4096), [trail (c.toNat / 64), trail c.toNat], ?_, ?_⟩
    · simp only [encodeChar, h₁, h₂, h₃, if_true, if_false, trail_zero]
      rfl
    · obtain ⟨low, high, hlead, hlow, hhigh⟩ := lead?_three (n := c.toNat) (by omega) h₃ (by omega)
      refine next_of_later (by omega) (by omega) hlead (later_trail hlow hhigh (later_last rest)) ?_
      rw [show (c.toNat / 4096 * 64 + c.toNat / 64 % 64) * 64 + c.toNat % 64 = c.toNat by omega, Char.ofNat_toNat]
  · refine ⟨UInt8.ofNat (0xF0 + c.toNat / 262144), [trail (c.toNat / 4096), trail (c.toNat / 64), trail c.toNat],
      ?_, ?_⟩
    · simp only [encodeChar, h₁, h₂, h₃, if_false, trail_zero]
      rfl
    · obtain ⟨low, high, hlead, hlow, hhigh⟩ := lead?_four (n := c.toNat) (by omega) (by omega)
      have hmiddle : 0x80 ≤ 0x80 + c.toNat / 64 % 64 ∧ 0x80 + c.toNat / 64 % 64 ≤ 0xBF := by omega
      refine next_of_later (by omega) (by omega) hlead
        (later_trail hlow hhigh (later_trail hmiddle.1 hmiddle.2 (later_last rest))) ?_
      rw [show ((c.toNat / 262144 * 64 + c.toNat / 4096 % 64) * 64 + c.toNat / 64 % 64) * 64 + c.toNat % 64 =
        c.toNat by omega, Char.ofNat_toNat]

/-- Reading at most so many characters reads back a text that has no more. -/
theorem decodeFrom_encode : ∀ (s : List Char) (fuel position : Nat) (acc : List Char), s.length ≤ fuel →
    decodeFrom fuel position (encode s) acc = .ok (acc.reverse ++ s)
  | [], fuel, position, acc, _ => by simp [encode, decodeFrom]
  | c :: s, fuel, position, acc, h => by
    obtain ⟨b, octets, hc, hnext⟩ := next_octets c position (encode s)
    have hencode : encode (c :: s) = b :: (octets ++ encode s) := by
      simp only [encode, List.flatMap_cons, hc, List.cons_append]
    cases fuel with
    | zero => simp at h
    | succ fuel =>
      rw [hencode, decodeFrom, hnext]
      dsimp only
      rw [decodeFrom_encode s fuel _ _ (by simpa using h)]
      simp

/-- A text has no more characters than octets. -/
theorem length_le_length_encode : ∀ s : List Char, s.length ≤ (encode s).length
  | [] => Nat.le_refl _
  | c :: s => by
    obtain ⟨b, octets, hc, -⟩ := next_octets c 0 []
    have := length_le_length_encode s
    simp only [encode, List.flatMap_cons, hc, List.length_append, List.length_cons] at this ⊢
    omega

/-- **The octets of a text are read as that text.** -/
theorem decode_encode (s : List Char) : decode (encode s) = .ok s :=
  decodeFrom_encode s _ 0 [] (length_le_length_encode s)

theorem decode?_encode (s : List Char) : decode? (encode s) = some s := by
  rw [decode?, decode_encode]
  rfl

end CommitStatus.Text.Utf8
