import CommitStatus.Proofs.Decimal.Integer
import CommitStatus.Proofs.Json.Reading

/-!
# How long the integers of a document are

The reader refuses integers that are too long, so whatever it gives can be written so that it is read again: each
integer of a document that is read is no longer than what is read (`measured_of_read?`).
-/

namespace CommitStatus.Json

open CommitStatus.Decimal (Integer.text Integer.maxDigits)

/-- A value whose integers are no longer than what is read. -/
inductive Value.Measured : Value → Prop
  | null : Measured .null
  | bool (b : Bool) : Measured (.bool b)
  | int {n : Int} (h : (Integer.text n).length ≤ Integer.maxDigits) : Measured (.int n)
  | float (x : Decimal.Binary64) : Measured (.float x)
  | string (s : String) : Measured (.string s)
  | array {items : List Value} (h : ∀ v ∈ items, Measured v) : Measured (.array items)
  | object {members : Members} (h : ∀ m ∈ members, Measured m.2) : Measured (.object members)

/-- The value of a name is one of the members' values. -/
theorem mem_of_member? {name : String} {members : Members} {v : Value} (h : member? name members = some v) :
    (name, v) ∈ members := by
  induction members with
  | nil => cases h
  | cons m rest ih =>
    obtain ⟨key, value⟩ := m
    simp only [member?] at h
    split at h
    · rename_i found hfound
      cases h
      exact List.mem_cons_of_mem _ (ih hfound)
    · split at h
      · rename_i hkey
        cases h
        rw [hkey]
        exact List.mem_cons_self
      · cases h

theorem Value.Measured.member? {members : Members} {name : String} {v : Value} (h : (Value.object members).Measured)
    (hv : Json.member? name members = some v) : v.Measured := by
  cases h with
  | object h => exact h _ (mem_of_member? hv)

/-! ## The parts of the reader -/

/-- A part of the reader gives only values whose integers are no longer than what is read. -/
def GivesMeasured (f : List Char → Option (Value × List Char)) : Prop := ∀ s v rest, f s = some (v, rest) → v.Measured

theorem measured_numberOf {negative : Bool} {digits : List Char} (h : isRefused negative digits = false)
    (hdigits : digits.all Char.isDigit = true) (fraction : List Char) (exponent : Option Int) :
    (numberOf negative digits fraction exponent).Measured := by
  unfold numberOf
  dsimp only
  split
  · rename_i hint
    simp only [Bool.and_eq_true, List.isEmpty_iff] at hint
    rw [hint.1, List.append_nil]
    simp only [isRefused, Bool.or_eq_false_iff, List.isEmpty_eq_false_iff, decide_eq_false_iff_not, Nat.not_lt] at h
    exact .int (Nat.le_trans (Decimal.Integer.length_text_le negative h.1.1 hdigits) h.2)
  · exact .float _

theorem givesMeasured_magnitude? (negative : Bool) : GivesMeasured (magnitude? negative) := by
  intro s v rest h
  rw [magnitude?_eq] at h
  split at h
  · cases h
  · rename_i hrefused
    simp only [Option.bind_eq_some_iff] at h
    obtain ⟨f, -, e, -, h⟩ := h
    cases h
    exact measured_numberOf (Bool.not_eq_true _ ▸ hrefused) (List.all_takeWhile) _ _

theorem givesMeasured_number? : GivesMeasured number? := by
  intro s v rest h
  unfold number? at h
  split at h
  · split at h
    · cases h
      exact .float _
    · exact givesMeasured_magnitude? true _ _ _ h
  · exact givesMeasured_magnitude? false _ _ _ h

theorem givesMeasured_atom? : GivesMeasured atom? := by
  intro s v rest h
  unfold atom? at h
  split at h
  case h_7 => exact givesMeasured_number? _ _ _ h
  all_goals
    obtain ⟨_, -, h⟩ := Option.map_eq_some_iff.1 h
    cases h
    constructor

section Steps

variable {fuel depth : Nat}

theorem givesMeasured_afterBracket (h : GivesMeasured (items? fuel (depth - 1) [])) :
    GivesMeasured (afterBracket fuel depth) := by
  intro s v rest hs
  unfold afterBracket at hs
  split at hs
  · cases hs
    exact .array (by simp)
  · split at hs
    · cases hs
    · exact h _ _ _ hs

theorem givesMeasured_afterBrace (h : GivesMeasured (members? fuel (depth - 1) [])) :
    GivesMeasured (afterBrace fuel depth) := by
  intro s v rest hs
  unfold afterBrace at hs
  split at hs
  · cases hs
    exact .object (by simp)
  · split at hs
    · cases hs
    · exact h _ _ _ hs

theorem givesMeasured_afterItem {acc : List Value} (hacc : ∀ v ∈ acc, v.Measured)
    (h : GivesMeasured (items? fuel depth acc)) : GivesMeasured (afterItem fuel depth acc) := by
  intro s v rest hs
  unfold afterItem at hs
  split at hs
  · exact h _ _ _ hs
  · cases hs
    exact .array (by simpa using hacc)
  · cases hs

theorem givesMeasured_afterMember {acc : Members} (hacc : ∀ m ∈ acc, m.2.Measured)
    (h : GivesMeasured (members? fuel depth acc)) : GivesMeasured (afterMember fuel depth acc) := by
  intro s v rest hs
  unfold afterMember at hs
  split at hs
  · exact h _ _ _ hs
  · cases hs
    exact .object fun m hm => hacc m (List.mem_reverse.1 hm)
  · cases hs

/-- Whatever the fuel, every value that is read is measured; so are arrays and objects whose parts so far are. -/
theorem givesMeasured_value? : ∀ fuel, (∀ depth, GivesMeasured (value? fuel depth)) ∧
    (∀ depth acc, (∀ v ∈ acc, v.Measured) → GivesMeasured (items? fuel depth acc)) ∧
    ∀ depth acc, (∀ m ∈ acc, m.2.Measured) → GivesMeasured (members? fuel depth acc)
  | 0 => by simp [GivesMeasured, value?, items?, members?]
  | fuel + 1 => by
    obtain ⟨hvalue, hitems, hmembers⟩ := givesMeasured_value? fuel
    refine ⟨fun depth s v rest h => ?_, fun depth acc hacc s v rest h => ?_, fun depth acc hacc s v rest h => ?_⟩
    · rw [value?_succ] at h
      split at h
      · exact givesMeasured_afterBracket (hitems _ [] (by simp)) _ _ _ h
      · exact givesMeasured_afterBrace (hmembers _ [] (by simp)) _ _ _ h
      · exact givesMeasured_atom? _ _ _ h
    · rw [items?_succ] at h
      obtain ⟨⟨item, r⟩, hitem, h⟩ := Option.bind_eq_some_iff.1 h
      have hacc' : ∀ v ∈ item :: acc, v.Measured := List.forall_mem_cons.2 ⟨hvalue _ _ _ _ hitem, hacc⟩
      exact givesMeasured_afterItem hacc' (hitems _ _ hacc') _ _ _ h
    · rw [members?_succ] at h
      split at h
      · obtain ⟨⟨key, r⟩, -, h⟩ := Option.bind_eq_some_iff.1 h
        unfold afterKey at h
        split at h
        · obtain ⟨⟨value, r'⟩, hmember, h⟩ := Option.bind_eq_some_iff.1 h
          have hacc' : ∀ m ∈ (key, value) :: acc, m.2.Measured :=
            List.forall_mem_cons.2 ⟨hvalue _ _ _ _ hmember, hacc⟩
          exact givesMeasured_afterMember hacc' (hmembers _ _ hacc') _ _ _ h
        · cases h
      · cases h

end Steps

/-- **The integers of a document that is read are no longer than what is read.** -/
theorem measured_of_read? {depth : Nat} {s : List Char} {v : Value} (h : read? depth s = some v) : v.Measured := by
  unfold read? at h
  split at h
  · rename_i v' rest hvalue
    split at h
    · cases h
      exact (givesMeasured_value? _).1 _ _ _ _ hvalue
    · cases h
  · cases h

end CommitStatus.Json
