import CommitStatus.Build.Reader
import CommitStatus.Proofs.Checked
import CommitStatus.Proofs.Json.Lines
import CommitStatus.Proofs.Text.Utf8

/-!
# What reading an event comes to

A check of a document is put together from checks of its members, so what is valid comes from members that are valid
(`Json.Check.object_eq_valid_iff`, `Json.Check.required_eq_valid_iff`). An event that is read is of the kind that was
asked for (`Event.kind_of_read`), and its text is read as its octets are, whatever its ends of lines are
(`Event.readText_unixLines`).
-/

namespace CommitStatus

open Checked

/-- A value that is valid in an object comes from the object's members. -/
theorem Json.Check.object_eq_valid_iff {α : Type} {check : Json.Members → Checked α} {v : Json.Value} {a : α} :
    Json.Check.object check v = .valid a ↔ ∃ members, v = .object members ∧ check members = .valid a := by
  cases v <;> simp [Json.Check.object, Checked.fault]

section Parts

variable {α : Type} {name : String} {check : Json.Value → Checked α} {members : Json.Members} {a : α}

/-- A member that must be there is valid if it is there and its value is. -/
theorem Json.Check.required_eq_valid_iff :
    required name check members = .valid a ↔ ∃ v, Json.member? name members = some v ∧ check v = .valid a := by
  unfold required
  rw [under_eq_valid_iff]
  cases Json.member? name members <;> simp [Checked.fault]

/-- A member that may be missing gives a value if it is there, is not null and its value is valid. -/
theorem Json.Check.optional_eq_valid_some_iff :
    optional name check members = .valid (some a) ↔
      ∃ v, Json.member? name members = some v ∧ v ≠ .null ∧ check v = .valid a := by
  unfold optional
  split
  · simp_all
  · simp_all
  · rename_i v hnull hv
    simp [under_eq_valid_iff, map_eq_valid_iff, hv, show v ≠ .null from hnull]

/-- A member that may be missing gives nothing if it is missing or null. -/
theorem Json.Check.optional_eq_valid_none_iff :
    optional name check members = .valid none ↔
      Json.member? name members = none ∨ Json.member? name members = some .null := by
  unfold optional
  split
  · simp_all
  · simp_all
  · rename_i v hnull hv
    simp [under_eq_valid_iff, map_eq_valid_iff, hv, show v ≠ .null from hnull]

end Parts

/-- A value that is valid in octets comes from the text that they hold. -/
theorem Json.checkOctets_eq_valid_iff {α : Type} {check : Json.Value → Checked α} {octets : List UInt8} {a : α} :
    Json.checkOctets check octets = .valid a ↔
      ∃ s v, Text.Utf8.decode? octets = some s ∧ Json.read? maxDepth s = some v ∧ check v = .valid a := by
  unfold Json.checkOctets Json.checkChars
  cases Text.Utf8.decode? octets with
  | none => simp [Checked.fault]
  | some s => cases hv : Json.read? maxDepth s <;> simp [Checked.fault, hv]

namespace Event

/-- An event that is valid is of the kind that was checked for. -/
theorem kind_of_check {kind : EventKind} {v : Json.Value} {event : Event} (h : check kind v = .valid event) :
    event.kind = kind := by
  cases kind with
  | checkout =>
    obtain ⟨members, -, h⟩ := Json.Check.object_eq_valid_iff.1 h
    obtain ⟨f, workspace, hf, -, rfl⟩ := ap_eq_valid_iff.1 h
    obtain ⟨build, -, rfl⟩ := map_eq_valid_iff.1 hf
    rfl
  | completed =>
    obtain ⟨members, -, h⟩ := Json.Check.object_eq_valid_iff.1 h
    obtain ⟨build, -, rfl⟩ := map_eq_valid_iff.1 h
    rfl

/-- An event that is read is of the kind that was asked for. -/
theorem kind_of_read {kind : EventKind} {octets : List UInt8} {event : Event} (h : read kind octets = .ok event) :
    event.kind = kind := by
  obtain ⟨_, v, -, -, hvalid⟩ := Json.checkOctets_eq_valid_iff.1 (titled_eq_ok_iff.1 h)
  exact kind_of_check hvalid

theorem kind_of_readText {kind : EventKind} {s : List Char} {event : Event} (h : readText kind s = .ok event) :
    event.kind = kind := by
  have hvalid := titled_eq_ok_iff.1 h
  unfold Json.checkChars at hvalid
  split at hvalid
  · cases hvalid
  · exact kind_of_check hvalid

/-- An event is read from a text with line feeds as from the octets of the text. -/
theorem readText_unixLines (kind : EventKind) (s : List Char) :
    readText kind (Text.unixLines s) = read kind (Text.Utf8.encode s) := by
  simp only [readText, read, Json.checkOctets, Json.checkChars, Text.Utf8.decode?_encode, Json.read?_unixLines]

end Event

end CommitStatus
