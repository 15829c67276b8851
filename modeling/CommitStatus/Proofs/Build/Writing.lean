import CommitStatus.Proofs.Build.Spelling
import CommitStatus.Proofs.Json.Writing

/-!
# Events that are written are read back

What is written of an event spells it (`Event.speltAs_toJson`) and fits what is read (`Event.fits_toJson`), if the event
is one that can be read at all: its number is no longer than what is read, and no pull request wraps another
(`Build.Readable`). Every event that was read is such (`Event.readable_of_read`), so it is read back from what is
written of it, however its own document spelled it (`Event.read_octets`).
-/

namespace CommitStatus

open Json (Value Members Member MemberOrNull IsText)
open Checked

/-- A revision without a pull request inside another. -/
def Revision.IsFlat : Revision → Prop
  | .pullRequest _ pull => pull.pullRequest? = none
  | _ => True

/-- A build that can be read: its number is no longer than what is read, and no pull request wraps another. -/
structure Build.Readable (b : Build) : Prop where
  number : (Decimal.Integer.text b.number).length ≤ Decimal.Integer.maxDigits
  revision : ∀ r, b.revision = some r → r.IsFlat

/-- The octets that are written of an event. -/
def Event.octets (event : Event) : List UInt8 := Text.Utf8.encode event.toJson.chars

/-! ## What was read can be read -/

section Reading

variable {v : Value}

/-- What is spelled within a pull request is no pull request. -/
theorem Revision.isFlat_of_speltAs {r : Revision} (h : r.SpeltAs v) : r.IsFlat := by
  cases h with
  | commit => trivial
  | untracked => trivial
  | pullRequest _ _ hpull =>
    obtain ⟨_, -, hpull⟩ := hpull
    cases hpull <;> rfl

theorem Build.readable_of_check {b : Build} (hv : v.Measured) (h : check v = .valid b) : b.Readable := by
  obtain ⟨m, rfl, hparts⟩ := Json.Check.object_eq_valid_iff.1 h
  simp only [ap_eq_valid_iff, map_eq_valid_iff] at hparts
  -- of the seven members the first, the number, is innermost, and the last, the revision, outermost
  obtain ⟨_, revision, ⟨_, _, ⟨_, _, ⟨_, _, ⟨_, _, ⟨_, _, ⟨number, hnumber, rfl⟩, -, rfl⟩, -, rfl⟩, -, rfl⟩, -, rfl⟩, -,
    rfl⟩, hrevision, rfl⟩ := hparts
  obtain ⟨w, hw, hnumber⟩ := Json.Check.required_eq_valid_iff.1 hnumber
  refine ⟨Number.length_text_of_check (hv.member? hw) hnumber, ?_⟩
  rintro r rfl
  obtain ⟨x, -, -, hx⟩ := Json.Check.optional_eq_valid_some_iff.1 hrevision
  exact Revision.isFlat_of_speltAs (Revision.check_eq_valid_iff.1 hx)

theorem Event.readable_of_check {kind : EventKind} {event : Event} (hv : v.Measured)
    (h : check kind v = .valid event) : event.build.Readable := by
  cases kind with
  | checkout =>
    obtain ⟨m, rfl, h⟩ := Json.Check.object_eq_valid_iff.1 h
    obtain ⟨f, workspace, hf, -, rfl⟩ := ap_eq_valid_iff.1 h
    obtain ⟨build, hbuild, rfl⟩ := map_eq_valid_iff.1 hf
    obtain ⟨w, hw, hbuild⟩ := Json.Check.required_eq_valid_iff.1 hbuild
    exact Build.readable_of_check (hv.member? hw) hbuild
  | completed =>
    obtain ⟨m, rfl, h⟩ := Json.Check.object_eq_valid_iff.1 h
    obtain ⟨build, hbuild, rfl⟩ := map_eq_valid_iff.1 h
    obtain ⟨w, hw, hbuild⟩ := Json.Check.required_eq_valid_iff.1 hbuild
    exact Build.readable_of_check (hv.member? hw) hbuild

theorem Event.readable_of_read {kind : EventKind} {octets : List UInt8} {event : Event}
    (h : read kind octets = .ok event) : event.build.Readable := by
  obtain ⟨_, v, -, hv, hvalid⟩ := Json.checkOctets_eq_valid_iff.1 (titled_eq_ok_iff.1 h)
  exact readable_of_check (Json.measured_of_read? hv) hvalid

end Reading

/-! ## What is written spells the event -/

section Spelling

variable {m : Members} {name : String}

theorem memberOrNull_textOrNull {s : Option String} (h : Json.member? name m = some (textOrNull s)) :
    MemberOrNull name IsText m s := by
  cases s with
  | none => exact .inr h
  | some s => exact ⟨_, h, rfl⟩

theorem BranchHead.speltAs_toJson (h : BranchHead) : h.SpeltAs h.toJson := .object ⟨_, rfl, rfl⟩

theorem PullRequestHead.speltAs_toJson (h : PullRequestHead) : h.SpeltAs h.toJson :=
  .object ⟨_, rfl, rfl⟩ ⟨_, rfl, rfl⟩ ⟨_, rfl, rfl⟩ ⟨_, rfl, rfl⟩ ⟨_, rfl, rfl⟩ (memberOrNull_textOrNull rfl)

theorem Revision.speltWithin_toJson {r : Revision} (h : r.pullRequest? = none) : r.SpeltWithin r.toJson := by
  cases r with
  | commit head hash =>
    exact .commit (kindOrNone_of_member ⟨_, rfl, rfl⟩) ⟨_, rfl, head.speltAs_toJson⟩ ⟨_, rfl, rfl⟩
  | untracked head =>
    exact .untracked (kindOrNone_of_member ⟨_, rfl, rfl⟩) ⟨_, rfl, head.speltAs_toJson⟩ nofun
  | pullRequest => cases h

theorem Revision.speltAs_toJson {r : Revision} (h : r.IsFlat) : r.SpeltAs r.toJson := by
  cases r with
  | commit head hash => exact .commit ⟨_, rfl, rfl⟩ ⟨_, rfl, head.speltAs_toJson⟩ ⟨_, rfl, rfl⟩
  | untracked head => exact .untracked ⟨_, rfl, rfl⟩ ⟨_, rfl, head.speltAs_toJson⟩
  | pullRequest head pull =>
    exact .pullRequest ⟨_, rfl, rfl⟩ ⟨_, rfl, head.speltAs_toJson⟩ ⟨_, rfl, speltWithin_toJson h⟩

theorem Job.speltAs_toJson (j : Job) : j.SpeltAs j.toJson :=
  .object ⟨_, rfl, rfl⟩ ⟨_, rfl, rfl⟩ ⟨_, rfl, .object ⟨_, rfl, rfl⟩⟩

theorem memberOrNull_result {r : Option Result} (h : Json.member? name m = some (textOrNull (r.map Result.word))) :
    MemberOrNull name (fun r => IsText r.word) m r := by
  cases r with
  | none => exact .inr h
  | some r => exact ⟨_, h, rfl⟩

theorem memberOrNull_revision {r : Option Revision} (hr : ∀ r', r = some r' → r'.IsFlat)
    (h : Json.member? name m = some ((r.map Revision.toJson).getD .null)) :
    MemberOrNull name Revision.SpeltAs m r := by
  cases r with
  | none => exact .inr h
  | some r => exact ⟨_, h, r.speltAs_toJson (hr r rfl)⟩

theorem Build.speltAs_toJson {b : Build} (h : b.Readable) : b.SpeltAs b.toJson :=
  .object ⟨_, rfl, .int _⟩ ⟨_, rfl, rfl⟩ (memberOrNull_textOrNull rfl) (memberOrNull_result rfl)
    ⟨_, rfl, b.job.speltAs_toJson⟩ (memberOrNull_textOrNull rfl) (memberOrNull_revision h.revision rfl)

/-- What is written of an event spells it. -/
theorem Event.speltAs_toJson {event : Event} (h : event.build.Readable) : event.SpeltAs event.toJson := by
  cases event with
  | checkout build workspace => exact .checkout ⟨_, rfl, build.speltAs_toJson h⟩ (memberOrNull_textOrNull rfl)
  | completed build => exact .completed ⟨_, rfl, build.speltAs_toJson h⟩

end Spelling

/-! ## What is written fits -/

section Fitting

variable (depth : Nat)

theorem fits_textOrNull (s : Option String) : (textOrNull s).Fits depth := by
  cases s with
  | none => exact .null
  | some s => exact .string s

theorem BranchHead.fits_toJson (h : BranchHead) : h.toJson.Fits (depth + 1) :=
  .object (by simp [Value.Fits.string])

theorem PullRequestHead.fits_toJson (h : PullRequestHead) : h.toJson.Fits (depth + 1) :=
  .object (by simp [Value.Fits.string, fits_textOrNull])

theorem Revision.fits_toJson {r : Revision} (h : r.IsFlat) : r.toJson.Fits (depth + 3) := by
  cases r with
  | commit head hash => exact .object (by simp [Value.Fits.string, head.fits_toJson])
  | untracked head => exact .object (by simp [Value.Fits.string, head.fits_toJson])
  | pullRequest head pull =>
    have hpull : pull.toJson.Fits (depth + 2) := by
      cases pull with
      | commit head hash => exact .object (by simp [Value.Fits.string, head.fits_toJson])
      | untracked head => exact .object (by simp [Value.Fits.string, head.fits_toJson])
      | pullRequest => cases h
    exact .object (by simp [Value.Fits.string, head.fits_toJson, hpull])

theorem Job.fits_toJson (j : Job) : j.toJson.Fits (depth + 2) :=
  .object (by simpa [Value.Fits.string] using Value.Fits.object (by simp [Value.Fits.string]))

theorem Build.fits_toJson {b : Build} (h : b.Readable) : b.toJson.Fits (depth + 4) := by
  have hrevision : ((b.revision.map Revision.toJson).getD .null).Fits (depth + 3) := by
    cases hr : b.revision with
    | none => exact .null
    | some r => exact r.fits_toJson depth (h.revision r hr)
  exact .object (by simp [Value.Fits.string, Value.Fits.int h.number, fits_textOrNull, b.job.fits_toJson, hrevision])

/-- What is written of an event has no more in it than what is read. -/
theorem Event.fits_toJson {event : Event} (h : event.build.Readable) : event.toJson.Fits maxDepth := by
  cases event with
  | checkout build workspace =>
    exact @Value.Fits.object 199 _ (by simp [build.fits_toJson 195 h, fits_textOrNull])
  | completed build => exact @Value.Fits.object 199 _ (by simp [build.fits_toJson 195 h])

end Fitting

/-! ## There and back -/

/-- A document that spells an event is read as the event, in whatever text it is written. -/
theorem Event.read_of_speltAs {event : Event} {octets : List UInt8} {s : List Char} {v : Value}
    (hs : Text.Utf8.decode? octets = some s) (hv : Json.read? maxDepth s = some v) (h : event.SpeltAs v) :
    read event.kind octets = .ok event :=
  titled_eq_ok_iff.2 (Json.checkOctets_eq_valid_iff.2 ⟨s, v, hs, hv, check_of_speltAs h⟩)

/-- **Events survive being written and read.** An event that was read, however its document spelled it, is read back
from what is written of it: from the document, from its text, and from the octets of the text. What is written stays
the same when it is read and written again. Each document that spells the event comes to the same, in whatever text it
is; what is written of the event is one of these documents. -/
theorem Event.read_octets {kind : EventKind} {octets : List UInt8} {event : Event} (h : read kind octets = .ok event) :
    event.SpeltAs event.toJson ∧
      check kind event.toJson = .valid event ∧
      readText kind event.toJson.chars = .ok event ∧
      read kind event.octets = .ok event ∧
      (read kind event.octets).map Event.octets = .ok event.octets ∧
      ∀ spelling s v, Text.Utf8.decode? spelling = some s → Json.read? maxDepth s = some v → event.SpeltAs v →
        (read kind spelling).map Event.octets = .ok event.octets := by
  have hreadable := readable_of_read h
  obtain rfl := kind_of_read h
  have hcheck := check_of_speltAs (speltAs_toJson hreadable)
  have htext : Json.read? maxDepth event.toJson.chars = some event.toJson := Json.read?_chars (fits_toJson hreadable)
  have hread : read event.kind event.octets = .ok event :=
    read_of_speltAs (Text.Utf8.decode?_encode _) htext (speltAs_toJson hreadable)
  refine ⟨speltAs_toJson hreadable, hcheck, ?_, hread, ?_, fun spelling s v hs hv hspelt => ?_⟩
  · rw [readText, Json.checkChars, htext]
    exact titled_eq_ok_iff.2 hcheck
  · rw [hread]
    rfl
  · rw [read_of_speltAs hs hv hspelt]
    rfl

/-- A document with its members in another order and one that is not asked for; the number is a text with zeros in
front, and the revision within the pull request does not tell its kind. -/
def laxDocument : Value :=
  .object [("note", .array [.null]), ("build", .object [
    ("revision", .object [
      ("pull", .object [("hash", .string "c0ffee"), ("head", .object [("name", .string "red")])]),
      ("head", .object [("repository", .string "shared"), ("repo_owner", .string "team"),
        ("origin_name", .string "red"), ("name", .string "PR-7"), ("id", .string "7")]),
      ("kind", .string "pull-request")]),
    ("job", .object [("parent", .object [("full_name", .string "team")]), ("url", .string "job/team/job/PR-7/"),
      ("full_name", .string "team/PR-7")]),
    ("number", .string "007"), ("full_display_name", .string "team/PR-7 #7"), ("result", .string "SUCCESS")])]

/-- The event that `laxDocument` spells. -/
def laxEvent : Event :=
  .completed ⟨7, "team/PR-7 #7", none, some .success, ⟨"team/PR-7", "job/team/job/PR-7/", ⟨"team"⟩⟩, none,
    some (.pullRequest ⟨"7", "PR-7", "red", "team", "shared", none⟩ (.commit ⟨"red"⟩ "c0ffee"))⟩

theorem laxEvent_speltAs_laxDocument : laxEvent.SpeltAs laxDocument := by
  have hnumber : Build.Number.SpeltAs 7 (.string "007") :=
    @Build.Number.SpeltAs.digits ['0', '0', '7'] (by decide) (by simp) (by decide)
  have hpull : Revision.SpeltWithin (.commit ⟨"red"⟩ "c0ffee")
      (.object [("hash", .string "c0ffee"), ("head", .object [("name", .string "red")])]) :=
    .commit nofun ⟨_, rfl, .object ⟨_, rfl, rfl⟩⟩ ⟨_, rfl, rfl⟩
  have hhead : PullRequestHead.SpeltAs ⟨"7", "PR-7", "red", "team", "shared", none⟩
      (.object [("repository", .string "shared"), ("repo_owner", .string "team"), ("origin_name", .string "red"),
        ("name", .string "PR-7"), ("id", .string "7")]) :=
    .object ⟨_, rfl, rfl⟩ ⟨_, rfl, rfl⟩ ⟨_, rfl, rfl⟩ ⟨_, rfl, rfl⟩ ⟨_, rfl, rfl⟩ (.inl rfl)
  have hjob : Job.SpeltAs ⟨"team/PR-7", "job/team/job/PR-7/", ⟨"team"⟩⟩
      (.object [("parent", .object [("full_name", .string "team")]), ("url", .string "job/team/job/PR-7/"),
        ("full_name", .string "team/PR-7")]) :=
    .object ⟨_, rfl, rfl⟩ ⟨_, rfl, rfl⟩ ⟨_, rfl, .object ⟨_, rfl, rfl⟩⟩
  exact .completed ⟨_, rfl, .object ⟨_, rfl, hnumber⟩ ⟨_, rfl, rfl⟩ (.inl rfl) ⟨_, rfl, rfl⟩ ⟨_, rfl, hjob⟩ (.inl rfl)
    ⟨_, rfl, .pullRequest ⟨_, rfl, rfl⟩ ⟨_, rfl, hhead⟩ ⟨_, rfl, hpull⟩⟩⟩

theorem Event.read_octets_laxEvent :
    laxEvent.SpeltAs laxDocument ∧
      read .completed (Text.Utf8.encode laxDocument.chars) = .ok laxEvent ∧
      laxEvent.SpeltAs laxEvent.toJson ∧
      check .completed laxEvent.toJson = .valid laxEvent ∧
      readText .completed laxEvent.toJson.chars = .ok laxEvent ∧
      read .completed laxEvent.octets = .ok laxEvent ∧
      (read .completed laxEvent.octets).map Event.octets = .ok laxEvent.octets ∧
      ∀ spelling s v, Text.Utf8.decode? spelling = some s → Json.read? maxDepth s = some v → laxEvent.SpeltAs v →
        (read .completed spelling).map Event.octets = .ok laxEvent.octets := by
  have hread : read .completed (Text.Utf8.encode laxDocument.chars) = .ok laxEvent :=
    titled_eq_ok_iff.2 (by decide +kernel)
  exact ⟨laxEvent_speltAs_laxDocument, hread, read_octets hread⟩

end CommitStatus
