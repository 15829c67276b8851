import CommitStatus.Proofs.Text.Utf8
import CommitStatus.Proofs.Yaml.Origins
import CommitStatus.Source.File

/-!
# What is said of a sources file

A file whose octets are a text has sources, or is reported as invalid together with its text, unless the text is
misread at one of its tokens or scalars; then the failure of that place is all that is said
(`load_reported_or_misread`).
-/

namespace CommitStatus

/-- The text that an error comes with. -/
def SourcesError.rawConfig? : SourcesError → Option String
  | .notYaml raw => some raw
  | .refused raw _ => some raw
  | _ => none

namespace SourcesFile

/-- A text has sources, or it is reported as invalid and comes with the report. -/
def Reported (raw : List Char) : Except SourcesError (List Source) → Prop
  | .ok _ => True
  | .error e => e.isInvalidConfig = true ∧ e.rawConfig? = some (String.ofList raw)

instance (raw : List Char) (r : Except SourcesError (List Source)) : Decidable (Reported raw r) :=
  match r with
  | .ok _ => inferInstanceAs (Decidable True)
  | .error e => inferInstanceAs (Decidable (e.isInvalidConfig = true ∧ e.rawConfig? = some (String.ofList raw)))

/-- A text is unreadable if it gives no data and yet breaks no rule. -/
theorem ofText_eq_unreadable_iff {raw : List Char} {e : Yaml.Failure} :
    ofText raw = .error (.unreadable e) ↔ Yaml.read depth raw = .error e ∧ e ≠ .malformed := by
  unfold ofText
  cases hread : Yaml.read depth raw with
  | error e' => cases e' <;> grind
  | ok v => cases hv : ofDatum v <;> simp [hv]

/-- A text that is not unreadable has sources or is reported as invalid. -/
theorem reported_ofText_iff {raw : List Char} :
    Reported raw (ofText raw) ↔ ∀ e, ofText raw ≠ .error (.unreadable e) := by
  unfold ofText
  split
  · exact ⟨fun _ => nofun, fun _ => ⟨rfl, rfl⟩⟩
  · exact ⟨fun h => (nomatch h.1), fun h => absurd rfl (h _)⟩
  · split
    · exact ⟨fun _ => nofun, fun _ => trivial⟩
    · exact ⟨fun _ => nofun, fun _ => ⟨rfl, rfl⟩⟩

/-- **A file is reported unless it is misread.** Where the octets of a file are a text, the file has sources or is
reported as invalid with the text, except when it is unreadable. It is that only where the text is misread: at a token
with an escape or a version that stands for nothing, or at a scalar that stands for no truth value, number, date or
moment although its tag says so. So a text that is misread nowhere is reported.

The limits of a reader are left out. Data may nest without end here, where a reader that recurses gives up at some 500
levels. And a control character counts wherever it stands, where a reader that takes a text in blocks of 8192 characters
may first come to an escape or a version number that stands for nothing, more than a block in front of it. -/
theorem load_reported_or_misread {octets : List UInt8} {s : List Char} (hs : Text.Utf8.decode octets = .ok s) :
    (Reported (Text.unixLines s) (load (some octets)) ↔ ∀ e, load (some octets) ≠ .error (.unreadable e)) ∧
      (∀ e, load (some octets) = .error (.unreadable e) → e ≠ .malformed ∧ Yaml.Misread (Text.unixLines s) e) ∧
      ((∀ e, ¬Yaml.Misread (Text.unixLines s) e) → Reported (Text.unixLines s) (load (some octets))) := by
  have hload : load (some octets) = ofText (Text.unixLines s) := by simp only [load, hs]
  have hmisread : ∀ e, ofText (Text.unixLines s) = .error (.unreadable e) →
      e ≠ .malformed ∧ Yaml.Misread (Text.unixLines s) e := by
    intro e he
    obtain ⟨hread, hne⟩ := ofText_eq_unreadable_iff.1 he
    exact ⟨hne, (Yaml.read_fails depth _ e hread).resolve_left hne⟩
  rw [hload]
  exact ⟨reported_ofText_iff, hmisread, fun hnone => reported_ofText_iff.2 fun e he => hnone e (hmisread e he).2⟩

/-- A file in which the repository is named like a day that there is not. -/
def noSuchDay : List Char :=
  "sources:\n- repo-owner: team\n  repository: 2021-02-30\n  jobs: [\"red/*\"]\n".toList

theorem load_reported_or_misread_noSuchDay :
    Text.Utf8.decode (Text.Utf8.encode noSuchDay) = .ok noSuchDay ∧
      ∃ e, load (some (Text.Utf8.encode noSuchDay)) = .error (.unreadable e) ∧ e ≠ .malformed ∧
        Yaml.Misread (Text.unixLines noSuchDay) e := by
  have hs : Text.Utf8.decode (Text.Utf8.encode noSuchDay) = .ok noSuchDay := Text.Utf8.decode_encode _
  obtain ⟨hreported, hmisread, -⟩ := load_reported_or_misread hs
  have hnot : ¬Reported (Text.unixLines noSuchDay) (load (some (Text.Utf8.encode noSuchDay))) := by decide +kernel
  rw [hreported] at hnot
  obtain ⟨e, he⟩ := Classical.not_forall.1 hnot
  have hload := Classical.not_not.1 he
  exact ⟨hs, e, hload, hmisread e hload⟩

/-- The file is not reported as invalid, although its octets are a text: what is said of it is that the day is out of
range. -/
theorem load_noSuchDay :
    Text.Utf8.decode (Text.Utf8.encode noSuchDay) = .ok noSuchDay ∧
      ¬Reported (Text.unixLines noSuchDay) (load (some (Text.Utf8.encode noSuchDay))) ∧
      (match load (some (Text.Utf8.encode noSuchDay)) with
        | .ok _ => none
        | .error e => some (e.name, e.summary)) = some ("ValueError", "day is out of range for month") :=
  ⟨Text.Utf8.decode_encode _, by decide +kernel, by decide +kernel⟩

end SourcesFile

end CommitStatus
