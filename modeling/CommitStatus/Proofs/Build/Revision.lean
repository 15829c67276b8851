import CommitStatus.Proofs.Build.Extension
import CommitStatus.Proofs.Build.Writing

/-!
# The revision of an event

One value of an event's document decides on the revision of the event: the revision of its build. If it is missing or
null, the event has none; else the event has the revision that it spells, and none is read from a document in which it
spells none (`Revision.GivenBy`). The rest of the event comes from the rest of the document
(`Event.check_eq_valid_iff`), so revisions are resolved exactly as they are tagged (`Event.revision_resolved`).
-/

namespace CommitStatus

open Json (Value Members MemberOrNull)
open Json.Check
open Checked

/-- What a value that may be missing gives as the revision of a build: nothing where it is missing or null, else what
it spells. -/
def Revision.GivenBy (given : Option Value) : Option Revision → Prop
  | none => given = none ∨ given = some .null
  | some r => ∃ v, given = some v ∧ r.SpeltAs v

/-- A revision taken out of one pull request. -/
def Revision.unwrapped : Revision → Revision
  | .pullRequest _ pull => pull
  | r => r

/-! ## Documents without a revision -/

namespace Json

/-- Members without those of a name. -/
def without (name : String) (m : Members) : Members := m.filter (·.1 ≠ name)

/-- Members with the values of a name changed. -/
def change (name : String) (f : Value → Value) (m : Members) : Members :=
  m.map fun member => if member.1 = name then (member.1, f member.2) else member

variable {name other : String} {f : Value → Value}

theorem member?_without_self : ∀ m : Members, member? name (without name m) = none
  | [] => rfl
  | (key, value) :: m => by
    by_cases h : key = name
    · rw [without, List.filter_cons_of_neg (by simpa using h)]
      exact member?_without_self m
    · rw [without, List.filter_cons_of_pos (by simpa using h), member?_cons_of_ne h]
      exact member?_without_self m

theorem member?_without_of_ne (hne : other ≠ name) : ∀ m : Members, member? other (without name m) = member? other m
  | [] => rfl
  | (key, value) :: m => by
    have ih := member?_without_of_ne hne m
    by_cases h : key = name
    · rw [without, List.filter_cons_of_neg (by simpa using h), member?_cons_of_ne (h ▸ hne.symm)]
      exact ih
    · rw [without, List.filter_cons_of_pos (by simpa using h), member?, member?, ← ih]
      rfl

theorem member?_change_self : ∀ m : Members, member? name (change name f m) = (member? name m).map f
  | [] => rfl
  | (key, value) :: m => by
    have ih := member?_change_self m
    rw [change, List.map_cons, ← change]
    by_cases h : key = name
    · simp only [h, if_true, member?, ih]
      cases member? name m <;> rfl
    · simp only [h, if_false]
      rw [member?_cons_of_ne h, member?_cons_of_ne h, ih]

theorem member?_change_of_ne (hne : other ≠ name) : ∀ m : Members, member? other (change name f m) = member? other m
  | [] => rfl
  | (key, value) :: m => by
    have ih := member?_change_of_ne hne m
    rw [change, List.map_cons, ← change]
    by_cases h : key = name
    · have hkey : key ≠ other := h ▸ hne.symm
      simp only [h, if_true]
      rw [← h, member?_cons_of_ne hkey, member?_cons_of_ne hkey, h, ih]
    · simp only [h, if_false, member?, ih]

end Json

/-- A build's document without its revision. -/
def Build.bare : Value → Value
  | .object m => .object (Json.without "revision" m)
  | v => v

/-- An event's document without the revision of its build. -/
def Event.bare : Value → Value
  | .object m => .object (Json.change "build" Build.bare m)
  | v => v

/-- A build that has no revision and is the same otherwise. -/
def Build.withoutRevision (b : Build) : Build := { b with revision := none }

/-- An event whose build has no revision and that is the same otherwise. -/
def Event.withoutRevision : Event → Event
  | .checkout build workspace => .checkout build.withoutRevision workspace
  | .completed build => .completed build.withoutRevision

/-! ## The revision and the rest -/

section Members

variable {α : Type} {name : String} {check : Value → Checked α} {m m' : Members}

theorem Json.Check.required_congr_member (h : Json.member? name m = Json.member? name m') :
    required name check m = required name check m' := by
  rw [required, required, h]

theorem Json.Check.optional_congr_member (h : Json.member? name m = Json.member? name m') :
    Json.Check.optional name check m = Json.Check.optional name check m' := by
  rw [Json.Check.optional, Json.Check.optional, h]

end Members

/-- The member for the revision is read as what it gives. -/
theorem Revision.optional_eq_valid_iff {m : Members} {r : Option Revision} :
    Json.Check.optional "revision" check m = .valid r ↔ GivenBy (Json.member? "revision" m) r := by
  have hgiven : GivenBy (Json.member? "revision" m) r ↔ MemberOrNull "revision" SpeltAs m r := by
    cases r <;> exact Iff.rfl
  rw [hgiven]
  exact ⟨fun h => memberOrNull_of_optional h check_eq_valid_iff.1,
    fun h => optional_of_memberOrNull h check_of_speltAs check_null⟩

namespace Build

/-- The members of a build but its revision. -/
def checkRest (m : Members) : Checked (Option Revision → Build) :=
  ((required "number" Number.check m).map Build.mk)
    |>.ap (required "full_display_name" text m)
    |>.ap (Json.Check.optional "description" text m)
    |>.ap (Json.Check.optional "result" Result.check m)
    |>.ap (required "job" Job.check m)
    |>.ap (Json.Check.optional "url" text m)

theorem check_object (m : Members) :
    check (.object m) = (checkRest m).ap (Json.Check.optional "revision" Revision.check m) := rfl

/-- The rest of a build does not depend on its revision. -/
theorem eq_of_checkRest {m : Members} {f : Option Revision → Build} (h : checkRest m = .valid f) (r : Option Revision) :
    f r = { f none with revision := r } := by
  simp only [checkRest, ap_eq_valid_iff, map_eq_valid_iff] at h
  obtain ⟨_, _, ⟨_, _, ⟨_, _, ⟨_, _, ⟨_, _, ⟨_, -, rfl⟩, -, rfl⟩, -, rfl⟩, -, rfl⟩, -, rfl⟩, -, rfl⟩ := h
  rfl

theorem checkRest_without (m : Members) : checkRest (Json.without "revision" m) = checkRest m := by
  have hmember (name : String) (h : name ≠ "revision") := Json.member?_without_of_ne h m
  unfold checkRest
  rw [required_congr_member (hmember "number" (by decide)),
    required_congr_member (hmember "full_display_name" (by decide)),
    optional_congr_member (hmember "description" (by decide)), optional_congr_member (hmember "result" (by decide)),
    required_congr_member (hmember "job" (by decide)), optional_congr_member (hmember "url" (by decide))]

theorem check_bare (m : Members) : check (bare (.object m)) = (checkRest m).ap (.valid none) := by
  have hnone : Json.Check.optional "revision" Revision.check (Json.without "revision" m) = .valid none :=
    optional_eq_valid_none_iff.2 (.inl (Json.member?_without_self m))
  rw [bare, check_object, checkRest_without, hnone]

/-- A build is read from a document exactly if its revision is given there and its rest is read from the rest. -/
theorem check_eq_valid_iff {v : Value} {b : Build} :
    check v = .valid b ↔
      Revision.GivenBy (v.at? ["revision"]) b.revision ∧ check (bare v) = .valid b.withoutRevision := by
  cases v with
  | object m =>
    have hat : Value.at? ["revision"] (.object m) = Json.member? "revision" m := by
      simp only [Value.at?]
      cases Json.member? "revision" m <;> rfl
    rw [hat, ← Revision.optional_eq_valid_iff, check_object, check_bare]
    constructor
    · intro h
      obtain ⟨f, r, hf, hr, rfl⟩ := ap_eq_valid_iff.1 h
      refine ⟨?_, ap_eq_valid_iff.2 ⟨f, none, hf, rfl, ?_⟩⟩
      · rw [hr, eq_of_checkRest hf r]
      · rw [eq_of_checkRest hf r]
        exact eq_of_checkRest hf none
    · rintro ⟨hr, h⟩
      obtain ⟨f, _, hf, ⟨⟩, hnone⟩ := ap_eq_valid_iff.1 h
      refine ap_eq_valid_iff.2 ⟨f, b.revision, hf, hr, ?_⟩
      rw [eq_of_checkRest hf, hnone]
      rfl
  | _ =>
    constructor
    · rintro ⟨⟩
    · rintro ⟨-, ⟨⟩⟩

end Build

namespace Event

/-- The member for the build is read with its revision and its rest. -/
theorem build_eq_valid_iff {m : Members} {b : Build} :
    required "build" Build.check m = .valid b ↔
      Revision.GivenBy (Value.at? revisionPlace (.object m)) b.revision ∧
        required "build" Build.check (Json.change "build" Build.bare m) = .valid b.withoutRevision := by
  simp only [required_eq_valid_iff, Json.member?_change_self, revisionPlace, Value.at?]
  cases Json.member? "build" m with
  | none => simp
  | some v => simpa using Build.check_eq_valid_iff

/-- **An event is read from a document exactly if its revision is given there and its rest is read from the rest.** -/
theorem check_eq_valid_iff {kind : EventKind} {doc : Value} {event : Event} :
    check kind doc = .valid event ↔
      Revision.GivenBy (doc.at? revisionPlace) event.build.revision ∧
        check kind (bare doc) = .valid event.withoutRevision := by
  cases doc with
  | object m =>
    have hworkspace : Json.Check.optional "workspace" text (Json.change "build" Build.bare m) =
        Json.Check.optional "workspace" text m :=
      optional_congr_member (Json.member?_change_of_ne (by decide) m)
    cases kind with
    | checkout =>
      simp only [check, bare, object, ap_eq_valid_iff, map_eq_valid_iff, hworkspace]
      constructor
      · rintro ⟨_, workspace, ⟨b, hb, rfl⟩, hw, rfl⟩
        obtain ⟨hgiven, hrest⟩ := build_eq_valid_iff.1 hb
        exact ⟨hgiven, _, workspace, ⟨_, hrest, rfl⟩, hw, rfl⟩
      · rintro ⟨hgiven, _, workspace, ⟨b, hb, rfl⟩, hw, heq⟩
        cases event with
        | completed => cases heq
        | checkout build _ =>
          cases heq
          exact ⟨_, workspace, ⟨build, build_eq_valid_iff.2 ⟨hgiven, hb⟩, rfl⟩, hw, rfl⟩
    | completed =>
      simp only [check, bare, object, map_eq_valid_iff]
      constructor
      · rintro ⟨b, hb, rfl⟩
        obtain ⟨hgiven, hrest⟩ := build_eq_valid_iff.1 hb
        exact ⟨hgiven, _, hrest, rfl⟩
      · rintro ⟨hgiven, b, hb, heq⟩
        cases event with
        | checkout => cases heq
        | completed build =>
          cases heq
          exact ⟨build, build_eq_valid_iff.2 ⟨hgiven, hb⟩, rfl⟩
  | _ =>
    constructor
    · cases kind <;> rintro ⟨⟩
    · cases kind <;> rintro ⟨-, ⟨⟩⟩

end Event

/-! ## Resolving revisions -/

/-- What a value gives has no commit exactly if it is a branch without one, taken out of one pull request. -/
theorem Revision.SpeltAs.hash?_eq_none_iff {r : Revision} {v : Value} (h : r.SpeltAs v) :
    r.hash? = none ↔ ∃ head, r.unwrapped = .untracked head := by
  cases h with
  | commit => simp [hash?, plainHash?, unwrapped]
  | untracked => simp [hash?, plainHash?, unwrapped]
  | pullRequest _ _ hpull =>
    obtain ⟨_, -, hpull⟩ := hpull
    cases hpull <;> simp [hash?, plainHash?, unwrapped]

theorem Revision.not_speltAs_null (r : Revision) : ¬r.SpeltAs .null := fun h => check_null r (check_of_speltAs h)

/-- A value does not give two revisions, nor one and none. -/
theorem Revision.GivenBy.unique {given : Option Value} : ∀ {r r' : Option Revision}, GivenBy given r →
    GivenBy given r' → r = r'
  | none, none, _, _ => rfl
  | none, some r, h, ⟨v, hv, hspelt⟩ => by
    rcases h with rfl | rfl
    · cases hv
    · cases hv
      exact absurd hspelt (not_speltAs_null r)
  | some r, none, ⟨v, hv, hspelt⟩, h => by
    rcases h with rfl | rfl
    · cases hv
    · cases hv
      exact absurd hspelt (not_speltAs_null r)
  | some r, some r', ⟨v, hv, hspelt⟩, ⟨v', hv', hspelt'⟩ => by
    cases hv.symm.trans hv'
    have hcheck : Checked.valid r = .valid r' := (check_of_speltAs hspelt).symm.trans (check_of_speltAs hspelt')
    cases hcheck
    rfl

namespace Event

/-- **Revisions are resolved exactly as they are tagged.** Take any document, and with it any value, or none, in the
place of its build's revision. An event is read from the document exactly if the value gives the event's revision and
the rest of the event is read from the rest of the document; no value gives two revisions; and where it gives none at
all, not even that there is none, the document is invalid. So the revision of an event that is read wraps no pull
request in another, and the event has no commit exactly if it has no revision or if its revision, taken out of one pull
request, is a branch without a commit. -/
theorem revision_resolved (kind : EventKind) (doc : Value) :
    (∀ event, check kind doc = .valid event ↔
      Revision.GivenBy (doc.at? revisionPlace) event.build.revision ∧
        check kind (bare doc) = .valid event.withoutRevision) ∧
    (∀ r r', Revision.GivenBy (doc.at? revisionPlace) r → Revision.GivenBy (doc.at? revisionPlace) r' → r = r') ∧
    ((∀ r, ¬Revision.GivenBy (doc.at? revisionPlace) r) → ∃ faults, check kind doc = .invalid faults) ∧
    ∀ event, check kind doc = .valid event →
      (∀ r, event.build.revision = some r → r.IsFlat) ∧
      (event.build.hash? = none ↔
        ∀ r, event.build.revision = some r → ∃ head, r.unwrapped = .untracked head) := by
  refine ⟨fun event => check_eq_valid_iff, fun r r' => Revision.GivenBy.unique, fun hnone => ?_, fun event h => ?_⟩
  · cases hcheck : check kind doc with
    | valid event => exact absurd (check_eq_valid_iff.1 hcheck).1 (hnone _)
    | invalid faults => exact ⟨faults, rfl⟩
  · have hgiven := (check_eq_valid_iff.1 h).1
    unfold Build.hash?
    generalize event.build.revision = given at hgiven ⊢
    cases given with
    | none => simp
    | some r =>
      obtain ⟨v, -, hspelt⟩ := hgiven
      simpa using ⟨Revision.isFlat_of_speltAs hspelt, hspelt.hash?_eq_none_iff⟩

/-- A build's document with a revision. -/
def documentOf (revision : Value) : Value :=
  .object [("build", .object [("number", .int 1), ("full_display_name", .string "red/app #1"),
    ("job", .object documentJob), ("revision", revision)])]

/-- The document of a pull request. -/
def documentPullRequest (pull : Value) : Value :=
  .object [("kind", .string "pull-request"),
    ("head", .object [("id", .string "7"), ("name", .string "PR-7"), ("origin_name", .string "main"),
      ("repo_owner", .string "red"), ("repository", .string "app")]),
    ("pull", pull)]

/-- A branch that does not tell its kind is read within a pull request, which has no commit then, and not by itself. -/
theorem revision_resolved_wrapped :
    (∃ event, check .completed (documentOf (documentPullRequest (.object [("head", .object documentHead)]))) =
        .valid event ∧
      event.build.revision = some (.pullRequest ⟨"7", "PR-7", "main", "red", "app", none⟩ (.untracked ⟨"main"⟩)) ∧
      event.build.hash? = none) ∧
    ∃ faults, check .completed (documentOf (.object [("head", .object documentHead)])) = .invalid faults := by
  constructor
  · let build : Build := ⟨1, "red/app #1", none, none, ⟨"red/app", "job/red/job/app/", ⟨"red"⟩⟩, none,
      some (.pullRequest ⟨"7", "PR-7", "main", "red", "app", none⟩ (.untracked ⟨"main"⟩))⟩
    have hcheck : check .completed (documentOf (documentPullRequest (.object [("head", .object documentHead)]))) =
        .valid (.completed build) := rfl
    refine ⟨_, hcheck, rfl, ((revision_resolved _ _).2.2.2 _ hcheck).2.2 fun r hr => ?_⟩
    cases hr
    exact ⟨_, rfl⟩
  · refine (revision_resolved _ _).2.2.1 fun r hgiven => ?_
    cases r with
    | none => rcases hgiven with hgiven | hgiven <;> cases hgiven
    | some r =>
      obtain ⟨_, ⟨⟩, hspelt⟩ := hgiven
      cases Revision.check_of_speltAs hspelt

end Event

end CommitStatus
