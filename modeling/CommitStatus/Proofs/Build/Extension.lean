import CommitStatus.Proofs.Build.Reading
import CommitStatus.Proofs.Json.Extension
import CommitStatus.Proofs.Json.Writing

/-!
# Events are open to extension

Members under other names than those of events may come into any object of an event's document, and the members of its
objects may come in any order: the same event is read, or the same faults are reported in the same order
(`Event.read_varied`). The one thing that is told apart is the kind of a revision that is no known word, as its fault
shows the value that stands in its place.

All parts of a document but this one are read by checks that ignore what is added (`Json.Check.Ignores`). The check of
a revision ignores it but for what it shows (`IgnoresBut`), and so do those of the build and the event around it.
-/

namespace CommitStatus

open Json (Value Members MembersAlike)
open Json.Check

/-- The value at the end of a path of names. -/
def Json.Value.at? : List String → Value → Option Value
  | [], v => some v
  | name :: path, .object m => (Json.member? name m).bind (at? path)
  | _ :: _, _ => none

/-- A value without parts. -/
def Json.Value.isFlat : Value → Bool
  | .array _ => false
  | .object _ => false
  | _ => true

/-- A path of known names leads to a value and to what it is varied to. -/
theorem Json.Value.Varied.at? {known : List String} : ∀ {path : List String} {v w : Value}, v.Varied known w →
    (∀ name ∈ path, name ∈ known) → Option.Rel (Value.Varied known) (v.at? path) (w.at? path)
  | [], _, _, h, _ => .some h
  | name :: path, v, w, h, hknown => by
    cases h.alike with
    | same v =>
      cases (v.at? (name :: path)) with
      | none => exact .none
      | some u => exact .some .refl
    | array => exact .none
    | @object m m' hm =>
      have hvalues := hm name (hknown name List.mem_cons_self)
      simp only [Value.at?]
      generalize Json.member? name m = found at hvalues ⊢
      generalize Json.member? name m' = found' at hvalues ⊢
      cases hvalues with
      | none => exact .none
      | some h => exact Varied.at? h fun name hname => hknown name (List.mem_cons_of_mem _ hname)

/-! ## Faults that show a kind -/

/-- Two faults are the same, or each is the fault of a kind that is no known word and shows this kind. The names lead to
the revision, and the kinds are the given ones. -/
inductive Fault.SameBut (place : List String) (tag tag' : Option Value) : Fault → Fault → Prop
  | same (f : Fault) : SameBut place tag tag' f f
  | shown {t t' : Value} (h : tag = some t) (h' : tag' = some t') :
      SameBut place tag tag' ⟨place.map .member, .unknownTag t.shown Revision.kinds⟩
        ⟨place.map .member, .unknownTag t'.shown Revision.kinds⟩

section Faults

variable {place : List String} {tag tag' : Option Value} {f g : Fault}

theorem Fault.SameBut.behind (h : SameBut place tag tag' f g) (name : String) :
    SameBut (name :: place) tag tag' (f.behind [.member name]) (g.behind [.member name]) := by
  cases h with
  | same f => exact .same _
  | shown h h' => exact .shown h h'

/-- Kinds that are shown alike make no difference. -/
theorem Fault.SameBut.eq (h : SameBut place tag tag' f g) (hshown : tag.map Value.shown = tag'.map Value.shown) :
    f = g := by
  cases h with
  | same f => rfl
  | shown h h' =>
    rw [h, h'] at hshown
    rw [Option.some.inj hshown]

end Faults

/-! ## Checks -/

variable {α : Type} {known : List String}

/-- Where the kind of a revision stands, if names lead to the revision. -/
def kindPath (place : List String) : List String := place ++ ["kind"]

/-- A check that comes to the same when a value is varied, but for what the fault of a revision shows of its kind. -/
def IgnoresBut (known place : List String) (check : Value → Checked α) : Prop :=
  ∀ {v w}, v.Varied known w →
    (check v).Agrees (Fault.SameBut place (v.at? (kindPath place)) (w.at? (kindPath place))) (check w)

section Members

variable {name : String} {place : List String} {check : Value → Checked α} {m m' : Members}

theorem Json.Check.required_agrees (hm : MembersAlike known m m') (hname : name ∈ known)
    (hcheck : IgnoresBut known place check) :
    (required name check m).Agrees
      (Fault.SameBut (name :: place) (Value.at? (kindPath (name :: place)) (.object m))
        (Value.at? (kindPath (name :: place)) (.object m')))
      (required name check m') := by
  have hvalues := hm name hname
  unfold required
  simp only [kindPath, List.cons_append, Value.at?]
  generalize Json.member? name m = found at hvalues ⊢
  generalize Json.member? name m' = found' at hvalues ⊢
  cases hvalues with
  | none => exact .refl .same _
  | some h => exact (hcheck h).under _ fun hfg => hfg.behind _

theorem Json.Check.optional_agrees (hm : MembersAlike known m m') (hname : name ∈ known)
    (hcheck : IgnoresBut known place check) :
    (optional name check m).Agrees
      (Fault.SameBut (name :: place) (Value.at? (kindPath (name :: place)) (.object m))
        (Value.at? (kindPath (name :: place)) (.object m')))
      (optional name check m') := by
  have hvalues := hm name hname
  unfold optional
  simp only [kindPath, List.cons_append, Value.at?]
  generalize Json.member? name m = found at hvalues ⊢
  generalize Json.member? name m' = found' at hvalues ⊢
  cases hvalues with
  | none => exact .refl .same _
  | some h =>
    have hagrees := (hcheck h).map some
    cases h.alike with
    | same v => exact .refl .same _
    | array => exact hagrees.under _ fun hfg => hfg.behind _
    | object => exact hagrees.under _ fun hfg => hfg.behind _

end Members

/-! ## The parts of an event -/

/-- The names of all members that are asked for in an event. -/
def Event.names : List String :=
  ["build", "workspace", "number", "full_display_name", "description", "result", "job", "url", "revision", "full_name",
    "parent", "kind", "head", "hash", "pull", "name", "id", "origin_name", "repo_owner", "repository", "target"]

/-- The names that lead to the revision of an event. -/
def Event.revisionPlace : List String := ["build", "revision"]

open Event (names)

section Texts

variable {name : String} {m m' : Members} (hm : MembersAlike names m m')
include hm

theorem required_text_congr (hname : name ∈ names) : required name text m = required name text m' :=
  required_congr hm hname ignores_text

theorem optional_text_congr (hname : name ∈ names) :
    Json.Check.optional name text m = Json.Check.optional name text m' :=
  optional_congr hm hname ignores_text

end Texts

theorem Build.Number.ignores_check : Ignores names Number.check := ignores_of_flat (fun _ _ => rfl) fun _ _ => rfl

theorem BranchHead.ignores_check : Ignores names check :=
  ignores_object fun hm => by rw [required_text_congr hm (by decide)]

theorem PullRequestHead.ignores_check : Ignores names check :=
  ignores_object fun hm => by
    have htext (name : String) (h : name ∈ names) := required_text_congr hm h
    rw [htext "id" (by decide), htext "name" (by decide), htext "origin_name" (by decide),
      htext "repo_owner" (by decide), htext "repository" (by decide), optional_text_congr hm (by decide)]

theorem Folder.ignores_check : Ignores names check :=
  ignores_object fun hm => by rw [required_text_congr hm (by decide)]

theorem Job.ignores_check : Ignores names check :=
  ignores_object fun hm => by
    have htext (name : String) (h : name ∈ names) := required_text_congr hm h
    rw [htext "full_name" (by decide), htext "url" (by decide), required_congr hm (by decide) Folder.ignores_check]

namespace Revision

theorem checkKind_congr {m m' : Members} (hm : MembersAlike names m m') (word : String) :
    checkKind word m = checkKind word m' := by
  have hkind := hm "kind" (by decide)
  unfold checkKind
  generalize Json.member? "kind" m = found at hkind ⊢
  generalize Json.member? "kind" m' = found' at hkind ⊢
  cases hkind with
  | none => rfl
  | some h => cases h.alike <;> rfl

theorem ignores_checkCommit : Ignores names checkCommit :=
  ignores_object fun hm => by
    rw [checkKind_congr hm, required_congr hm (by decide) BranchHead.ignores_check, required_text_congr hm (by decide)]

theorem ignores_checkUntracked : Ignores names checkUntracked :=
  ignores_object fun hm => by rw [checkKind_congr hm, required_congr hm (by decide) BranchHead.ignores_check]

theorem ignores_checkPull : Ignores names checkPull := fun h => by
  rw [checkPull, checkPull, ignores_checkCommit h, ignores_checkUntracked h]

theorem ignores_checkPullRequest : Ignores names checkPullRequest :=
  ignores_object fun hm => by
    rw [checkKind_congr hm, required_congr hm (by decide) PullRequestHead.ignores_check,
      required_congr hm (by decide) ignores_checkPull]

/-- What is added does not matter to a revision, but for a kind that is an array or an object: its fault shows it. -/
theorem ignoresBut_check : IgnoresBut names [] check := by
  intro v w h
  cases h.alike with
  | same v => exact .refl .same _
  | array => exact .refl .same _
  | @object m m' hm =>
  have hat (m : Members) : Value.at? (kindPath []) (.object m) = Json.member? "kind" m := by
    simp only [kindPath, List.nil_append, Value.at?]
    cases Json.member? "kind" m <;> rfl
  have hcommit := ignores_checkCommit h
  have hpullRequest := ignores_checkPullRequest h
  have huntracked := ignores_checkUntracked h
  have hkind := hm "kind" (by decide)
  rw [hat, hat]
  simp only [check, hcommit, hpullRequest, huntracked]
  generalize Json.member? "kind" m = found at hkind ⊢
  generalize Json.member? "kind" m' = found' at hkind ⊢
  cases hkind with
  | none => exact .refl .same _
  | some ht =>
    cases ht.alike with
    | same t => exact .refl .same _
    | array => exact .invalid (.cons (.shown rfl rfl) .nil)
    | object => exact .invalid (.cons (.shown rfl rfl) .nil)

end Revision

theorem Result.ignores_check : Ignores names check := ignores_listed _ _

theorem Build.ignoresBut_check : IgnoresBut names ["revision"] check := by
  intro v w h
  cases h.alike with
  | same v => exact .refl .same _
  | array => exact .refl .same _
  | @object m m' hm =>
  have htext (name : String) (h : name ∈ names) := optional_text_congr hm h
  have hmem : "revision" ∈ names := by decide
  have hrevision := optional_agrees hm hmem Revision.ignoresBut_check
  unfold check object
  dsimp only
  rw [required_congr hm (by decide) Number.ignores_check, required_text_congr hm (by decide),
    htext "description" (by decide), optional_congr hm (by decide) Result.ignores_check,
    required_congr hm (by decide) Job.ignores_check, htext "url" (by decide)]
  exact .ap (.refl .same _) hrevision

theorem Event.ignoresBut_check (kind : EventKind) : IgnoresBut names revisionPlace (check kind) := by
  intro v w h
  cases h.alike with
  | same v => exact .refl .same _
  | array => cases kind <;> exact .refl .same _
  | @object m m' hm =>
  have hmem : "build" ∈ names := by decide
  have hbuild := required_agrees hm hmem Build.ignoresBut_check
  cases kind with
  | checkout =>
    show ((_ : Checked (Option String → Event)).ap _).Agrees _ (Checked.ap _ _)
    rw [optional_text_congr hm (by decide)]
    exact .ap (hbuild.map _) (.refl .same _)
  | completed => exact hbuild.map _

/-! ## Events -/

namespace Event

/-- The same event is read, or the same faults are reported, but for what the fault of a revision shows of its kind. -/
inductive ReadAlike (tag tag' : Option Value) : Except Invalid Event → Except Invalid Event → Prop
  | ok (event : Event) : ReadAlike tag tag' (.ok event) (.ok event)
  | error (title : String) {faults faults' : List Fault}
      (h : List.Forall₂ (Fault.SameBut revisionPlace tag tag') faults faults') :
      ReadAlike tag tag' (.error ⟨title, faults⟩) (.error ⟨title, faults'⟩)

theorem readAlike_of_agrees {tag tag' : Option Value} {c d : Checked Event}
    (h : c.Agrees (Fault.SameBut revisionPlace tag tag') d) (title : String) :
    ReadAlike tag tag' (c.titled title) (d.titled title) := by
  cases h with
  | valid event => exact .ok event
  | invalid h => exact .error title h

/-- An event is read from octets as from the text that they hold. -/
theorem read_eq_readText {kind : EventKind} {octets : List UInt8} {s : List Char}
    (h : Text.Utf8.decode? octets = some s) : read kind octets = readText kind s := by
  simp only [read, readText, Json.checkOctets, h]

/-- An event is read from a text by the check of the document that the text holds. -/
theorem readText_eq_check {kind : EventKind} {s : List Char} {v : Value} (h : Json.read? maxDepth s = some v) :
    readText kind s = (check kind v).titled kind.title := by
  simp only [readText, Json.checkChars, h]

/-- Varied values that are without parts are shown alike. -/
theorem shown_at?_of_isFlat {known path : List String} {v w : Value} (h : v.Varied known w)
    (hpath : ∀ name ∈ path, name ∈ known) (hflat : ∀ t, v.at? path = some t → t.isFlat = true) :
    (v.at? path).map Value.shown = (w.at? path).map Value.shown := by
  have htags := h.at? hpath
  generalize v.at? path = tag at htags hflat ⊢
  generalize w.at? path = tag' at htags ⊢
  cases htags with
  | none => rfl
  | @some t t' ht =>
    have hflat := hflat t rfl
    cases ht.alike with
    | same t => rfl
    | array => cases hflat
    | object => cases hflat

/-- **Events are open to extension.** Take the octets and the texts of any two documents of which the second is the
first with members under names that no event asks for in any of its objects, and with the members of its objects in
another order where their names are distinct. The same event is read from both, or faults that agree one by one: they
are the same, except that the fault of a revision whose kind is no known word shows the kind as it stands in either
document. So both come to the same if the kind is shown alike, and if it is neither an array nor an object in any
case. -/
theorem read_varied (kind : EventKind) {octets octets' : List UInt8} {s s' : List Char} {v v' : Value}
    (hs : Text.Utf8.decode? octets = some s) (hs' : Text.Utf8.decode? octets' = some s')
    (hv : Json.read? maxDepth s = some v) (hv' : Json.read? maxDepth s' = some v') (h : v.Varied names v') :
    let tag := v.at? (kindPath revisionPlace)
    let tag' := v'.at? (kindPath revisionPlace)
    ReadAlike tag tag' (readText kind s) (readText kind s') ∧
      (tag.map Value.shown = tag'.map Value.shown ∨ (∀ t, tag = some t → t.isFlat = true) →
        readText kind s = readText kind s') ∧
      read kind octets = readText kind s ∧ read kind octets' = readText kind s' := by
  intro tag tag'
  have hagrees : (check kind v).Agrees (Fault.SameBut revisionPlace tag tag') (check kind v') := ignoresBut_check kind h
  refine ⟨?_, fun halike => ?_, read_eq_readText hs, read_eq_readText hs'⟩
  · rw [readText_eq_check hv, readText_eq_check hv']
    exact readAlike_of_agrees hagrees kind.title
  · have hshown : tag.map Value.shown = tag'.map Value.shown := by
      rcases halike with hshown | hflat
      · exact hshown
      · exact shown_at?_of_isFlat h (by decide) hflat
    rw [readText_eq_check hv, readText_eq_check hv', hagrees.eq fun hfg => hfg.eq hshown]

/-- A build's document with a job, a branch and a kind of its revision, and with other members in front. -/
def document (front : Members) (job head kind : Value) : Value :=
  .object (front ++ [("build", .object [("number", .int 1), ("full_display_name", .string "red/app #1"), ("job", job),
    ("revision", .object [("kind", kind), ("head", head), ("hash", .string "1f2e3d")])])])

/-- What is varied of a document's job, branch and kind is varied of the document. -/
theorem document_varied {known : List String} (front : Members) {job job' head head' kind kind' : Value}
    (hjob : job.Varied known job') (hhead : head.Varied known head') (hkind : kind.Varied known kind') :
    (document front job head kind).Varied known (document front job' head' kind') := by
  have hrevision : (Value.object [("kind", kind), ("head", head), ("hash", .string "1f2e3d")]).Varied known
      (.object [("kind", kind'), ("head", head'), ("hash", .string "1f2e3d")]) :=
    (hkind.member [] _ "kind").trans (hhead.member [("kind", kind')] _ "head")
  refine .trans ?_ ((hrevision.member [_, _, _] [] "revision").member front [] "build")
  exact (hjob.member [_, _] [_] "job").member front [] "build"

/-- A document with parts for which the reader has room is read back. -/
theorem read?_document {front : Members} {job head kind : Value} (hfront : ∀ m ∈ front, m.2.Fits 199)
    (hjob : job.Fits 198) (hhead : head.Fits 197) (hkind : kind.Fits 197) :
    Json.read? maxDepth (document front job head kind).chars = some (document front job head kind) := by
  have hnumber : ∀ depth, (Value.int 1).Fits depth := fun _ => .int (by decide)
  have hrevision : (Value.object [("kind", kind), ("head", head), ("hash", .string "1f2e3d")]).Fits 198 :=
    .object (by simp [Value.Fits.string, hhead, hkind])
  have hbuild : (Value.object [("number", .int 1), ("full_display_name", .string "red/app #1"), ("job", job),
      ("revision", .object [("kind", kind), ("head", head), ("hash", .string "1f2e3d")])]).Fits 199 :=
    .object (by simp [Value.Fits.string, hnumber, hjob, hrevision])
  refine Json.read?_chars (@Value.Fits.object 199 _ fun m hm => ?_)
  rcases List.mem_append.1 hm with hm | hm
  · exact hfront m hm
  · rw [List.mem_singleton.1 hm]
    exact hbuild

/-- The job of a document. -/
def documentJob : Members :=
  [("full_name", .string "red/app"), ("url", .string "job/red/job/app/"),
    ("parent", .object [("full_name", .string "red")])]

/-- The branch of a document. -/
def documentHead : Members := [("name", .string "main")]

theorem documentJob_fits : ∀ m ∈ documentJob, m.2.Fits 197 := by
  have hparent : (Value.object [("full_name", .string "red")]).Fits 197 := .object (by simp [Value.Fits.string])
  simp [documentJob, Value.Fits.string, hparent]

theorem documentHead_fits : ∀ m ∈ documentHead, m.2.Fits 196 := by
  simp [documentHead, Value.Fits.string]

/-- A document is read as before with a note in front, the members of the job turned around and a member more in the
branch. -/
theorem read_varied_note :
    let v := document [] (.object documentJob) (.object documentHead) (.string "git")
    let v' := document [("note", .array [.null])] (.object documentJob.reverse)
      (.object (documentHead ++ [("since", .int 3)])) (.string "git")
    v.Varied names v' ∧ (readText .completed v.chars).toOption.isSome = true ∧
      readText .completed v.chars = readText .completed v'.chars := by
  intro v v'
  have hjob : (Value.object documentJob).Varied names (.object documentJob.reverse) :=
    .single (.rearrange (by decide) (List.reverse_perm documentJob).symm)
  have hhead : (Value.object documentHead).Varied names (.object (documentHead ++ [("since", .int 3)])) :=
    .single (@Value.Varies.extend names documentHead [] "since" (.int 3) (by decide))
  have hnote (job head kind : Value) :
      (document [] job head kind).Varied names (document [("note", .array [.null])] job head kind) :=
    .single (@Value.Varies.extend names [] [("build", _)] "note" (.array [.null]) (by decide))
  have hvaried : v.Varied names v' := .trans (hnote _ _ _) (document_varied _ hjob hhead .refl)
  have hv : Json.read? maxDepth v.chars = some v :=
    read?_document (by simp) (.object documentJob_fits) (.object documentHead_fits) (.string "git")
  have hv' : Json.read? maxDepth v'.chars = some v' := by
    have hfront : ∀ m ∈ [("note", Value.array [.null])], m.2.Fits 199 := by
      simpa using @Value.Fits.array 198 [.null] (by simpa using Value.Fits.null)
    have hsince : ∀ m ∈ documentHead ++ [("since", .int 3)], m.2.Fits 196 :=
      List.forall_mem_append.2 ⟨documentHead_fits, by simpa using Value.Fits.int (by decide)⟩
    refine read?_document hfront (.object fun m hm => ?_) (.object hsince) (.string "git")
    exact documentJob_fits m (List.mem_reverse.1 hm)
  obtain ⟨-, halike, -⟩ :=
    read_varied .completed (Text.Utf8.decode?_encode _) (Text.Utf8.decode?_encode _) hv hv' hvaried
  refine ⟨hvaried, by decide +kernel, halike (.inr fun t ht => ?_)⟩
  obtain rfl : Value.string "git" = t := Option.some.inj ht
  rfl

/-- A member that comes into the kind of a revision, where this is an object, comes into the fault that shows it. -/
theorem readText_shownKind :
    let kind := Value.object [("a", .int 1)]
    let kind' := Value.object [("a", .int 1), ("b", .int 2)]
    let v := document [] (.object documentJob) (.object documentHead) kind
    let v' := document [] (.object documentJob) (.object documentHead) kind'
    let refusal (shown : String) : Except Invalid Event :=
      .error ⟨"CompletedEvent", [⟨[.member "build", .member "revision"], .unknownTag shown Revision.kinds⟩]⟩
    v.Varied names v' ∧ Json.read? maxDepth v.chars = some v ∧ Json.read? maxDepth v'.chars = some v' ∧
      readText .completed v.chars = refusal "\x7b'a': 1\x7d" ∧
      readText .completed v'.chars = refusal "\x7b'a': 1, 'b': 2\x7d" ∧
      (Cause.unknownTag "\x7b'a': 1\x7d" Revision.kinds).message? ≠
        (Cause.unknownTag "\x7b'a': 1, 'b': 2\x7d" Revision.kinds).message? := by
  intro kind kind' v v' refusal
  have hkind : kind.Varied names kind' :=
    .single (@Value.Varies.extend names [("a", .int 1)] [] "b" (.int 2) (by decide))
  have hone : (Value.int 1).Fits 196 := .int (by decide)
  have htwo : (Value.int 2).Fits 196 := .int (by decide)
  have hfront : ∀ m ∈ ([] : Members), m.2.Fits 199 := by simp
  refine ⟨document_varied [] .refl .refl hkind, ?_, ?_, by decide +kernel, by decide +kernel, by decide +kernel⟩
  · exact read?_document hfront (.object documentJob_fits) (.object documentHead_fits) (.object (by simpa using hone))
  · exact read?_document hfront (.object documentJob_fits) (.object documentHead_fits)
      (.object (by simpa using ⟨hone, htwo⟩))

end Event

end CommitStatus
