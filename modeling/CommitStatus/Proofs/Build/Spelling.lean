import CommitStatus.Build.Writer
import CommitStatus.Proofs.Build.Number
import CommitStatus.Proofs.Build.Reading

/-!
# The documents that spell an event

An event may be spelled in more than one way: the members of an object come in any order and with others among them,
what is optional may be missing or null, a number may be a truth value, a whole floating-point number or a text of
digits, and the revision within a pull request need not tell its kind. Each of the documents that spell an event is read
as the event (`Event.check_of_speltAs`), and a value is read as a revision exactly if it spells it
(`Revision.check_eq_valid_iff`).
-/

namespace CommitStatus

open Json (Value Members)
open Checked

/-! ## Members -/

namespace Json

variable {α : Type}

/-- A member that spells what is asked for. -/
def Member (name : String) (SpeltAs : Value → Prop) (members : Members) : Prop :=
  ∃ v, member? name members = some v ∧ SpeltAs v

/-- A member that spells what there is; where there is nothing, it is missing or null. -/
def MemberOrNull (name : String) (SpeltAs : α → Value → Prop) (members : Members) : Option α → Prop
  | none => member? name members = none ∨ member? name members = some .null
  | some a => Member name (SpeltAs a) members

/-- A text is spelled as itself. -/
def IsText (s : String) (v : Value) : Prop := v = .string s

namespace Check

variable {name : String} {members : Members} {check : Value → Checked α} {SpeltAs : α → Value → Prop}

theorem text_of_isText {s : String} {v : Value} (h : IsText s v) : text v = .valid s := by
  cases h
  rfl

theorem isText_of_text {s : String} {v : Value} (h : text v = .valid s) : IsText s v := by
  cases v <;> cases h
  rfl

theorem required_of_member {a : α} {P : Value → Prop} (h : Member name P members)
    (hcheck : ∀ {v}, P v → check v = .valid a) : required name check members = .valid a := by
  obtain ⟨v, hv, hspelt⟩ := h
  exact required_eq_valid_iff.2 ⟨v, hv, hcheck hspelt⟩

theorem member_of_required {a : α} {P : Value → Prop} (h : required name check members = .valid a)
    (hspelt : ∀ {v}, check v = .valid a → P v) : Member name P members := by
  obtain ⟨v, hv, hvalid⟩ := required_eq_valid_iff.1 h
  exact ⟨v, hv, hspelt hvalid⟩

theorem optional_of_memberOrNull {a : Option α} (h : MemberOrNull name SpeltAs members a)
    (hcheck : ∀ {a v}, SpeltAs a v → check v = .valid a) (hnull : ∀ a, check .null ≠ .valid a) :
    optional name check members = .valid a := by
  cases a with
  | none => exact optional_eq_valid_none_iff.2 h
  | some a =>
    obtain ⟨v, hv, hspelt⟩ := h
    refine optional_eq_valid_some_iff.2 ⟨v, hv, ?_, hcheck hspelt⟩
    rintro rfl
    exact hnull a (hcheck hspelt)

theorem memberOrNull_of_optional {a : Option α} (h : optional name check members = .valid a)
    (hspelt : ∀ {a v}, check v = .valid a → SpeltAs a v) : MemberOrNull name SpeltAs members a := by
  cases a with
  | none => exact optional_eq_valid_none_iff.1 h
  | some a =>
    obtain ⟨v, hv, -, hvalid⟩ := optional_eq_valid_some_iff.1 h
    exact ⟨v, hv, hspelt hvalid⟩

end Check

end Json

open Json (Member MemberOrNull IsText)

/-! ## Records -/

/-- An integer is spelled as itself, a truth value, a floating-point number within 64 bits, or a text of digits. -/
inductive Build.Number.SpeltAs : Int → Value → Prop
  | int (n : Int) : SpeltAs n (.int n)
  | bool (b : Bool) : SpeltAs (if b then 1 else 0) (.bool b)
  | whole {x : Decimal.Binary64} {n : Int} (h : x.toInt? = some n) (hwithin : Decimal.Integer.isWithin64 n = true) :
      SpeltAs n (.float x)
  | digits {s : List Char} (hne : s ≠ []) (h : ∀ c ∈ s, c.isDigit = true)
      (hshort : s.length ≤ Decimal.Integer.maxDigits) : SpeltAs (Json.digitsValue s) (.string (String.ofList s))

inductive BranchHead.SpeltAs (h : BranchHead) : Value → Prop
  | object {m : Members} (name : Member "name" (IsText h.name) m) : SpeltAs h (.object m)

inductive PullRequestHead.SpeltAs (h : PullRequestHead) : Value → Prop
  | object {m : Members} (id : Member "id" (IsText h.id) m) (name : Member "name" (IsText h.name) m)
      (originName : Member "origin_name" (IsText h.originName) m)
      (repoOwner : Member "repo_owner" (IsText h.repoOwner) m)
      (repository : Member "repository" (IsText h.repository) m)
      (target : MemberOrNull "target" IsText m h.target) : SpeltAs h (.object m)

/-- The word for a kind, which may be missing. -/
def Revision.KindOrNone (word : String) (m : Members) : Prop :=
  ∀ v, Json.member? "kind" m = some v → IsText word v

/-- A revision within a pull request. What does not tell its kind and has a hash is a commit. -/
inductive Revision.SpeltWithin : Revision → Value → Prop
  | commit {head : BranchHead} {hash : String} {m : Members} (hkind : KindOrNone "git" m)
      (hhead : Member "head" head.SpeltAs m) (hhash : Member "hash" (IsText hash) m) :
      SpeltWithin (.commit head hash) (.object m)
  | untracked {head : BranchHead} {m : Members} (hkind : KindOrNone "opaque" m)
      (hhead : Member "head" head.SpeltAs m)
      (hnoHash : Json.member? "kind" m = none → ∀ s, ¬Member "hash" (IsText s) m) :
      SpeltWithin (.untracked head) (.object m)

inductive Revision.SpeltAs : Revision → Value → Prop
  | commit {head : BranchHead} {hash : String} {m : Members} (hkind : Member "kind" (IsText "git") m)
      (hhead : Member "head" head.SpeltAs m) (hhash : Member "hash" (IsText hash) m) :
      SpeltAs (.commit head hash) (.object m)
  | untracked {head : BranchHead} {m : Members} (hkind : Member "kind" (IsText "opaque") m)
      (hhead : Member "head" head.SpeltAs m) : SpeltAs (.untracked head) (.object m)
  | pullRequest {head : PullRequestHead} {pull : Revision} {m : Members}
      (hkind : Member "kind" (IsText "pull-request") m) (hhead : Member "head" head.SpeltAs m)
      (hpull : Member "pull" pull.SpeltWithin m) : SpeltAs (.pullRequest head pull) (.object m)

inductive Folder.SpeltAs (f : Folder) : Value → Prop
  | object {m : Members} (fullName : Member "full_name" (IsText f.fullName) m) : SpeltAs f (.object m)

inductive Job.SpeltAs (j : Job) : Value → Prop
  | object {m : Members} (fullName : Member "full_name" (IsText j.fullName) m) (url : Member "url" (IsText j.url) m)
      (parent : Member "parent" j.parent.SpeltAs m) : SpeltAs j (.object m)

inductive Build.SpeltAs (b : Build) : Value → Prop
  | object {m : Members} (number : Member "number" (Number.SpeltAs b.number) m)
      (fullDisplayName : Member "full_display_name" (IsText b.fullDisplayName) m)
      (description : MemberOrNull "description" IsText m b.description)
      (result : MemberOrNull "result" (fun r => IsText r.word) m b.result)
      (job : Member "job" b.job.SpeltAs m)
      (url : MemberOrNull "url" IsText m b.url)
      (revision : MemberOrNull "revision" Revision.SpeltAs m b.revision) : SpeltAs b (.object m)

/-- **The documents that spell an event.** -/
inductive Event.SpeltAs : Event → Value → Prop
  | checkout {build : Build} {workspace : Option String} {m : Members} (hbuild : Member "build" build.SpeltAs m)
      (hworkspace : MemberOrNull "workspace" IsText m workspace) : SpeltAs (.checkout build workspace) (.object m)
  | completed {build : Build} {m : Members} (hbuild : Member "build" build.SpeltAs m) :
      SpeltAs (.completed build) (.object m)

/-! ## Spellings are read, and what is read as a revision spells it -/

section Reading

open Json.Check

variable {v : Value}

theorem Json.Check.text_null (s : String) : text .null ≠ .valid s := by
  rintro ⟨⟩

theorem Build.Number.check_of_speltAs {n : Int} (h : SpeltAs n v) : check v = .valid n := by
  cases h with
  | int n => rfl
  | bool b => rfl
  | @whole x n h hwithin =>
    have hfinite : x.isFinite = true := by
      cases x with
      | finite => rfl
      | nan => cases h
      | infinite => cases h
    simp [check, ofFloat, hfinite, h, hwithin]
  | digits hne h hshort =>
    rw [check, String.toList_ofList]
    exact ofText_digits hne h hshort

theorem BranchHead.check_of_speltAs {h : BranchHead} (hv : h.SpeltAs v) : check v = .valid h := by
  obtain ⟨name⟩ := hv
  simp only [check, object, required_of_member name text_of_isText, Checked.map]

theorem BranchHead.speltAs_of_check {h : BranchHead} (hv : check v = .valid h) : h.SpeltAs v := by
  obtain ⟨m, rfl, hv⟩ := object_eq_valid_iff.1 hv
  obtain ⟨name, hname, rfl⟩ := map_eq_valid_iff.1 hv
  exact ⟨member_of_required hname isText_of_text⟩

theorem PullRequestHead.check_of_speltAs {h : PullRequestHead} (hv : h.SpeltAs v) : check v = .valid h := by
  obtain ⟨id, name, originName, repoOwner, repository, target⟩ := hv
  simp only [check, object, required_of_member id text_of_isText, required_of_member name text_of_isText,
    required_of_member originName text_of_isText, required_of_member repoOwner text_of_isText,
    required_of_member repository text_of_isText, optional_of_memberOrNull target text_of_isText text_null,
    Checked.map, Checked.ap]

theorem PullRequestHead.speltAs_of_check {h : PullRequestHead} (hv : check v = .valid h) : h.SpeltAs v := by
  obtain ⟨m, rfl, hparts⟩ := object_eq_valid_iff.1 hv
  simp only [ap_eq_valid_iff, map_eq_valid_iff] at hparts
  -- of the six members the first is innermost, and the last outermost
  obtain ⟨_, target, ⟨_, repository, ⟨_, repoOwner, ⟨_, originName, ⟨_, name, ⟨id, hid, rfl⟩, hname, rfl⟩, horigin,
    rfl⟩, howner, rfl⟩, hrepository, rfl⟩, htarget, rfl⟩ := hparts
  exact ⟨member_of_required hid isText_of_text, member_of_required hname isText_of_text,
    member_of_required horigin isText_of_text, member_of_required howner isText_of_text,
    member_of_required hrepository isText_of_text, memberOrNull_of_optional htarget isText_of_text⟩

namespace Revision

variable {m : Members} {word : String} {r : Revision}

theorem checkKind_eq_valid_iff : checkKind word m = .valid () ↔ KindOrNone word m := by
  unfold checkKind KindOrNone
  split
  · simp_all
  · rename_i s hs
    simp only [hs, Option.some.injEq, forall_eq', IsText, Value.string.injEq]
    split <;> simp_all [Checked.fault, Checked.under]
  · rename_i w hnot hs
    simp only [hs, Option.some.injEq, forall_eq', IsText]
    refine ⟨?_, fun h => absurd h (hnot _)⟩
    rintro ⟨⟩

theorem kindOrNone_of_member (h : Member "kind" (IsText word) m) : KindOrNone word m := by
  obtain ⟨v, hv, hword⟩ := h
  intro w hw
  rw [hv] at hw
  cases hw
  exact hword

theorem checkCommit_of_members {head : BranchHead} {hash : String} (hkind : KindOrNone "git" m)
    (hhead : Member "head" head.SpeltAs m) (hhash : Member "hash" (IsText hash) m) :
    checkCommit (.object m) = .valid (.commit head hash) := by
  simp only [checkCommit, object, checkKind_eq_valid_iff.2 hkind,
    required_of_member hhead BranchHead.check_of_speltAs, required_of_member hhash text_of_isText, Checked.map,
    Checked.ap]

theorem checkUntracked_of_members {head : BranchHead} (hkind : KindOrNone "opaque" m)
    (hhead : Member "head" head.SpeltAs m) : checkUntracked (.object m) = .valid (.untracked head) := by
  simp only [checkUntracked, object, checkKind_eq_valid_iff.2 hkind,
    required_of_member hhead BranchHead.check_of_speltAs, Checked.map, Checked.ap]

/-- The members of what is read as a commit. -/
theorem members_of_checkCommit (h : checkCommit v = .valid r) :
    ∃ m head hash, v = .object m ∧ r = .commit head hash ∧ KindOrNone "git" m ∧
      Member "head" head.SpeltAs m ∧ Member "hash" (IsText hash) m := by
  obtain ⟨m, rfl, h⟩ := object_eq_valid_iff.1 h
  obtain ⟨f, hash, hf, hhash, rfl⟩ := ap_eq_valid_iff.1 h
  obtain ⟨g, head, hg, hhead, rfl⟩ := ap_eq_valid_iff.1 hf
  obtain ⟨⟨⟩, hkind, rfl⟩ := map_eq_valid_iff.1 hg
  exact ⟨m, head, hash, rfl, rfl, checkKind_eq_valid_iff.1 hkind, member_of_required hhead BranchHead.speltAs_of_check,
    member_of_required hhash isText_of_text⟩

/-- The members of what is read as a branch without a commit. -/
theorem members_of_checkUntracked (h : checkUntracked v = .valid r) :
    ∃ m head, v = .object m ∧ r = .untracked head ∧ KindOrNone "opaque" m ∧ Member "head" head.SpeltAs m := by
  obtain ⟨m, rfl, h⟩ := object_eq_valid_iff.1 h
  obtain ⟨f, head, hf, hhead, rfl⟩ := ap_eq_valid_iff.1 h
  obtain ⟨⟨⟩, hkind, rfl⟩ := map_eq_valid_iff.1 hf
  exact ⟨m, head, rfl, rfl, checkKind_eq_valid_iff.1 hkind, member_of_required hhead BranchHead.speltAs_of_check⟩

theorem checkPull_of_checkUntracked (hcommit : ∀ c, checkCommit v ≠ .valid c)
    (h : checkUntracked v = .valid r) : checkPull v = .valid r := by
  rw [checkPull, h]
  cases hc : checkCommit v with
  | valid c => exact absurd hc (hcommit c)
  | invalid => rfl

theorem checkPull_of_speltWithin (h : r.SpeltWithin v) : checkPull v = .valid r := by
  cases h with
  | commit hkind hhead hhash => rw [checkPull, checkCommit_of_members hkind hhead hhash]
  | @untracked head m hkind hhead hnoHash =>
    refine checkPull_of_checkUntracked (fun c hcommit => ?_) (checkUntracked_of_members hkind hhead)
    obtain ⟨_, _, hash, ⟨⟩, rfl, hgit, -, hhash⟩ := members_of_checkCommit hcommit
    cases hnone : Json.member? "kind" m with
    | none => exact hnoHash hnone hash hhash
    | some w =>
      -- the kind would be two words at once
      have hwords : Value.string "opaque" = .string "git" := (hkind w hnone).symm.trans (hgit w hnone)
      simp at hwords

/-- A value is read as the revision within a pull request exactly if it spells it there. -/
theorem checkPull_eq_valid_iff : checkPull v = .valid r ↔ r.SpeltWithin v := by
  refine ⟨fun h => ?_, checkPull_of_speltWithin⟩
  cases hc : checkCommit v with
  | valid c =>
    rw [checkPull, hc] at h
    cases h
    obtain ⟨m, head, hash, rfl, rfl, hkind, hhead, hhash⟩ := members_of_checkCommit hc
    exact .commit hkind hhead hhash
  | invalid faults =>
    cases hu : checkUntracked v with
    | invalid faults' =>
      rw [checkPull, hc, hu] at h
      cases h
    | valid u =>
      rw [checkPull, hc, hu] at h
      cases h
      obtain ⟨m, head, rfl, rfl, hkind, hhead⟩ := members_of_checkUntracked hu
      refine .untracked hkind hhead fun hnone hash hhash => ?_
      -- with a hash and without a kind it would be a commit
      have hgit : KindOrNone "git" m := fun w hw => by
        rw [hnone] at hw
        cases hw
      rw [checkCommit_of_members hgit hhead hhash] at hc
      cases hc

theorem check_of_speltAs (h : r.SpeltAs v) : check v = .valid r := by
  cases h with
  | commit hkind hhead hhash =>
    have hcommit := checkCommit_of_members (kindOrNone_of_member hkind) hhead hhash
    obtain ⟨_, hword, rfl⟩ := hkind
    simp only [check, hword, hcommit, Checked.under]
  | untracked hkind hhead =>
    have huntracked := checkUntracked_of_members (kindOrNone_of_member hkind) hhead
    obtain ⟨_, hword, rfl⟩ := hkind
    simp only [check, hword, huntracked, Checked.under]
  | pullRequest hkind hhead hpull =>
    have hvalid := checkKind_eq_valid_iff.2 (kindOrNone_of_member hkind)
    obtain ⟨_, hword, rfl⟩ := hkind
    simp only [check, hword, checkPullRequest, object, hvalid,
      required_of_member hhead PullRequestHead.check_of_speltAs, required_of_member hpull checkPull_of_speltWithin,
      Checked.map, Checked.ap, Checked.under]

/-- A value is read as a revision exactly if it spells it. -/
theorem check_eq_valid_iff : check v = .valid r ↔ r.SpeltAs v := by
  refine ⟨fun h => ?_, check_of_speltAs⟩
  unfold check at h
  split at h
  · rename_i m
    split at h
    · cases h
    · rename_i hkind
      obtain ⟨_, head, hash, ⟨⟩, rfl, -, hhead, hhash⟩ := members_of_checkCommit (under_eq_valid_iff.1 h)
      exact .commit ⟨_, hkind, rfl⟩ hhead hhash
    · rename_i hkind
      obtain ⟨f, pull, hf, hpull, rfl⟩ := ap_eq_valid_iff.1 (under_eq_valid_iff.1 h)
      obtain ⟨g, head, hg, hhead, rfl⟩ := ap_eq_valid_iff.1 hf
      obtain ⟨-, -, rfl⟩ := map_eq_valid_iff.1 hg
      exact .pullRequest ⟨_, hkind, rfl⟩ (member_of_required hhead PullRequestHead.speltAs_of_check)
        (member_of_required hpull checkPull_eq_valid_iff.1)
    · rename_i hkind
      obtain ⟨_, head, ⟨⟩, rfl, -, hhead⟩ := members_of_checkUntracked (under_eq_valid_iff.1 h)
      exact .untracked ⟨_, hkind, rfl⟩ hhead
    · cases h
  · cases h

theorem check_null (r : Revision) : check .null ≠ .valid r := by
  rintro ⟨⟩

end Revision

theorem Folder.check_of_speltAs {f : Folder} (h : f.SpeltAs v) : check v = .valid f := by
  obtain ⟨fullName⟩ := h
  simp only [check, object, required_of_member fullName text_of_isText, Checked.map]

theorem Job.check_of_speltAs {j : Job} (h : j.SpeltAs v) : check v = .valid j := by
  obtain ⟨fullName, url, parent⟩ := h
  simp only [check, object, required_of_member fullName text_of_isText, required_of_member url text_of_isText,
    required_of_member parent Folder.check_of_speltAs, Checked.map, Checked.ap]

theorem Result.check_of_isText {r : Result} (h : IsText r.word v) : check v = .valid r := by
  cases h
  simp only [check, listed, ofWord?_word]

theorem Result.check_null (r : Result) : check .null ≠ .valid r := by
  rintro ⟨⟩

theorem Build.check_of_speltAs {b : Build} (h : b.SpeltAs v) : check v = .valid b := by
  obtain ⟨number, fullDisplayName, description, result, job, url, revision⟩ := h
  simp only [check, object, required_of_member number Number.check_of_speltAs,
    required_of_member fullDisplayName text_of_isText, optional_of_memberOrNull description text_of_isText text_null,
    optional_of_memberOrNull result Result.check_of_isText Result.check_null,
    required_of_member job Job.check_of_speltAs, optional_of_memberOrNull url text_of_isText text_null,
    optional_of_memberOrNull revision Revision.check_of_speltAs Revision.check_null, Checked.map, Checked.ap]

/-- **Each document that spells an event is read as the event.** -/
theorem Event.check_of_speltAs {event : Event} (h : event.SpeltAs v) : check event.kind v = .valid event := by
  cases h with
  | checkout hbuild hworkspace =>
    simp only [check, kind, object, required_of_member hbuild Build.check_of_speltAs,
      optional_of_memberOrNull hworkspace text_of_isText text_null, Checked.map, Checked.ap]
  | completed hbuild =>
    simp only [check, kind, object, required_of_member hbuild Build.check_of_speltAs, Checked.map]

end Reading

end CommitStatus
