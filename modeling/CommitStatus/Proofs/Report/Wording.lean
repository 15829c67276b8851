import CommitStatus.Proofs.Report.Admission
import CommitStatus.Proofs.Text.Lines

/-!
# How a build is described

The description of a build is posted as it is if it can be shown (`Presentable`): it is not blank, does not begin like
markup and has two lines at most. In place of any other one the text for the result of the build is posted, and the
build's log explains why a description was dropped (`Worded`).

- A status that is prepared is worded so (`worded_of_prepare`), and nothing that is said later explains anything
  (`explanations_sendStatus`, `explanations_settle`).
- One step of handling an event keeps what is on its way and what was posted worded so (`Phase.Worded.next`); so do
  calls whose steps come in any order (`System.forall_calls`).
-/

namespace CommitStatus

open Description (Objection)

/-! ## Descriptions that can be shown -/

/-- A text of two lines at most. -/
def Text.FewLines (s : String) : Prop := ∃ n ≤ 2, HasLines s.toList n

/-- A text has few lines if few are counted. -/
theorem Text.fewLines_iff {s : String} : FewLines s ↔ lineCount s ≤ 2 := by
  simp only [FewLines, hasLines_iff]
  constructor
  · rintro ⟨_, hle, rfl⟩
    exact hle
  · intro hle
    exact ⟨_, hle, rfl⟩

/-- A description that can be shown. -/
structure Presentable (description : String) : Prop where
  notBlank : Text.isBlankText description = false
  notMarkup : description.toList.head? ≠ some '<'
  fewLines : Text.FewLines description

/-- The text for a result can be shown. -/
theorem presentable_defaultDescription (result : Option Result) : Presentable (defaultDescription result) := by
  have hshown : Text.isBlankText (defaultDescription result) = false ∧
      (defaultDescription result).toList.head? ≠ some '<' ∧ Text.lineCount (defaultDescription result) ≤ 2 := by
    rcases result with _ | _ | _ | _ | _ | _ <;> decide +kernel
  exact ⟨hshown.1, hshown.2.1, Text.fewLines_iff.2 hshown.2.2⟩

namespace Description

variable {description : Option String} {d : String}

theorem objection?_of_markup (h : d.toList.head? = some '<') : objection? d = some .markup := if_pos h

theorem objection?_of_manyLines (h : d.toList.head? ≠ some '<') (hlines : ¬Text.FewLines d) :
    objection? d = some .manyLines := by
  rw [Text.fewLines_iff, Nat.not_le] at hlines
  rw [objection?, if_neg h, if_pos hlines]

theorem objection?_eq_none_iff : objection? d = none ↔ d.toList.head? ≠ some '<' ∧ Text.FewLines d := by
  by_cases hmarkup : d.toList.head? = some '<'
  · simp [objection?_of_markup hmarkup, hmarkup]
  by_cases hlines : Text.FewLines d
  · have hcount : ¬2 < Text.lineCount d := Nat.not_lt.2 (Text.fewLines_iff.1 hlines)
    simp [objection?, hmarkup, hcount, hlines]
  · simp [objection?_of_manyLines hmarkup hlines, hlines]

/-- A description that can be shown is kept as it is. -/
theorem describe_of_presentable (h : Presentable d) (result : Option Result) :
    describe result (keep? (some d)) = d := by
  have hkept : keep? (some d) = some d := by
    simp [keep?, objection?_eq_none_iff.2 ⟨h.notMarkup, h.fewLines⟩]
  rw [hkept, describe, h.notBlank, if_neg Bool.false_ne_true]

/-- In place of any other one, or of none, stands the text for the result. -/
theorem describe_of_not_presentable (h : ¬∃ d, description = some d ∧ Presentable d) (result : Option Result) :
    describe result (keep? description) = defaultDescription result := by
  cases description with
  | none => rfl
  | some d =>
    cases hobjection : objection? d with
    | some objection =>
      have hdropped : keep? (some d) = none := by simp [keep?, hobjection]
      rw [hdropped, describe]
    | none =>
      have hkept : keep? (some d) = some d := by simp [keep?, hobjection]
      obtain ⟨hmarkup, hlines⟩ := objection?_eq_none_iff.1 hobjection
      have hblank : Text.isBlankText d = true := by
        by_contra hnot
        exact h ⟨d, rfl, Bool.eq_false_iff.2 hnot, hmarkup, hlines⟩
      rw [hkept, describe, hblank, if_pos rfl]

/-- What stands in the end can be shown. -/
theorem presentable_describe (description : Option String) (result : Option Result) :
    Presentable (describe result (keep? description)) := by
  by_cases h : ∃ d, description = some d ∧ Presentable d
  · obtain ⟨d, rfl, hd⟩ := h
    rw [describe_of_presentable hd]
    exact hd
  · rw [describe_of_not_presentable h]
    exact presentable_defaultDescription result

/-- It is the description just if this can be shown. -/
theorem eq_describe_iff {result : Option Result} :
    description = some (describe result (keep? description)) ↔ ∃ d, description = some d ∧ Presentable d := by
  constructor
  · intro h
    exact ⟨_, h, presentable_describe description result⟩
  · rintro ⟨d, rfl, hd⟩
    rw [describe_of_presentable hd]

end Description

/-! ## What the log explains -/

/-- The lines of a build's log that explain why its description was dropped. -/
def BuildLog.explanations (log : BuildLog) : List String :=
  log.filterMap fun
    | .line text => if text = Objection.markup.line ∨ text = Objection.manyLines.line then some text else none
    | .error .. => none

theorem BuildLog.explanations_append (log more : BuildLog) :
    explanations (log ++ more) = explanations log ++ explanations more := List.filterMap_append

/-- The lines on a description explain, and nothing else that is said before a status is sent does. -/
theorem BuildLog.explanations_opening (revision : Revision) (description : Option String) :
    explanations ((Notifier.openingLine revision :: Description.lines description).map .line) =
      Description.lines description := by
  have hopening : explanations [.line (Notifier.openingLine revision)] = [] := by
    cases revision with
    | pullRequest head pull =>
      show explanations [.line "[Bitbucket] Notifying pull request build result"] = []
      decide +kernel
    | _ =>
      show explanations [.line "[Bitbucket] Notifying commit build result"] = []
      decide +kernel
  have hlines : explanations ((Description.lines description).map .line) = Description.lines description := by
    unfold Description.lines
    rcases description.bind Description.objection? with _ | _ | _ <;> decide +kernel
  rw [List.map_cons, ← List.singleton_append, explanations_append, hopening, hlines, List.nil_append]

/-- A build's post and log are worded as its description asks for: the description is posted as it is if it can be
shown, and else the text for the result; and the log explains just why a description was dropped. -/
structure Build.Worded (build : Build) (log : BuildLog) (p : Post) : Prop where
  verbatim : build.description = some p.status.description ↔ ∃ d, build.description = some d ∧ Presentable d
  byDefault : (¬∃ d, build.description = some d ∧ Presentable d) →
    p.status.description = defaultDescription build.result
  presentable : Presentable p.status.description
  markup : ∀ d, build.description = some d → d.toList.head? = some '<' → log.explanations = [Objection.markup.line]
  manyLines : ∀ d, build.description = some d → d.toList.head? ≠ some '<' → ¬Text.FewLines d →
    log.explanations = [Objection.manyLines.line]
  nothing : (∀ d, build.description = some d → d.toList.head? ≠ some '<' ∧ Text.FewLines d) → log.explanations = []

/-- What is posted for a build and what is said of its description fit together. -/
theorem Build.worded_of_describe {build : Build} {log : BuildLog} {p : Post}
    (hposted : p.status.description = describe build.result (Description.keep? build.description))
    (hlog : log.explanations = Description.lines build.description) : build.Worded log p := by
  constructor
  case verbatim =>
    rw [hposted]
    exact Description.eq_describe_iff
  case byDefault =>
    intro h
    rw [hposted, Description.describe_of_not_presentable h]
  case presentable =>
    rw [hposted]
    exact Description.presentable_describe build.description build.result
  case markup =>
    intro d hd hmarkup
    rw [hlog, hd, Description.lines, Option.bind_some, Description.objection?_of_markup hmarkup]
    rfl
  case manyLines =>
    intro d hd hmarkup hlines
    rw [hlog, hd, Description.lines, Option.bind_some, Description.objection?_of_manyLines hmarkup hlines]
    rfl
  case nothing =>
    intro hfits
    rw [hlog]
    cases hd : build.description with
    | none => rfl
    | some d =>
      rw [Description.lines, Option.bind_some, Description.objection?_eq_none_iff.2 (hfits d hd)]
      rfl

/-- The log may go on as long as it explains nothing more. -/
theorem Build.Worded.congr {build : Build} {log log' : BuildLog} {p : Post} (h : build.Worded log p)
    (hlog : log'.explanations = log.explanations) : build.Worded log' p :=
  ⟨h.verbatim, h.byDefault, h.presentable, fun d hd hmarkup => hlog.trans (h.markup d hd hmarkup),
    fun d hd hmarkup hlines => hlog.trans (h.manyLines d hd hmarkup hlines), fun hfits => hlog.trans (h.nothing hfits)⟩

/-! ## What is prepared and what is posted -/

namespace Notifier

variable {n : Notifier} {source : Source} {build : Build} {w : World}

/-- A status that is prepared is worded as the description of its build asks for. -/
theorem worded_of_prepare {s : Sending} (h : (n.prepare source build w).2 = some s) :
    build.Worded (n.prepare source build w).1.remarks s.post := by
  obtain ⟨hd, revision, hash, clients, records, url, state, hr, hh, ho, hl, hs, hstatus⟩ := prepare_some h
  apply Build.worded_of_describe
  · rw [show s.post.status = s.status from rfl, hstatus]
    rfl
  · rw [prepare_eq_draft hd hr hh ho]
    simp only [draft, hl, hs]
    exact BuildLog.explanations_opening revision build.description

/-- What is said of a status that is sent explains nothing. -/
theorem explanations_sendStatus (build : Build) (client : Client) (status : Status) (o : Outcome) :
    (sendStatus build client status o).remarks.explanations = o.remarks.explanations := by
  have hnotified : BuildLog.explanations [.line "[Bitbucket] Build result notified"] = [] := by decide +kernel
  unfold sendStatus
  rcases o.world.clients.send o.world.replies client status with ⟨posts, clients, replies, _ | t⟩
  · cases build.result with
    | none => rfl
    | some result =>
      show BuildLog.explanations (o.remarks ++ [.line "[Bitbucket] Build result notified"]) = _
      rw [BuildLog.explanations_append, hnotified, List.append_nil]
  · rfl

/-- Nor does what is said of trouble. -/
theorem explanations_settle (kind : EventKind) (id : String) (o : Outcome) :
    (o.settle kind id).remarks.explanations = o.remarks.explanations := by
  unfold Outcome.settle
  split
  · rfl
  · split
    · rfl
    · rw [BuildLog.explanations_append]
      exact List.append_nil _

end Notifier

/-! ## Step by step -/

namespace Phase

/-- What was said so far. -/
def remarks : Phase → BuildLog
  | .waiting o _ => o.remarks
  | .ended _ o => o.remarks
  | _ => []

/-- What was posted, or is on its way with nothing posted before, is worded as the description of the build asks for. -/
def Worded (event : Event) : Phase → Prop
  | .waiting o s => o.posts = [] ∧ event.build.Worded o.remarks s.post
  | .ended _ o => ∀ p ∈ o.posts, event.build.Worded o.remarks p
  | _ => True

variable {n : Notifier} {event : Event} {w : World} {φ : Phase}

theorem Worded.posts (h : φ.Worded event) : ∀ p ∈ φ.posts, event.build.Worded φ.remarks p := by
  cases φ with
  | waiting o s =>
    obtain ⟨hnil, hs⟩ := h
    intro p hp
    rw [Phase.posts, hnil, List.nil_append, List.mem_singleton] at hp
    rw [hp]
    exact hs
  | ended e o => exact h
  | _ =>
    intro p hp
    cases hp

/-- An end to which nothing was posted is worded in any way. -/
theorem worded_close (event : Event) (e : Ending) {o : Outcome} (h : o.posts = []) :
    (close event e o).1.Worded event := by
  intro p hp
  have hnil : (o.after [.event event.kind]).posts = [] := h
  rw [hnil] at hp
  cases hp

/-- One step keeps what is posted worded as the description of the build asks for. -/
theorem Worded.next (h : φ.Worded event) : (φ.next n event w).1.Worded event := by
  have hmove := move_next n event w φ
  generalize φ.next n event w = after at hmove ⊢
  cases hmove with
  | unlocated t => exact worded_close event .unlocated rfl
  | unresolved t => exact worded_close event .unresolved rfl
  | late => exact worded_close event .late rfl
  | located | cleared | resolved | marked => trivial
  | @silent source o hp =>
    have hposts := (Notifier.prepare_untouched n source event.build w).1
    rw [hp] at hposts
    exact worded_close event .reported ((Notifier.settle_untouched event.kind event.build.id o).2.trans hposts)
  | @sent source o s hp =>
    have hposts := (Notifier.prepare_untouched n source event.build w).1
    have hworded := Notifier.worded_of_prepare (congrArg Prod.snd hp)
    rw [hp] at hposts hworded
    exact ⟨hposts, hworded⟩
  | answered o s =>
    obtain ⟨hnil, hs⟩ := h
    intro p (hp : p ∈ ((Phase.waiting o s).next n event w).1.posts)
    rw [eq_post_of_next hnil hp]
    apply hs.congr
    exact (Notifier.explanations_settle _ _ _).trans (Notifier.explanations_sendStatus _ _ _ _)
  | stayed => exact h

end Phase

/-! ## Many calls at a time -/

/-- What holds of an event that has come, and is kept by every step, holds of all calls in every run. -/
theorem System.forall_calls {P : Event → Phase → Prop} (harrived : ∀ event, P event .arrived)
    (hnext : ∀ n event w φ, P event φ → P event (φ.next n event w).1) (turns : List Turn) :
    ∀ {σ : System}, (∀ c ∈ σ.calls, P c.event c.phase) → ∀ c ∈ (σ.takeTurns turns).calls, P c.event c.phase := by
  induction turns with
  | nil =>
    intro σ h
    exact h
  | cons t rest ih =>
    intro σ h
    apply ih
    cases t with
    | act a =>
      cases a with
      | arrive notifier worker event =>
        intro c hc
        rcases List.mem_append.1 hc with hc | hc
        · exact h c hc
        · cases List.mem_singleton.1 hc
          exact harrived event
      | advance i reply =>
        simp only [turn, step]
        cases hi : σ.calls[i]? with
        | none => exact h
        | some d =>
          intro c hc
          rcases List.mem_or_eq_of_mem_set hc with hc | rfl
          · exact h c hc
          · exact hnext _ _ _ _ (h d (List.mem_of_getElem? hi))
    | relook i again =>
      simp only [turn]
      cases hi : σ.calls[i]? with
      | none => exact h
      | some d =>
        dsimp only
        split
        · intro c hc
          rcases List.mem_or_eq_of_mem_set hc with hc | rfl
          · exact h c hc
          · exact h d (List.mem_of_getElem? hi)
        · exact h

/-- What handling an event posts is worded as the description of the build asks for. -/
theorem Notifier.worded_of_mem_posts {n : Notifier} {event : Event} {w : World} {p : Post}
    (h : p ∈ (n.handle event w).posts) : event.build.Worded (n.handle event w).remarks p := by
  obtain ⟨e, hsteps⟩ := Phase.iterate_next n event w
  have hworded : ∀ k, ((fun s : Phase × World => s.1.next n event s.2)^[k] (.arrived, w)).1.Worded event := by
    intro k
    induction k with
    | zero => trivial
    | succ k ih =>
      rw [Function.iterate_succ_apply']
      exact ih.next
  have hended := hworded 5
  rw [hsteps] at hended
  exact hended p h

end CommitStatus
