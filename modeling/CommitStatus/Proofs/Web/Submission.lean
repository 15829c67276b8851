import CommitStatus.Build.Writer
import CommitStatus.Json.Writer
import CommitStatus.Proofs.Report.Handling
import CommitStatus.Web.Event

/-!
# Runs of the web service

The bodies of requests are handled one after the other (`processAll`). A body either is rejected, and changes nothing,
or is an event that is handled (`processEvent_eq`); so what holds of the clients that are built holds of those that are
kept throughout a run (`worldAfter_keeps`).
-/

namespace CommitStatus.Web

/-- The body of a request about an event. -/
structure Submission where
  kind : EventKind
  body : List UInt8
  deriving DecidableEq, Repr

/-- An event as it is sent. -/
def Submission.ofEvent (event : Event) : Submission := ⟨event.kind, Text.Utf8.encode event.toJson.chars⟩

/-- Handle bodies one after the other: what became of each, and the answers. -/
def processAll (n : Notifier) : List Submission → World → List (Outcome × Option Answer)
  | [], _ => []
  | s :: rest, w => processEvent n s.kind s.body w :: processAll n rest (processEvent n s.kind s.body w).1.world

/-- The world after bodies were handled. -/
def worldAfter (n : Notifier) (submissions : List Submission) (w : World) : World :=
  submissions.foldl (fun w s => (processEvent n s.kind s.body w).1.world) w

variable {n : Notifier} {w : World}

/-- Containing what went wrong changes neither the world nor the posts nor the build's log. -/
theorem contain_untouched (o : Outcome) :
    (contain o).world = o.world ∧ (contain o).posts = o.posts ∧ (contain o).remarks = o.remarks := by
  unfold contain
  cases o.trouble with
  | none => exact ⟨rfl, rfl, rfl⟩
  | some t => dsimp only; split <;> exact ⟨rfl, rfl, rfl⟩

/-- Without trouble there is nothing to contain. -/
theorem contain_of_none {o : Outcome} (h : o.trouble = none) : contain o = o := by
  simp only [contain, h]

/-- Trouble is counted and logged, and goes no further, unless the work was called off. -/
theorem contain_of_some {o : Outcome} {t : Trouble} (h : o.trouble = some t) (hc : t.isCancelled = false) :
    contain o = { (o.count (.error .dispatch)).log [dispatchRecord] with trouble := none } := by
  simp only [contain, h, hc, Bool.false_eq_true, if_false]

/-- Without trouble the answer is the build's log. -/
theorem answer?_of_none {o : Outcome} (h : o.trouble = none) : answer? o = some (.handled o.remarks.entries) := by
  simp only [answer?, h]

/-- A body is rejected and changes nothing, or it is an event that is handled. -/
theorem processEvent_eq (n : Notifier) (kind : EventKind) (body : List UInt8) (w : World) :
    (processEvent n kind body w).1.world =
      match Event.read kind body with
      | .error _ => w
      | .ok event => (n.handle event w).world := by
  unfold processEvent
  cases Event.read kind body with
  | error e => rfl
  | ok event => exact (contain_untouched _).1

/-- What holds of the clients that are built for sources that are found holds of those that are kept after a run. -/
theorem worldAfter_keeps {capacity : Nat} {R : ClientKey → Client → Prop}
    (hfresh : ∀ (p : ClientPool) job source head login, n.findSource job = .ok (some source) →
      (source.login n.env).2 = .ok login → R (source.clientKey head) (p.fresh source head login))
    (submissions : List Submission) :
    ∀ {w : World}, w.clients.Keeps capacity R → (worldAfter n submissions w).clients.Keeps capacity R := by
  induction submissions with
  | nil =>
    intro w h
    exact h
  | cons s rest ih =>
    intro w h
    have hnext : (processEvent n s.kind s.body w).1.world.clients.Keeps capacity R := by
      rw [processEvent_eq]
      cases Event.read s.kind s.body with
      | error e => exact h
      | ok event => exact Notifier.handle_keeps hfresh h
    exact ih hnext

end CommitStatus.Web
