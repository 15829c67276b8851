import CommitStatus.Proofs.Report.Handling
import Mathlib.Logic.Function.Iterate

/-!
# Handling an event step by step

Who handles an event stops between any two of its steps: its source is found, its revision is found, its marker is set,
its status is prepared and on its way, the answer is in (`Phase.next`). Without anything else in between, the steps come
to what handling the event at once comes to (`iterate_next`).

- what one step can do, and on what grounds (`Move`, `move_next`); what steps keep is shown by going through these;
- only one step sets a marker (`next_marking`), and no other step changes one (`next_markers`);
- what obtaining a client and sending through one keep of the clients is kept by every step (`next_clients`);
- a phase is one before or behind that step (`Phase.isPast`), and one in which the event is reported or not
  (`Phase.isChosen`, `Phase.isEntered`);
- the completion of a build looks at no marker (`next_markedAs`).
-/

namespace CommitStatus

/-- The markers are others. -/
def World.markedAs (markers : Markers) (w : World) : World := w.replace markers w.replies

/-- The markers are others. -/
def Outcome.markedAs (markers : Markers) (o : Outcome) : Outcome := o.replace markers o.world.replies

/-- How handling an event comes to its end. -/
inductive Ending
  /-- No source is found for it. -/
  | unlocated
  /-- No revision is found for it. -/
  | unresolved
  /-- Its build was marked before. -/
  | late
  /-- It was reported, with whatever success. -/
  | reported
  deriving DecidableEq, Repr

/-- How far the handling of an event is. -/
inductive Phase
  /-- The event is there. -/
  | arrived
  /-- The source of a checkout is found. -/
  | located (source : Source)
  /-- The revision of a checkout is found. -/
  | resolved (source : Source)
  /-- The event is to be reported. -/
  | cleared (source : Source)
  /-- It is being reported: its status is on its way, and the answer is awaited. -/
  | waiting (o : Outcome) (s : Sending)
  /-- It is over. -/
  | ended (e : Ending) (o : Outcome)

namespace Phase

/-- Come to an end. -/
def close (event : Event) (e : Ending) (o : Outcome) : Phase × World :=
  (.ended e (o.after [.event event.kind]), o.world)

/-- The next step of handling an event, in the world as it is by then. -/
def next (n : Notifier) (event : Event) (w : World) : Phase → Phase × World
  | .arrived =>
    match n.findSource event.build.job, event with
    | .error t, _ => close event .unlocated ((Outcome.start w).fail t)
    | .ok none, _ => close event .unlocated (.start w)
    | .ok (some source), .checkout .. => (.located source, w)
    | .ok (some source), .completed _ => (.cleared source, w)
  | .located source =>
    match n.findRevision source event.build with
    | .error t => close event .unresolved ((Outcome.start w).fail t)
    | .ok none => close event .unresolved (.start w)
    | .ok (some _) => (.resolved source, w)
  | .resolved source =>
    match w.markers.add event.build.id with
    | (false, _) => close event .late (.start w)
    | (true, markers) => (.cleared source, { w with markers })
  | .cleared source =>
    match n.prepare source event.build w with
    | (o, none) => close event .reported (o.settle event.kind event.build.id)
    | (o, some s) => (.waiting o s, o.world)
  | .waiting o s =>
    close event .reported
      ((Notifier.sendStatus event.build s.client s.status { o with world := w }).settle event.kind event.build.id)
  | .ended e o => (.ended e o, w)

/-- The next step sets a marker, or finds it set. -/
def isMarking : Phase → Bool
  | .resolved _ => true
  | _ => false

/-- The step that sets a marker, or finds it set, is past. -/
def isPast : Phase → Bool
  | .cleared _ | .waiting .. | .ended .late _ | .ended .reported _ => true
  | _ => false

/-- The event is to be reported, is being reported or was reported. -/
def isChosen : Phase → Bool
  | .cleared _ | .waiting .. | .ended .reported _ => true
  | _ => false

/-- The report of the event has begun. -/
def isEntered : Phase → Bool
  | .waiting .. | .ended .reported _ => true
  | _ => false

variable {n : Notifier} {event : Event} {w : World} {φ : Phase}

theorem isChosen_of_isEntered (h : φ.isEntered = true) : φ.isChosen = true := by
  cases φ with
  | waiting o s => rfl
  | ended e o => cases e <;> first | rfl | cases h
  | _ => cases h

theorem isPast_of_isMarking (h : φ.isMarking = true) : φ.isPast = false := by
  cases φ with
  | resolved source => rfl
  | _ => cases h

/-! ## What one step does -/

/-- What one step of handling an event can do, and on what grounds. -/
inductive Move (n : Notifier) (event : Event) (w : World) : Phase → Phase × World → Prop
  /-- No source is found, or trouble. -/
  | unlocated (t : Option Trouble) (hs : ∀ source, n.findSource event.build.job ≠ .ok (some source)) :
    Move n event w .arrived (close event .unlocated { Outcome.start w with trouble := t })
  | located {source : Source} (hk : event.kind = .checkout) (hs : n.findSource event.build.job = .ok (some source)) :
    Move n event w .arrived (.located source, w)
  /-- A completion is reported at once. -/
  | cleared {source : Source} (hk : event.kind = .completed) (hs : n.findSource event.build.job = .ok (some source)) :
    Move n event w .arrived (.cleared source, w)
  /-- No revision is found, or trouble. -/
  | unresolved {source : Source} (t : Option Trouble)
    (hr : ∀ revision, n.findRevision source event.build ≠ .ok (some revision)) :
    Move n event w (.located source) (close event .unresolved { Outcome.start w with trouble := t })
  | resolved {source : Source} {revision : Revision}
    (hr : n.findRevision source event.build = .ok (some revision)) :
    Move n event w (.located source) (.resolved source, w)
  | late {source : Source} (hm : w.markers.has event.build.id = true) :
    Move n event w (.resolved source) (close event .late (.start w))
  | marked {source : Source} (hm : w.markers.has event.build.id = false) :
    Move n event w (.resolved source) (.cleared source, { w with markers := (w.markers.add event.build.id).2 })
  /-- There is nothing to send. -/
  | silent {source : Source} {o : Outcome} (hp : n.prepare source event.build w = (o, none)) :
    Move n event w (.cleared source) (close event .reported (o.settle event.kind event.build.id))
  | sent {source : Source} {o : Outcome} {s : Sending} (hp : n.prepare source event.build w = (o, some s)) :
    Move n event w (.cleared source) (.waiting o s, o.world)
  | answered (o : Outcome) (s : Sending) : Move n event w (.waiting o s) (close event .reported
      ((Notifier.sendStatus event.build s.client s.status { o with world := w }).settle event.kind event.build.id))
  | stayed (e : Ending) (o : Outcome) : Move n event w (.ended e o) (.ended e o, w)

/-- Each step does one of these. -/
theorem move_next (n : Notifier) (event : Event) (w : World) (φ : Phase) : Move n event w φ (φ.next n event w) := by
  cases φ with
  | arrived =>
    simp only [next]
    rcases hs : n.findSource event.build.job with t | _ | source
    · exact .unlocated (some t) (by simp [hs])
    · exact .unlocated none (by simp [hs])
    · cases event with
      | checkout build workspace => exact .located rfl hs
      | completed build => exact .cleared rfl hs
  | located source =>
    simp only [next]
    rcases hr : n.findRevision source event.build with t | _ | revision
    · exact .unresolved (some t) (by simp [hr])
    · exact .unresolved none (by simp [hr])
    · exact .resolved hr
  | resolved source =>
    simp only [next]
    cases hm : w.markers.has event.build.id with
    | true =>
      have hadd : w.markers.add event.build.id = (false, w.markers) := if_pos hm
      rw [hadd]
      exact .late hm
    | false =>
      have hadd : w.markers.add event.build.id = (true, (w.markers.add event.build.id).2) := by
        simp [Markers.add, hm]
      rw [hadd]
      exact .marked hm
  | cleared source =>
    simp only [next]
    rcases hp : n.prepare source event.build w with ⟨o, _ | s⟩
    · exact .silent hp
    · exact .sent hp
  | waiting o s => exact .answered o s
  | ended e o => exact .stayed e o

/-! ## The steps come to what handling at once comes to -/

/-- An event that is over stays as it is. -/
theorem iterate_close (n : Notifier) (event : Event) (e : Ending) (o : Outcome) :
    ∀ k, (fun s : Phase × World => s.1.next n event s.2)^[k] (close event e o) = close event e o
  | 0 => rfl
  | k + 1 => by
    rw [Function.iterate_succ_apply]
    exact iterate_close n event e o k

/-- Two steps report an event that is to be reported. -/
theorem iterate_cleared (n : Notifier) (source : Source) (event : Event) (w : World) (k : Nat) :
    (fun s : Phase × World => s.1.next n event s.2)^[k + 2] (.cleared source, w) =
      close event .reported (n.notifySafely event.kind source event.build w) := by
  rw [Function.iterate_succ_apply, Notifier.notifySafely, Notifier.notify]
  rcases hp : n.prepare source event.build w with ⟨o, _ | s⟩
  · have h : next n event w (.cleared source) = close event .reported (o.settle event.kind event.build.id) := by
      simp only [next, hp]
    rw [h, iterate_close]
    rfl
  · have h : next n event w (.cleared source) = (.waiting o s, o.world) := by simp only [next, hp]
    rw [h, Function.iterate_succ_apply]
    exact iterate_close ..

/-- **Five steps in a row handle an event.** -/
theorem iterate_next (n : Notifier) (event : Event) (w : World) :
    ∃ e, (fun s : Phase × World => s.1.next n event s.2)^[5] (.arrived, w) =
      (.ended e (n.handle event w), (n.handle event w).world) := by
  rw [Notifier.handle_eq, Notifier.accept]
  rw [Function.iterate_succ_apply]
  cases hs : n.findSource event.build.job with
  | error t =>
    have h : next n event w .arrived = close event .unlocated ((Outcome.start w).fail t) := by simp only [next, hs]
    exact ⟨.unlocated, by rw [h, iterate_close]; rfl⟩
  | ok found =>
  cases found with
  | none =>
    have h : next n event w .arrived = close event .unlocated (.start w) := by simp only [next, hs]
    exact ⟨.unlocated, by rw [h, iterate_close]; rfl⟩
  | some source =>
  cases event with
  | completed build =>
    have h : next n (.completed build) w .arrived = (.cleared source, w) := by simp only [next, hs]
    exact ⟨.reported, by rw [h, iterate_cleared]; rfl⟩
  | checkout build workspace =>
    have h : next n (.checkout build workspace) w .arrived = (.located source, w) := by simp only [next, hs]
    rw [h, Function.iterate_succ_apply]
    cases hr : n.findRevision source build with
    | error t =>
      have h : next n (.checkout build workspace) w (.located source) =
          close (.checkout build workspace) .unresolved ((Outcome.start w).fail t) := by
        simp only [next, Event.build, hr]
      exact ⟨.unresolved, by rw [h, iterate_close]; simp only [hr]; rfl⟩
    | ok revision =>
    cases revision with
    | none =>
      have h : next n (.checkout build workspace) w (.located source) =
          close (.checkout build workspace) .unresolved (.start w) := by
        simp only [next, Event.build, hr]
      exact ⟨.unresolved, by rw [h, iterate_close]; simp only [hr]; rfl⟩
    | some revision =>
      have h : next n (.checkout build workspace) w (.located source) = (.resolved source, w) := by
        simp only [next, Event.build, hr]
      rw [h, Function.iterate_succ_apply]
      rcases ha : w.markers.add build.id with ⟨_ | _, markers⟩
      · have h : next n (.checkout build workspace) w (.resolved source) =
            close (.checkout build workspace) .late (.start w) := by
          simp only [next, Event.build, ha]
        exact ⟨.late, by rw [h, iterate_close]; simp only [hr, ha]; rfl⟩
      · have h : next n (.checkout build workspace) w (.resolved source) = (.cleared source, { w with markers }) := by
          simp only [next, Event.build, ha]
        exact ⟨.reported, by rw [h, iterate_cleared]; simp only [hr, ha]; rfl⟩

/-! ## Markers -/

/-- The one step that sets a marker: the event is to be reported if the marker was not set before. -/
theorem next_marking (n : Notifier) (event : Event) (w : World) (h : φ.isMarking = true) :
    (φ.next n event w).1.isPast = true ∧ (φ.next n event w).1.isChosen = !w.markers.has event.build.id ∧
      (φ.next n event w).2.markers = (w.markers.add event.build.id).2 := by
  have hmove := move_next n event w φ
  generalize φ.next n event w = after at hmove ⊢
  cases hmove with
  | late hm =>
    have hadd : w.markers.add event.build.id = (false, w.markers) := if_pos hm
    rw [hm, hadd]
    exact ⟨rfl, rfl, rfl⟩
  | marked hm =>
    rw [hm]
    exact ⟨rfl, rfl, rfl⟩
  | _ => cases h

/-- No other step changes a marker. -/
theorem next_markers (h : φ.isMarking = false) : (φ.next n event w).2.markers = w.markers := by
  have hmove := move_next n event w φ
  generalize φ.next n event w = after at hmove ⊢
  cases hmove with
  | late | marked => cases h
  | @silent source o hp =>
    have hm := (Notifier.prepare_untouched n source event.build w).2.1
    rw [hp] at hm
    show (o.settle event.kind event.build.id).world.markers = _
    rw [(Notifier.settle_untouched _ _ _).1]
    exact hm
  | @sent source o s hp =>
    have hm := (Notifier.prepare_untouched n source event.build w).2.1
    rw [hp] at hm
    exact hm
  | answered o s =>
    show ((Notifier.sendStatus _ _ _ _).settle event.kind event.build.id).world.markers = _
    rw [(Notifier.settle_untouched _ _ _).1, (Notifier.sendStatus_eq _ _ _ _).2]
  | _ => rfl

/-- Nor does another step decide whether a checkout is reported. -/
theorem next_isPast_isChosen (hk : event.kind = .checkout) (h : φ.isMarking = false) :
    (φ.next n event w).1.isPast = φ.isPast ∧ (φ.next n event w).1.isChosen = φ.isChosen := by
  have hmove := move_next n event w φ
  generalize φ.next n event w = after at hmove ⊢
  cases hmove with
  | late | marked => cases h
  | cleared hk' =>
    rw [hk] at hk'
    cases hk'
  | _ => exact ⟨rfl, rfl⟩

/-! ## Clients -/

/-- A property of the clients that obtaining one and sending through one keep is kept by every step. -/
theorem next_clients {P : ClientPool → Prop} (hobtain : ∀ p source head, P p → P (p.obtain n.env source head).1)
    (hsend : ∀ p replies client status, P p → P (p.send replies client status).2.1) (h : P w.clients) :
    P (φ.next n event w).2.clients := by
  have hprepared : ∀ source, P (n.prepare source event.build w).1.world.clients := by
    intro source
    rcases (Notifier.prepare_untouched n source event.build w).2.2.2 with hc | ⟨head, hc⟩
    · rw [hc]
      exact h
    · rw [hc]
      exact hobtain _ _ head h
  have hmove := move_next n event w φ
  generalize φ.next n event w = after at hmove ⊢
  cases hmove with
  | @silent source o hp =>
    have hc := hprepared source
    rw [hp] at hc
    show P (o.settle event.kind event.build.id).world.clients
    rw [(Notifier.settle_untouched _ _ _).1]
    exact hc
  | @sent source o s hp =>
    have hc := hprepared source
    rw [hp] at hc
    exact hc
  | answered o s =>
    show P ((Notifier.sendStatus _ _ _ { o with world := w }).settle event.kind event.build.id).world.clients
    rw [(Notifier.settle_untouched _ _ _).1, (Notifier.sendStatus_eq _ _ _ _).2]
    exact hsend _ _ _ _ h
  | _ => exact h

/-! ## What a step does not look at -/

/-- The markers are others, also those that an outcome tells of. -/
def markedAs (markers : Markers) : Phase → Phase
  | .waiting o s => .waiting (o.markedAs markers) s
  | .ended e o => .ended e (o.markedAs markers)
  | φ => φ

/-- A preparation does not look at the markers. -/
theorem prepare_markedAs (n : Notifier) (source : Source) (build : Build) (w : World) (markers : Markers) :
    n.prepare source build (w.markedAs markers) =
      ((n.prepare source build w).1.markedAs markers, (n.prepare source build w).2) := by
  have hreplies := (Notifier.prepare_untouched n source build w).2.2.1
  simp only [World.markedAs, Outcome.markedAs, Notifier.prepare_replace, hreplies]

/-- Sending a status does not look at the markers. -/
theorem sendStatus_markedAs (build : Build) (client : Client) (status : Status) (o : Outcome) (markers : Markers) :
    Notifier.sendStatus build client status (o.markedAs markers) =
      (Notifier.sendStatus build client status o).markedAs markers := by
  have hw : (o.markedAs markers).world.clients.send (o.markedAs markers).world.replies client status =
      o.world.clients.send o.world.replies client status := rfl
  simp only [Notifier.sendStatus, hw]
  rcases o.world.clients.send o.world.replies client status with ⟨posts, clients, replies, _ | t⟩
  · cases build.result <;> rfl
  · rfl

/-- Keeping trouble from going further does not look at the markers. -/
theorem settle_markedAs (kind : EventKind) (id : String) (o : Outcome) (markers : Markers) :
    (o.markedAs markers).settle kind id = (o.settle kind id).markedAs markers :=
  Notifier.settle_change kind id o (World.markedAs markers) fun posts => posts

/-- No step but the one that sets a marker looks at the markers. -/
theorem next_markedAs (markers : Markers) (h : φ.isMarking = false) :
    (φ.markedAs markers).next n event (w.markedAs markers) =
      ((φ.next n event w).1.markedAs markers, (φ.next n event w).2.markedAs markers) := by
  cases φ with
  | arrived =>
    simp only [markedAs, next]
    rcases n.findSource event.build.job with t | _ | source
    · rfl
    · rfl
    · cases event <;> rfl
  | located source =>
    simp only [markedAs, next]
    rcases n.findRevision source event.build with t | _ | revision <;> rfl
  | resolved source => cases h
  | cleared source =>
    simp only [markedAs, next, prepare_markedAs]
    rcases n.prepare source event.build w with ⟨o, _ | s⟩
    · show close event .reported ((o.markedAs markers).settle event.kind event.build.id) = _
      rw [settle_markedAs]
      rfl
    · rfl
  | waiting o s =>
    show close event .reported ((Notifier.sendStatus event.build s.client s.status
      (({ o with world := w } : Outcome).markedAs markers)).settle event.kind event.build.id) = _
    rw [sendStatus_markedAs, settle_markedAs]
    rfl
  | ended e o => rfl

/-! ## What is found on the way -/

/-- There are a source and a revision for an event. -/
def Found (n : Notifier) (event : Event) : Prop :=
  ∃ source revision, n.findSource event.build.job = .ok (some source) ∧
    n.findRevision source event.build = .ok (some revision)

/-- A phase that the handling of an event can be in. -/
structure WellFormed (n : Notifier) (event : Event) (φ : Phase) : Prop where
  located : ∀ source, φ = .located source →
    event.kind = .checkout ∧ n.findSource event.build.job = .ok (some source)
  marking : φ.isMarking = true → event.kind = .checkout ∧ Found n event
  past : φ.isPast = true → event.kind = .checkout → Found n event

/-- An event is there to begin with. -/
theorem wellFormed_arrived (n : Notifier) (event : Event) : WellFormed n event .arrived where
  located _ h := by cases h
  marking h := by cases h
  past h := by cases h

/-- One step keeps a phase one that handling can be in. -/
theorem WellFormed.next (h : WellFormed n event φ) (w : World) : WellFormed n event (φ.next n event w).1 := by
  have hmove := move_next n event w φ
  generalize φ.next n event w = after at hmove ⊢
  cases hmove with
  | unlocated | unresolved => exact ⟨nofun, nofun, nofun⟩
  | located hk hs =>
    refine ⟨?_, nofun, nofun⟩
    rintro _ ⟨⟩
    exact ⟨hk, hs⟩
  | cleared hk =>
    refine ⟨nofun, nofun, fun _ hk' => ?_⟩
    rw [hk] at hk'
    cases hk'
  | resolved hr =>
    obtain ⟨hk, hs⟩ := h.located _ rfl
    exact ⟨nofun, fun _ => ⟨hk, _, _, hs, hr⟩, nofun⟩
  | late | marked => exact ⟨nofun, nofun, fun _ _ => (h.marking rfl).2⟩
  | silent | sent | answered => exact ⟨nofun, nofun, fun _ => h.past rfl⟩
  | stayed => exact h

end Phase

end CommitStatus
