import CommitStatus.Proofs.Report.Interleaving

/-!
# Runs of events

Events are handled one after the other (`Notifier.handleAll`). Whether an event comes to be reported hangs on what is
found for it (`Notifier.candidate`) and, for a checkout, on the marker of its build and on no other (`accept_eq`).

- An event that is accepted marks its build if it is a checkout, and no event does more to the markers
  (`markers_handle`, `has_handle_iff`).
- A checkout that posts finds its build unmarked and leaves it marked (`has_of_posts_checkout`).
-/

namespace CommitStatus

/-! ## Acceptance and markers -/

/-- The markers once an event was accepted: a checkout marks its build. -/
def Event.mark (m : Markers) : Event → Markers
  | .checkout build _ => (m.add build.id).2
  | .completed _ => m

/-- A checkout comes too late when its build is marked. -/
def Event.isLate (m : Markers) : Event → Bool
  | .checkout build _ => m.has build.id
  | .completed _ => false

/-- After an event was accepted, its build is marked if it is a checkout, and else the same builds as before are. -/
theorem Event.has_mark_iff (m : Markers) (event : Event) (id : String) :
    (event.mark m).has id = true ↔ m.has id = true ∨ (event.kind = .checkout ∧ event.build.id = id) := by
  cases event with
  | checkout build workspace =>
    rw [mark, Markers.has_add_iff]
    exact or_congr_right ⟨fun h => ⟨rfl, h.symm⟩, fun h => h.2.symm⟩
  | completed build => simp [mark, kind]

namespace Notifier

variable {n : Notifier} {event : Event} {w : World}

/-- The source for which an event could be reported, whether or not its build is marked. -/
def candidate (n : Notifier) (event : Event) : Except Trouble (Option Source) :=
  match n.findSource event.build.job with
  | .error t => .error t
  | .ok none => .ok none
  | .ok (some source) =>
    match event with
    | .completed _ => .ok (some source)
    | .checkout build _ =>
      match n.findRevision source build with
      | .error t => .error t
      | .ok none => .ok none
      | .ok (some _) => .ok (some source)

/-- The candidate is the source that is found for the event's job. -/
theorem findSource_of_candidate {source : Source} (h : n.candidate event = .ok (some source)) :
    n.findSource event.build.job = .ok (some source) := by
  unfold candidate at h
  rcases hs : n.findSource event.build.job with t | _ | found
  · simp [hs] at h
  · simp [hs] at h
  · cases event with
    | completed build => simpa [hs] using h
    | checkout build workspace =>
      rcases hr : n.findRevision found build with t | _ | revision <;> simp_all

/-- An event is accepted for its candidate unless it comes too late. -/
theorem accept_eq (n : Notifier) (event : Event) (w : World) :
    n.accept event w =
      match n.candidate event with
      | .error t => .error t
      | .ok none => .ok none
      | .ok (some source) =>
        if event.isLate w.markers then .ok none
        else .ok (some (source, { w with markers := event.mark w.markers })) := by
  unfold accept candidate
  rcases n.findSource event.build.job with t | _ | source
  · rfl
  · rfl
  cases event with
  | completed build => rfl
  | checkout build workspace =>
    dsimp only
    rcases n.findRevision source build with t | _ | revision
    · rfl
    · rfl
    cases hm : w.markers.has build.id <;> simp [Markers.add, hm, Event.isLate, Event.mark]

/-- What an event that is accepted was accepted for, and the world in which it is reported. -/
theorem accept_eq_some_iff {source : Source} {w' : World} :
    n.accept event w = .ok (some (source, w')) ↔
      n.candidate event = .ok (some source) ∧ event.isLate w.markers = false ∧
        w' = { w with markers := event.mark w.markers } := by
  rw [accept_eq]
  rcases n.candidate event with t | _ | found
  · simp
  · simp
  · cases event.isLate w.markers <;> simp [eq_comm]

/-- The markers after an event. -/
theorem markers_handle (n : Notifier) (event : Event) (w : World) :
    (n.handle event w).world.markers =
      match n.candidate event with
      | .ok (some _) => if event.isLate w.markers then w.markers else event.mark w.markers
      | _ => w.markers := by
  rw [handle_eq, accept_eq]
  rcases n.candidate event with t | _ | source
  · rfl
  · rfl
  · cases event.isLate w.markers with
    | true => rfl
    | false => exact (notifySafely_eq n event.kind source event.build _).2

/-- After an event the same builds are marked as before, and its build if it is a checkout that could be reported. -/
theorem has_handle_iff {id : String} :
    (n.handle event w).world.markers.has id = true ↔ w.markers.has id = true ∨
      (event.kind = .checkout ∧ event.build.id = id ∧ ∃ source, n.candidate event = .ok (some source)) := by
  rw [markers_handle]
  rcases n.candidate event with t | _ | source
  · simp
  · simp
  · cases hlate : event.isLate w.markers with
    | false => simp [Event.has_mark_iff]
    | true =>
      -- a checkout comes too late because its build is marked
      cases event with
      | completed build => cases hlate
      | checkout build workspace =>
        simp only [if_true, Event.build]
        refine ⟨Or.inl, ?_⟩
        rintro (h | ⟨-, rfl, -⟩)
        · exact h
        · exact hlate

/-- An event leaves the markers of other builds alone. -/
theorem has_handle_of_ne {id : String} (h : event.build.id ≠ id) :
    (n.handle event w).world.markers.has id = w.markers.has id := by
  rw [Bool.eq_iff_iff, has_handle_iff]
  simp [h]

/-- A build that is marked stays marked. -/
theorem has_handle_of_has {id : String} (h : w.markers.has id = true) :
    (n.handle event w).world.markers.has id = true := has_handle_iff.2 (.inl h)

/-! ## What is posted -/

/-- An event that posts is accepted for a source, and the status that is prepared for this source is what it posts. -/
theorem exists_prepare_of_mem_posts {p : Post} (h : p ∈ (n.handle event w).posts) :
    ∃ source s, n.candidate event = .ok (some source) ∧ event.isLate w.markers = false ∧
      (n.prepare source event.build { w with markers := event.mark w.markers }).2 = some s ∧ p = s.post := by
  rw [posts_handle] at h
  split at h
  · cases h
  · rw [Option.mem_toList, Option.map_eq_some_iff] at h
    obtain ⟨s, hs, rfl⟩ := h
    obtain ⟨source, w', ha, hs⟩ := exists_accept_of_sending? hs
    obtain ⟨hc, hl, rfl⟩ := accept_eq_some_iff.1 ha
    exact ⟨source, s, hc, hl, hs, rfl⟩

/-- An event posts at most one status. -/
theorem length_posts_le (n : Notifier) (event : Event) (w : World) : (n.handle event w).posts.length ≤ 1 := by
  rw [posts_handle]
  split
  · exact Nat.zero_le _
  · cases n.sending? event w <;> simp

/-- A checkout that posts finds its build unmarked and leaves it marked. -/
theorem has_of_posts_checkout (hk : event.kind = .checkout) (h : (n.handle event w).posts ≠ []) :
    w.markers.has event.build.id = false ∧ (n.handle event w).world.markers.has event.build.id = true := by
  obtain ⟨p, hp⟩ := List.exists_mem_of_ne_nil _ h
  obtain ⟨source, s, hc, hl, -, -⟩ := exists_prepare_of_mem_posts hp
  cases event with
  | completed build => cases hk
  | checkout build workspace =>
    exact ⟨hl, has_handle_iff.2 (.inr ⟨hk, rfl, source, hc⟩)⟩

end Notifier

/-! ## Runs -/

/-- An event that was handled, and what became of it. -/
structure Handled where
  event : Event
  outcome : Outcome

namespace Notifier

variable {n : Notifier}

/-- Handle events one after the other. -/
def handleAll (n : Notifier) : List Event → World → List Handled
  | [], _ => []
  | event :: rest, w => ⟨event, n.handle event w⟩ :: n.handleAll rest (n.handle event w).world

/-- A run handles the events that it is given. -/
theorem map_event_handleAll (n : Notifier) :
    ∀ (events : List Event) (w : World), (n.handleAll events w).map Handled.event = events
  | [], _ => rfl
  | event :: rest, w => congrArg (event :: ·) (n.map_event_handleAll rest (n.handle event w).world)

/-- Each event of a run is handled in some world. -/
theorem exists_handle_of_mem {r : Handled} : ∀ {events : List Event} {w : World}, r ∈ n.handleAll events w →
    ∃ w', r.outcome = n.handle r.event w'
  | [], _, hr => by cases hr
  | _ :: _, w, hr => by
    rcases List.mem_cons.1 hr with rfl | hr
    · exact ⟨w, rfl⟩
    · exact exists_handle_of_mem hr

end Notifier

end CommitStatus
