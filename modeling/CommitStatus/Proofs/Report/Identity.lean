import CommitStatus.Proofs.Build.Writing
import CommitStatus.Proofs.Report.Isolation

/-!
# Builds do not share markers

The name of a build is the full name of its job, a `#` and its number. There may be more `#`s, digits and minus signs in
the full name, but none of the first in the number: so the last one tells where the number begins, and builds are told
apart by their names (`Build.id_eq_iff`), and with them by their markers.

- How an event is handled does not hang on the markers of other builds (`Notifier.handle_markedAs`).
- However calls are interleaved, the checkout of a build is turned away just if the build was marked to begin with or
  another call for its checkout was chosen to report it (`System.isTurnedAway_iff`).
- So no build's marker keeps another build from being reported (`Build.unshared_marker`).
-/

namespace CommitStatus

/-! ## Names -/

namespace Build

theorem toList_id (b : Build) : b.id.toList = b.job.fullName.toList ++ '#' :: Decimal.Integer.text b.number := by
  simp [id, numberText]

/-- Builds have the same name just if their jobs have the same full name and their numbers are the same. -/
theorem id_eq_iff {b b' : Build} : b.id = b'.id ↔ b.job.fullName = b'.job.fullName ∧ b.number = b'.number := by
  rw [← String.toList_inj, toList_id, toList_id, Decimal.Integer.append_cons_text_inj (by decide) (by decide),
    String.toList_inj]

end Build

/-! ## Markers of other builds -/

/-- The markers once builds were marked, one after the other. -/
def Markers.addAll (m : Markers) (builds : List Build) : Markers := builds.foldl (fun m b => (m.add b.id).2) m

theorem Markers.has_addAll_iff {builds : List Build} {m : Markers} {id : String} :
    (m.addAll builds).has id = true ↔ m.has id = true ∨ ∃ b ∈ builds, b.id = id := by
  induction builds generalizing m with
  | nil => simp [addAll]
  | cons b rest ih =>
    have hrest : m.addAll (b :: rest) = (m.add b.id).2.addAll rest := rfl
    rw [hrest, ih, has_add_iff, or_assoc, List.exists_mem_cons_iff, eq_comm (a := id)]

namespace Notifier

variable {n : Notifier} {event : Event} {w : World}

/-- A report does not look at the markers. -/
theorem notifySafely_markedAs (n : Notifier) (kind : EventKind) (source : Source) (build : Build) (w : World)
    (markers : Markers) :
    n.notifySafely kind source build (w.markedAs markers) =
      (n.notifySafely kind source build w).markedAs markers := by
  simp only [notifySafely, notify, Phase.prepare_markedAs]
  rcases n.prepare source build w with ⟨o, _ | s⟩
  · exact Phase.settle_markedAs kind build.id o markers
  · simp only [finish, Phase.sendStatus_markedAs, Phase.settle_markedAs]

/-- Handling an event looks at no marker but that of its build. -/
theorem handle_markedAs {markers : Markers} (h : markers.has event.build.id = w.markers.has event.build.id) :
    ∃ markers', n.handle event (w.markedAs markers) = (n.handle event w).markedAs markers' := by
  have hlate : event.isLate (w.markedAs markers).markers = event.isLate w.markers := Event.isLate_congr h
  rw [handle_eq, handle_eq, accept_eq, accept_eq, hlate]
  rcases n.candidate event with t | _ | source
  · exact ⟨markers, rfl⟩
  · exact ⟨markers, rfl⟩
  cases event.isLate w.markers with
  | true => exact ⟨markers, rfl⟩
  | false =>
    have hreport := n.notifySafely_markedAs event.kind source event.build { w with markers := event.mark w.markers }
      (event.mark markers)
    exact ⟨event.mark markers, congrArg (Outcome.after [.event event.kind]) hreport⟩

/-- To mark other builds first changes nothing of how an event is handled but that they are marked. -/
theorem handle_addAll {others : List Build} (h : ∀ b ∈ others, b.id ≠ event.build.id) :
    ∃ markers, n.handle event (w.markedAs (w.markers.addAll others)) = (n.handle event w).markedAs markers ∧
      ∀ id, markers.has id = true ↔ (n.handle event w).world.markers.has id = true ∨ ∃ b ∈ others, b.id = id := by
  have hhas : (w.markers.addAll others).has event.build.id = w.markers.has event.build.id := by
    rw [Bool.eq_iff_iff, Markers.has_addAll_iff]
    exact or_iff_left fun ⟨b, hb, hid⟩ => h b hb hid
  obtain ⟨markers, hhandle⟩ := handle_markedAs (n := n) hhas
  refine ⟨markers, hhandle, fun id => ?_⟩
  have hmarkers : (n.handle event (w.markedAs (w.markers.addAll others))).world.markers = markers := by
    rw [hhandle]
    rfl
  rw [← hmarkers, has_handle_iff, has_handle_iff]
  show (w.markers.addAll others).has id = true ∨ _ ↔ _
  rw [Markers.has_addAll_iff, or_right_comm]

end Notifier

/-! ## Calls that are turned away -/

/-- The event is over because its build was marked before. -/
def Phase.isTurnedAway : Phase → Bool
  | .ended .late _ => true
  | _ => false

/-- An event is turned away if its marker was tried and it was not chosen. -/
theorem Phase.isTurnedAway_eq (φ : Phase) : φ.isTurnedAway = (φ.isPast && !φ.isChosen) := by
  cases φ with
  | ended e o => cases e <;> rfl
  | _ => rfl

/-- The checkout of a build is turned away just if the build was marked to begin with or another call for its checkout
was chosen. -/
theorem System.isTurnedAway_iff (initial : Markers) (clients : Nat → ClientPool) (schedule : List Action) {i : Nat}
    {c : Call} (hc : (run ⟨initial, clients, []⟩ schedule).calls[i]? = some c) (hk : c.event.kind = .checkout) :
    c.phase.isTurnedAway = true ↔ c.phase.isPast = true ∧ (initial.has c.event.build.id = true ∨
      ∃ j d, j ≠ i ∧ (run ⟨initial, clients, []⟩ schedule).calls[j]? = some d ∧ d.IsCheckoutOf c.event.build.id ∧
        d.phase.isChosen = true) := by
  have h : Inv initial (fun id => tries id ⟨initial, clients, []⟩ schedule) (run ⟨initial, clients, []⟩ schedule) := by
    simpa using (Inv.start initial clients).run schedule
  have hchosen := h.chosen _ i c hc ⟨hk, rfl⟩
  rw [Phase.isTurnedAway_eq, Bool.and_eq_true, Bool.not_eq_true', ← Bool.not_eq_true]
  refine and_congr_right fun hpast => ?_
  rw [hchosen, not_and_or, Bool.not_eq_false]
  refine or_congr_right' fun hinitial => ?_
  rw [Bool.not_eq_true] at hinitial
  constructor
  · -- it has tried its marker, so there was a first to try
    intro hhead
    have hi := (h.mem_tried _ i).2 ⟨c, hc, ⟨hk, rfl⟩, hpast⟩
    obtain ⟨j, hj⟩ := Option.isSome_iff_exists.1 (List.isSome_head?.2 (List.ne_nil_of_mem hi))
    obtain ⟨d, hd, hid, -⟩ := (h.mem_tried _ j).1 (List.mem_of_head? hj)
    refine ⟨j, d, ?_, hd, hid, (h.chosen _ j d hd hid).2 ⟨hinitial, hj⟩⟩
    rintro rfl
    exact hhead hj
  · rintro ⟨j, d, hne, hd, hid, hdchosen⟩ hhead
    obtain ⟨-, hj⟩ := (h.chosen _ j d hd hid).1 hdchosen
    exact hne (Option.some.inj (hj.symm.trans hhead))

/-! ## No shared markers -/

/-- **No two builds share a marker.** Take any builds, whatever characters their jobs' names hold and whatever their
numbers are.

- Two builds have the same name just if their jobs have the same full name and their numbers are the same, and their
  markers have the same key just if they have the same name. So to mark some builds marks these and no others.
- How an event is handled, in whatever world, does not change when other builds are marked first: the same is said,
  counted, logged and posted, and the same trouble comes of it. Afterwards the same builds are marked, and the others.
- When calls of any workers go step by step in any order, the checkout of a build that has tried its marker is turned
  away just if that very build was marked to begin with, or another call for its checkout was chosen to report it.
- A build that is read from an event has a number of no more characters than an integer may have digits in text, so its
  name can be written. -/
theorem Build.unshared_marker :
    (∀ b b' : Build, b.id = b'.id ↔ b.job.fullName = b'.job.fullName ∧ b.number = b'.number) ∧
    (∀ b b' : Build, markerKey b.id = markerKey b'.id ↔ b.id = b'.id) ∧
    (∀ (m : Markers) (builds : List Build) (b : Build), (m.addAll builds).has b.id = true ↔
      m.has b.id = true ∨ ∃ b' ∈ builds, b'.job.fullName = b.job.fullName ∧ b'.number = b.number) ∧
    (∀ (n : Notifier) (event : Event) (w : World) (others : List Build),
      (∀ b ∈ others, ¬(b.job.fullName = event.build.job.fullName ∧ b.number = event.build.number)) →
      ∃ markers, n.handle event (w.markedAs (w.markers.addAll others)) = (n.handle event w).markedAs markers ∧
        ∀ b : Build, markers.has b.id = true ↔ (n.handle event w).world.markers.has b.id = true ∨
          ∃ b' ∈ others, b'.job.fullName = b.job.fullName ∧ b'.number = b.number) ∧
    (∀ (initial : Markers) (clients : Nat → ClientPool) (schedule : List Action) (i : Nat) (c : Call),
      let σ := System.run ⟨initial, clients, []⟩ schedule
      σ.calls[i]? = some c → c.event.kind = .checkout →
      (c.phase.isTurnedAway = true ↔ c.phase.isPast = true ∧ (initial.has c.event.build.id = true ∨
        ∃ j d, j ≠ i ∧ σ.calls[j]? = some d ∧ d.event.kind = .checkout ∧
          d.event.build.job.fullName = c.event.build.job.fullName ∧ d.event.build.number = c.event.build.number ∧
          d.phase.isChosen = true))) ∧
    (∀ kind octets event, Event.read kind octets = .ok event →
      event.build.numberText.length ≤ Decimal.Integer.maxDigits) := by
  refine ⟨fun b b' => id_eq_iff, fun b b' => markerKey_inj, ?_, ?_, ?_, ?_⟩
  · intro m builds b
    simp only [Markers.has_addAll_iff, id_eq_iff]
  · intro n event w others hothers
    have hne : ∀ b ∈ others, b.id ≠ event.build.id := fun b hb hid => hothers b hb (id_eq_iff.1 hid)
    obtain ⟨markers, hhandle, hhas⟩ := Notifier.handle_addAll (n := n) (w := w) hne
    refine ⟨markers, hhandle, fun b => ?_⟩
    simp only [hhas, id_eq_iff]
  · intro initial clients schedule i c σ hc hk
    have haway := System.isTurnedAway_iff initial clients schedule hc hk
    simpa only [Call.IsCheckoutOf, id_eq_iff, and_assoc] using haway
  · intro kind octets event h
    have hnumber := (Event.readable_of_read h).number
    rwa [numberText, String.length_ofList]

/-- Builds whose names differ in a `#`, a digit or a minus sign: with three of them marked, the fourth is posted to be
in progress all the same. Of three calls in a row, two for builds with such names and one more for the first of these,
only the last is turned away. -/
theorem Build.unshared_marker_hashes :
    let build (job : String) (number : Int) : Build :=
      { Build.ofTeam "red" with number, job := ⟨job, "job/red/job/app/", ⟨"red"⟩⟩, result := none }
    let n := Notifier.usual [.ofTeam "red" none] (some "https://ci.example.com/") fun _ => none
    let w : World := ⟨.empty, .empty 100 false, []⟩
    let others := [build "red/app#1" 12, build "red/app" 112, build "red/app#" (-1)]
    let event := Event.checkout (build "red/app#1#" (-1)) none
    let arrivals := [build "red/app#1" 1, build "red/app" 1, build "red/app#1" 1].map fun b =>
      Action.arrive n 0 (.checkout b none)
    let steps := [0, 0, 0, 0, 0, 1, 1, 1, 1, 1, 2, 2, 2].map fun i => Action.advance i (.answer 200 "")
    let σ := System.run ⟨.empty, fun _ => .empty 100 false, []⟩ (arrivals ++ steps)
    (others ++ [event.build]).map Build.id = ["red/app#1#12", "red/app#112", "red/app##-1", "red/app#1##-1"] ∧
      (n.handle event (w.markedAs (w.markers.addAll others))).posts.map (·.status.state) = [.inProgress] ∧
      σ.calls.map (·.phase.isTurnedAway) = [false, false, true] ∧
      ∃ j d, j ≠ 2 ∧ σ.calls[j]? = some d ∧ d.event.build.job.fullName = "red/app#1" ∧ d.event.build.number = 1 ∧
        d.phase.isChosen = true := by
  intro build n w others event arrivals steps σ
  obtain ⟨-, -, -, hhandle, hturned, -⟩ := Build.unshared_marker
  have hothers : ∀ b ∈ others, ¬(b.job.fullName = event.build.job.fullName ∧ b.number = event.build.number) := by
    decide +kernel
  have hthird : σ.calls[2]?.map (fun c => (c.event.kind, c.event.build.job.fullName, c.event.build.number,
      c.phase.isTurnedAway)) = some (.checkout, "red/app#1", 1, true) := by decide +kernel
  have hposts : (n.handle event w).posts.map (·.status.state) = [.inProgress] := by decide +kernel
  refine ⟨by decide +kernel, ?_, by decide +kernel, ?_⟩
  · obtain ⟨markers, hsame, -⟩ := hhandle n event w others hothers
    rw [hsame]
    exact hposts
  · obtain ⟨c, hc, hfacts⟩ := Option.map_eq_some_iff.1 hthird
    simp only [Prod.mk.injEq] at hfacts
    obtain ⟨hkind, hname, hnumber, haway⟩ := hfacts
    obtain ⟨-, hmarked | ⟨j, d, hne, hd, -, hname', hnumber', hchosen⟩⟩ := (hturned _ _ _ 2 c hc hkind).1 haway
    · cases hmarked
    · exact ⟨j, d, hne, hd, hname'.trans hname, hnumber'.trans hnumber, hchosen⟩

end CommitStatus
