import CommitStatus.Proofs.CommandLine.Traces
import CommitStatus.Proofs.Report.Admission

/-!
# Every status that leaves the program is admissible

Statuses leave the program from the web service, which handles bodies of requests one after the other
(`Web.exists_admits_of_mem_processAll`), from workers whose calls go step by step at the same time
(`System.Admitted.takeTurns`), and from runs of the command line (`exists_admits_of_mem_run`). In all of these only what
is admissible is posted (`admits_of_posts`).
-/

namespace CommitStatus

/-! ## The web service -/

namespace Web

variable {n : Notifier} {capacity : Nat}

/-- What is posted of a body is admissible for the event that the body is. -/
theorem exists_admits_of_mem_processEvent {kind : EventKind} {body : List UInt8} {w : World} {p : Post}
    (hw : w.clients.Addressed capacity) (hp : p ∈ (processEvent n kind body w).1.posts) :
    ∃ event, Event.read kind body = .ok event ∧ n.Admits event.build p := by
  unfold processEvent at hp
  cases hread : Event.read kind body with
  | error e =>
    rw [hread] at hp
    cases hp
  | ok event =>
    rw [hread] at hp
    dsimp only [handleEvent] at hp
    rw [(contain_untouched _).2.1] at hp
    exact ⟨event, rfl, Notifier.admits_of_mem_posts hw hp⟩

/-- What a run of the service posts is admissible for the event of one of its bodies. -/
theorem exists_admits_of_mem_processAll {r : Outcome × Option Answer} {p : Post} (hp : p ∈ r.1.posts) :
    ∀ {submissions : List Submission} {w : World}, w.clients.Addressed capacity → r ∈ processAll n submissions w →
      ∃ s ∈ submissions, ∃ event, Event.read s.kind s.body = .ok event ∧ n.Admits event.build p
  | [], _, _, hr => by cases hr
  | s :: rest, w, hw, hr => by
    rcases List.mem_cons.1 hr with rfl | hr
    · exact ⟨s, List.mem_cons_self, exists_admits_of_mem_processEvent hw hp⟩
    · have hnext : (processEvent n s.kind s.body w).1.world.clients.Addressed capacity :=
        worldAfter_addressed [s] hw
      obtain ⟨t, ht, hadmits⟩ := exists_admits_of_mem_processAll hp hnext hr
      exact ⟨t, List.mem_cons_of_mem _ ht, hadmits⟩

end Web

/-! ## The command line -/

namespace CommandLine

/-- A report posts what handling its event posts. -/
theorem dispatch_posts (s : Surroundings) (sources : List Source) (event : Event) (before : Shared) :
    (dispatch s before sources event).posts = (s.handled sources event before).posts := by
  unfold dispatch Surroundings.handled Surroundings.world
  dsimp only
  cases ((Notifier.usual sources s.settings.rootUrl s.env).handle event
    ⟨before.markers, .empty ClientPool.usualCapacity s.settings.dryRun, before.replies⟩).trouble with
  | some t => rfl
  | none => exact (push_untouched _ _).1

/-- What a run posts is posted while the event that it reports is handled. -/
theorem exists_reports_of_mem_run {s : Surroundings} {before : Shared} {words : List String} {p : Post}
    (hp : p ∈ (run s before words).posts) :
    ∃ sources event threshold, s.Reports words sources event ∧
      run s before words = (dispatch s before sources event).quietened threshold ∧
      p ∈ (s.handled sources event before).posts := by
  rcases course s words with ⟨sources, event, threshold, hreports, hrun⟩ | ⟨code, -, hstops⟩
  · have hquietened : run s before words = (dispatch s before sources event).quietened threshold :=
      hrun before s.pushTrouble
    refine ⟨sources, event, threshold, hreports, hquietened, ?_⟩
    rw [← dispatch_posts]
    rw [hquietened] at hp
    exact hp
  · have hnil : (run s before words).posts = [] := (hstops before s.pushTrouble).noTrace.posts
    rw [hnil] at hp
    cases hp

/-- What a run posts is admissible for the event that it reports. -/
theorem exists_admits_of_mem_run {s : Surroundings} {before : Shared} {words : List String} {p : Post}
    (hp : p ∈ (run s before words).posts) :
    ∃ sources event, s.Reports words sources event ∧
      (Notifier.usual sources s.settings.rootUrl s.env).Admits event.build p := by
  obtain ⟨sources, event, -, hreports, -, hposted⟩ := exists_reports_of_mem_run hp
  have hclients : (s.world before).clients.Addressed ClientPool.usualCapacity :=
    ClientPool.addressed_empty _ _
  exact ⟨sources, event, hreports, Notifier.admits_of_mem_posts hclients hposted⟩

end CommandLine

/-- **Every status that leaves the program is admissible.** What is posted is admissible for the build of its event, by
the sources, the revisions and the root URL that are found for it,

- whenever calls of any workers come and go step by step in any order, whatever is looked up by then, and whatever
  Bitbucket answers;
- whatever bodies a service handles one after the other;
- whatever words and surroundings a run of the command line is given.

The clients of a worker, a service or a run are its own; none is kept to begin with. -/
theorem admits_of_posts (markers : Markers) :
    (∀ (capacity : Nat → Nat) (dryRun : Nat → Bool) (turns : List Turn),
      ∀ c ∈ (System.takeTurns ⟨markers, fun worker => .empty (capacity worker) (dryRun worker), []⟩ turns).calls,
        ∀ p ∈ c.phase.posts, c.notifier.Admits c.event.build p) ∧
    (∀ (n : Notifier) (capacity : Nat) (dryRun : Bool) (replies : List Reply) (submissions : List Web.Submission),
      ∀ r ∈ Web.processAll n submissions ⟨markers, .empty capacity dryRun, replies⟩, ∀ p ∈ r.1.posts,
        ∃ s ∈ submissions, ∃ event, Event.read s.kind s.body = .ok event ∧ n.Admits event.build p) ∧
    (∀ (s : CommandLine.Surroundings) (replies : List Reply) (words : List String),
      ∀ p ∈ (CommandLine.run s ⟨markers, replies⟩ words).posts, ∃ sources event, s.Reports words sources event ∧
        (Notifier.usual sources s.settings.rootUrl s.env).Admits event.build p) := by
  refine ⟨?_, ?_, ?_⟩
  · intro capacity dryRun turns c hc
    exact (((System.admitted_start markers capacity dryRun).takeTurns turns).calls c hc).posts
  · intro n capacity dryRun replies submissions r hr p hp
    exact Web.exists_admits_of_mem_processAll (w := ⟨markers, .empty capacity dryRun, replies⟩) hp
      (ClientPool.addressed_empty capacity dryRun) hr
  · intro s replies words p hp
    exact CommandLine.exists_admits_of_mem_run hp

/-- A team's build is completed while the commit of its revision becomes another: one status is on its way, for the
commit that is found by then. -/
theorem admits_of_posts_red :
    let n := Notifier.usual [.ofTeam "red" none] (some "https://ci.example.com/") fun _ => none
    let later : Source → Build → Except Trouble (Option Revision) := fun _ _ => .ok (some (.commit ⟨"main"⟩ "4a5b6c"))
    let turns : List Turn := [.act (.arrive n 0 (.completed (.ofTeam "red"))), .act (.advance 0 (.answer 200 "")),
      .relook 0 later, .act (.advance 0 (.answer 200 ""))]
    let σ := System.takeTurns ⟨.empty, fun _ => .empty 100 false, []⟩ turns
    σ.calls.map (fun c => c.phase.posts.map Post.url) =
        [["https://api.bitbucket.org/2.0/repositories/team/shared/commit/4a5b6c/statuses/build"]] ∧
      ∀ c ∈ σ.calls, ∀ p ∈ c.phase.posts, c.notifier.Admits c.event.build p := by
  intro n later turns σ
  exact ⟨by decide +kernel, (admits_of_posts .empty).1 (fun _ => 100) (fun _ => false) turns⟩

end CommitStatus
