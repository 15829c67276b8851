import CommitStatus.Proofs.CommandLine.Admission
import CommitStatus.Proofs.Report.Wording

/-!
# Every status that leaves the program is described as its build is

In all the ways in which statuses leave the program (the web service, workers whose calls go step by step at the same
time, and runs of the command line) a build is described as it describes itself where that can be shown, and the build's
log explains why its description was dropped (`worded_of_posts`).
-/

namespace CommitStatus

/-- What is posted of a body is worded as the build of its event asks for. -/
theorem Web.exists_worded_of_mem_processEvent {n : Notifier} {kind : EventKind} {body : List UInt8} {w : World}
    {p : Post} (hp : p ∈ (processEvent n kind body w).1.posts) :
    ∃ event, Event.read kind body = .ok event ∧ event.build.Worded (processEvent n kind body w).1.remarks p := by
  unfold processEvent at hp ⊢
  cases hread : Event.read kind body with
  | error e =>
    rw [hread] at hp
    cases hp
  | ok event =>
    rw [hread] at hp
    dsimp only [handleEvent] at hp ⊢
    rw [(contain_untouched _).2.1] at hp
    rw [(contain_untouched _).2.2]
    exact ⟨event, rfl, Notifier.worded_of_mem_posts hp⟩

/-- What a run of the service posts is worded as the builds of the events of its bodies ask for. -/
theorem Web.exists_worded_of_mem_processAll {n : Notifier} {r : Outcome × Option Answer} {p : Post}
    (hp : p ∈ r.1.posts) : ∀ {submissions : List Submission} {w : World}, r ∈ processAll n submissions w →
      ∃ s ∈ submissions, ∃ event, Event.read s.kind s.body = .ok event ∧ event.build.Worded r.1.remarks p
  | [], _, hr => by cases hr
  | s :: rest, w, hr => by
    rcases List.mem_cons.1 hr with rfl | hr
    · exact ⟨s, List.mem_cons_self, exists_worded_of_mem_processEvent hp⟩
    · obtain ⟨t, ht, hworded⟩ := exists_worded_of_mem_processAll hp hr
      exact ⟨t, List.mem_cons_of_mem _ ht, hworded⟩

namespace CommandLine

/-- A push writes nothing. -/
theorem push_output (s : Surroundings) (r : Run) : (push s r).output = r.output := by
  unfold push
  cases s.settings.pushGateway with
  | none => rfl
  | some gateway =>
    cases s.pushTrouble with
    | none => rfl
    | some t =>
      dsimp only
      split <;> rfl

/-- A report writes what is said while its event is handled. -/
theorem dispatch_output (s : Surroundings) (sources : List Source) (event : Event) (before : Shared) :
    (dispatch s before sources event).output = (s.handled sources event before).remarks.text := by
  unfold dispatch Surroundings.handled Surroundings.world
  dsimp only
  cases ((Notifier.usual sources s.settings.rootUrl s.env).handle event
    ⟨before.markers, .empty ClientPool.usualCapacity s.settings.dryRun, before.replies⟩).trouble with
  | some t => rfl
  | none => exact push_output _ _

/-- What a run posts and writes is worded as the build of the event that it reports asks for. -/
theorem exists_worded_of_mem_run {s : Surroundings} {before : Shared} {words : List String} {p : Post}
    (hp : p ∈ (run s before words).posts) :
    ∃ sources event log, s.Reports words sources event ∧ (run s before words).output = BuildLog.text log ∧
      event.build.Worded log p := by
  obtain ⟨sources, event, threshold, hreports, hrun, hposted⟩ := exists_reports_of_mem_run hp
  refine ⟨sources, event, _, hreports, ?_, Notifier.worded_of_mem_posts hposted⟩
  rw [hrun]
  exact dispatch_output s sources event before

end CommandLine

/-- **Every status that leaves the program is described as its build is.** Whenever a status is posted, its description
is that of the build, as it is, just if the build has one that is not blank, does not begin like markup and has two
lines at most; otherwise it is the text for the result of the build. So it is not blank, does not begin like markup and
has two lines at most. The log of the build explains once why its description was dropped, for markup or for the number
of its lines, and explains nothing otherwise. This holds

- whenever calls of any workers come and go step by step in any order, whatever is looked up by then, and whatever
  Bitbucket answers;
- whatever bodies a service handles one after the other;
- whatever words and surroundings a run of the command line is given, of which the log is written. -/
theorem worded_of_posts (markers : Markers) :
    (∀ (clients : Nat → ClientPool) (turns : List Turn), ∀ c ∈ (System.takeTurns ⟨markers, clients, []⟩ turns).calls,
      ∀ p ∈ c.phase.posts, c.event.build.Worded c.phase.remarks p) ∧
    (∀ (n : Notifier) (clients : ClientPool) (replies : List Reply) (submissions : List Web.Submission),
      ∀ r ∈ Web.processAll n submissions ⟨markers, clients, replies⟩, ∀ p ∈ r.1.posts,
        ∃ s ∈ submissions, ∃ event, Event.read s.kind s.body = .ok event ∧ event.build.Worded r.1.remarks p) ∧
    (∀ (s : CommandLine.Surroundings) (replies : List Reply) (words : List String),
      ∀ p ∈ (CommandLine.run s ⟨markers, replies⟩ words).posts, ∃ sources event log, s.Reports words sources event ∧
        (CommandLine.run s ⟨markers, replies⟩ words).output = BuildLog.text log ∧ event.build.Worded log p) := by
  refine ⟨?_, ?_, ?_⟩
  · intro clients turns c hc
    have hcalls : ∀ c ∈ (System.takeTurns ⟨markers, clients, []⟩ turns).calls, c.phase.Worded c.event :=
      System.forall_calls (fun _ => trivial) (fun _ _ _ _ h => h.next) turns fun c hc => by cases hc
    exact (hcalls c hc).posts
  · intro n clients replies submissions r hr p hp
    exact Web.exists_worded_of_mem_processAll hp hr
  · intro s replies words p hp
    exact CommandLine.exists_worded_of_mem_run hp

/-- A build whose description is dropped for its three lines, and one whose two lines are kept, for a carriage return
and a line feed end one line. -/
theorem worded_of_posts_lines :
    let n := Notifier.usual [.ofTeam "red" none] (some "https://ci.example.com/") fun _ => none
    let events : List Event := ["one\r\ntwo\u2028", "one\ntwo\u000bthree"].map fun d =>
      .completed { Build.ofTeam "red" with description := some d }
    let turns : List Turn := events.flatMap (fun event => [.act (.arrive n 0 event)]) ++
      [0, 1].flatMap fun i => List.replicate 3 (.act (.advance i (.answer 200 "")))
    let σ := System.takeTurns ⟨.empty, fun _ => .empty 100 false, []⟩ turns
    σ.calls.map (fun c => (c.phase.posts.map (·.status.description), c.phase.remarks.explanations)) =
        [(["one\r\ntwo\u2028"], []), (["This commit looks good."], [Description.Objection.manyLines.line])] ∧
      ∀ c ∈ σ.calls, ∀ p ∈ c.phase.posts, c.event.build.Worded c.phase.remarks p := by
  intro n events turns σ
  exact ⟨by decide +kernel, (worded_of_posts .empty).1 (fun _ => .empty 100 false) turns⟩

end CommitStatus
