import CommitStatus.Proofs.Report.Addressing
import CommitStatus.Proofs.Web.Submission

/-!
# A dry run is a rehearsal

A dry run sends nothing. In all else it goes body by body as the run goes in which Bitbucket welcomes every status
(`Welcomed`): the same is said, counted and logged, the same builds are marked, the same clients are kept, and requests
are answered alike (`observed_processAll`).

The worlds of the two runs differ in what was sent and in the answers that are still to come, which a dry run does not
take. Every stage of a report leads from worlds that differ so (`World.dried`) to worlds that do: obtaining a client
(`obtain_dried`), sending a status (`sendStatus_dried`), and with them handling an event (`handle_dried`).
-/

namespace CommitStatus

/-- Every status that is sent is taken without an error. -/
def Welcomed (script : List Reply) : Prop := ∀ r ∈ script, ∃ status body, r = .answer status body ∧ status < 400

theorem Welcomed.next {script : List Reply} (h : Welcomed script) (url : String) :
    (Reply.next script).1.trouble? url = none ∧ Welcomed (Reply.next script).2 := by
  cases script with
  | nil => exact ⟨rfl, h⟩
  | cons r rest =>
    obtain ⟨status, body, rfl, hstatus⟩ := h r List.mem_cons_self
    refine ⟨?_, fun r hr => h r (List.mem_cons_of_mem _ hr)⟩
    simp only [Reply.next, Reply.trouble?, if_neg (Int.not_le.2 hstatus)]

/-- The clients of a dry run: those of another run, but nothing was sent. -/
def ClientPool.dried (p : ClientPool) : ClientPool := { p with dryRun := true, sent := [] }

/-- A client is obtained in a dry run as in another. -/
theorem ClientPool.obtain_dried (p : ClientPool) (env : Environment) (source : Source) (head : Option PullRequestHead) :
    p.dried.obtain env source head = ((p.obtain env source head).1.dried, (p.obtain env source head).2) := by
  have hfind : p.dried.find? (source.clientKey head) = p.find? (source.clientKey head) := rfl
  have hcapacity : p.dried.capacity = p.capacity := rfl
  simp only [obtain, hfind, hcapacity]
  cases p.find? (source.clientKey head) with
  | some client => rfl
  | none =>
    rcases source.login env with ⟨records, t | login⟩
    · rfl
    · by_cases hroom : p.capacity = 0
      · simp only [hroom, if_true]
      · simp only [hroom, if_false]
        rfl

/-- The world of a dry run, which has answers of its own to come. -/
def World.dried (script : List Reply) (w : World) : World := w.change w.markers ClientPool.dried script

/-- The outcome in a dry run, where nothing is posted. -/
def Outcome.dried (script : List Reply) (o : Outcome) : Outcome := o.change (World.dried script) fun _ => []

namespace Notifier

variable {n : Notifier} {w : World}

/-- A report is prepared in a dry run as in another. -/
theorem prepare_dried (n : Notifier) (source : Source) (build : Build) (w : World) (script : List Reply) :
    n.prepare source build (w.dried script) =
      ((n.prepare source build w).1.dried script, (n.prepare source build w).2) := by
  rw [World.dried, prepare_change n source build w w.markers script (h := fun _ => [])
    (fun head => w.clients.obtain_dried n.env source head) rfl, ← (prepare_untouched n source build w).2.1]
  rfl

/-- Where the answer is no error, a status is sent as in a dry run, but for the post. -/
theorem sendStatus_dried {o : Outcome} (hlive : o.world.clients.dryRun = false) (h : Welcomed o.world.replies)
    (build : Build) (client : Client) (status : Status) (script : List Reply) :
    sendStatus build client status (o.dried script) = (sendStatus build client status o).dried script ∧
      Welcomed (sendStatus build client status o).world.replies := by
  obtain ⟨htrouble, hrest⟩ := h.next (client.statusUrl status.hash)
  have hdry : (o.dried script).world.clients.dryRun = true := rfl
  simp only [sendStatus, ClientPool.send_live _ _ _ hlive, ClientPool.send_dry _ _ _ hdry, htrouble]
  cases build.result with
  | none => exact ⟨rfl, hrest⟩
  | some result => exact ⟨rfl, hrest⟩

/-- An event is handled in a dry run as where no answer is an error, but for the posts. -/
theorem handle_dried (event : Event) (hlive : w.clients.dryRun = false) (h : Welcomed w.replies) (script : List Reply) :
    n.handle event (w.dried script) = (n.handle event w).dried script ∧ Welcomed (n.handle event w).world.replies := by
  rw [handle_eq, handle_eq, World.dried, accept_change]
  rcases ha : n.accept event w with t | _ | ⟨source, w'⟩
  · exact ⟨rfl, h⟩
  · exact ⟨rfl, h⟩
  obtain ⟨-, hclients, hreplies⟩ := accept_some ha
  have hlive' : (n.prepare source event.build w').1.world.clients.dryRun = false := by
    rw [prepare_dryRun, hclients, hlive]
  have hreplies' : Welcomed (n.prepare source event.build w').1.world.replies := by
    rw [(prepare_untouched n source event.build w').2.2.1, hreplies]
    exact h
  have hprepare := prepare_dried n source event.build w' script
  have hreport : n.notifySafely event.kind source event.build (w'.dried script) =
      (n.notifySafely event.kind source event.build w').dried script ∧
        Welcomed (n.notifySafely event.kind source event.build w').world.replies := by
    simp only [notifySafely, notify, hprepare, (settle_untouched _ _ _).1]
    generalize n.prepare source event.build w' = prepared at hlive' hreplies' ⊢
    obtain ⟨o, _ | s⟩ := prepared
    · exact ⟨settle_change event.kind event.build.id o (World.dried script) _, hreplies'⟩
    · obtain ⟨hsend, hrest⟩ := sendStatus_dried hlive' hreplies' event.build s.client s.status script
      simp only [finish, hsend]
      exact ⟨settle_change event.kind event.build.id _ (World.dried script) _, hrest⟩
  exact ⟨congrArg (Outcome.after _) hreport.1, hreport.2⟩

end Notifier

namespace Web

/-- What became of a body in a dry run. -/
def dried (script : List Reply) (r : Outcome × Option Answer) : Outcome × Option Answer := (r.1.dried script, r.2)

/-- Containing what went wrong looks neither at the world nor at what was posted. -/
theorem contain_dried (o : Outcome) (script : List Reply) : contain (o.dried script) = (contain o).dried script := by
  obtain ⟨world, remarks, counted, records, posts, _ | t⟩ := o
  · rfl
  · simp only [contain, Outcome.dried, Outcome.change]
    split <;> rfl

/-- A body is handled in a dry run as where no answer is an error, but for the posts. -/
theorem processEvent_dried (n : Notifier) (kind : EventKind) (body : List UInt8) {w : World}
    (hlive : w.clients.dryRun = false) (h : Welcomed w.replies) (script : List Reply) :
    processEvent n kind body (w.dried script) = dried script (processEvent n kind body w) ∧
      (processEvent n kind body w).1.world.clients.dryRun = false ∧
      Welcomed (processEvent n kind body w).1.world.replies := by
  unfold processEvent handleEvent
  cases Event.read kind body with
  | error e => exact ⟨rfl, hlive, h⟩
  | ok event =>
    obtain ⟨hhandle, hrest⟩ := Notifier.handle_dried (n := n) event hlive h script
    dsimp only
    rw [hhandle, contain_dried, (contain_untouched _).1]
    exact ⟨rfl, (Notifier.handle_dryRun event).trans hlive, hrest⟩

/-- A dry run goes body by body as a run in which no answer is an error, but for the posts. -/
theorem processAll_dried (n : Notifier) (script : List Reply) :
    ∀ (submissions : List Submission) {w : World}, w.clients.dryRun = false → Welcomed w.replies →
      processAll n submissions (w.dried script) = (processAll n submissions w).map (dried script)
  | [], _, _, _ => rfl
  | s :: rest, w, hlive, h => by
    obtain ⟨hfirst, hlive', hrest⟩ := processEvent_dried n s.kind s.body hlive h script
    have hworld : (processEvent n s.kind s.body (w.dried script)).1.world =
        (processEvent n s.kind s.body w).1.world.dried script := by
      rw [hfirst]
      rfl
    rw [processAll, processAll, hworld, processAll_dried n script rest hlive' hrest, hfirst]
    rfl

/-- What is seen of a body that was handled, but for what is posted: what was said, counted and logged, whether there
was trouble, the builds that are marked, the clients that are kept, and the answer. -/
def observed (r : Outcome × Option Answer) :
    BuildLog × List Counter × List LogRecord × Option Trouble × Markers × List (ClientKey × Client) × Option Answer :=
  (r.1.remarks, r.1.counted, r.1.records, r.1.trouble, r.1.world.markers, r.1.world.clients.kept, r.2)

/-- **A dry run is a rehearsal.** Take any sources, root URL and environment, any look-ups of revisions, any number of
clients that are kept, any markers, and any bodies of requests. The dry run posts nothing, and nothing is ever sent
through one of its clients; and body by body, all else that is observed of it is observed of the run in which every
status is answered with less than 400. -/
theorem observed_processAll (n : Notifier) (submissions : List Submission) (markers : Markers) (capacity : Nat)
    {welcome : List Reply} (h : Welcomed welcome) (script : List Reply) :
    let dry := processAll n submissions ⟨markers, .empty capacity true, script⟩
    let live := processAll n submissions ⟨markers, .empty capacity false, welcome⟩
    dry.map observed = live.map observed ∧
      ∀ r ∈ dry, r.1.posts = [] ∧ ∀ c, r.1.world.clients.sentThrough c = 0 := by
  intro dry live
  have hdry : dry = live.map (dried script) :=
    processAll_dried n script submissions (w := ⟨markers, .empty capacity false, welcome⟩) rfl h
  constructor
  · rw [hdry, List.map_map]
    rfl
  · intro r hr
    rw [hdry] at hr
    obtain ⟨r', -, rfl⟩ := List.mem_map.1 hr
    exact ⟨rfl, fun c => rfl⟩

/-- A team's build is checked out, an empty body comes in between, and the build is completed: of the live run two
bodies lead to a post and of the dry run none, and all else is the same. -/
theorem observed_processAll_red :
    let n := Notifier.usual [.ofTeam "red" none] (some "https://ci.example.com/") fun _ => none
    let submissions : List Submission :=
      [.ofEvent (.checkout (.ofTeam "red") none), ⟨.completed, []⟩, .ofEvent (.completed (.ofTeam "red"))]
    let live := processAll n submissions ⟨.empty, .empty 100 false, [.answer 201 "", .answer 200 ""]⟩
    let dry := processAll n submissions ⟨.empty, .empty 100 true, [.answer 503 "busy"]⟩
    live.map (·.1.posts.length) = [1, 0, 1] ∧ dry.map (·.1.posts.length) = [0, 0, 0] ∧
      dry.map observed = live.map observed := by
  intro n submissions live dry
  have hwelcome : Welcomed [.answer 201 "", .answer 200 ""] := by
    intro r hr
    simp only [List.mem_cons, List.not_mem_nil, or_false] at hr
    rcases hr with rfl | rfl
    · exact ⟨201, "", rfl, by decide⟩
    · exact ⟨200, "", rfl, by decide⟩
  exact ⟨by decide +kernel, by decide +kernel,
    (observed_processAll n submissions .empty 100 hwelcome [.answer 503 "busy"]).1⟩

end Web

end CommitStatus
