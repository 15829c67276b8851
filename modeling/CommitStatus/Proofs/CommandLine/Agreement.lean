import CommitStatus.CommandLine.Run
import CommitStatus.Proofs.Report.Addressing
import CommitStatus.Proofs.Web.Accounting
import CommitStatus.Proofs.Web.Completion

/-!
# The command line and the web service behave alike

Events can be given to runs from the command line, one each, or as requests to one service. Step by step both tell
Bitbucket the same, set the same markers, count and say the same and refuse the same events
(`forall₂_agree_runAll`), though each run has clients of its own and the service keeps its clients.

The argument is a simulation: what a run shares with the next ones is what the service's world holds beside its
clients, and an event is handled in the same way whatever clients are kept (`Notifier.handle_agrees`). A run and a
request read an event to the same end (`reportEvent_eq`), and what is said reaches both in the form of one log
(`BuildLog.text_eq`).
-/

namespace CommitStatus

/-! ## The log of a build in its two forms -/

/-- An entry of a build's log. -/
inductive LogEntry
  /-- A line that was said. -/
  | said (text : String)
  /-- The description of a trouble, which ends its own line. -/
  | description (text : String)
  deriving DecidableEq, Repr

namespace LogEntry

/-- An entry of a list. -/
def text : LogEntry → String
  | .said text => text
  | .description text => text

/-- An entry of a running text. -/
def printed : LogEntry → String
  | .said text => text ++ "\n"
  | .description text => text

end LogEntry

/-- The entries of a remark. -/
def Remark.logEntries : Remark → List LogEntry
  | .line text => [.said text]
  | .error text none => [.said ("ERROR: " ++ text)]
  | .error text (some t) => [.said ("ERROR: " ++ text), .description (t.line ++ "\n")]

namespace BuildLog

/-- The entries of a log. -/
def logEntries (log : BuildLog) : List LogEntry := log.flatMap Remark.logEntries

/-- The list of texts has each entry as it is. -/
theorem entries_eq (log : BuildLog) : log.entries = log.logEntries.map LogEntry.text := by
  rw [entries, logEntries, List.map_flatMap]
  refine List.flatMap_congr fun r _ => ?_
  rcases r with text | ⟨text, _ | t⟩ <;> rfl

/-- The running text has each entry with the end of its line. -/
theorem text_eq (log : BuildLog) : log.text = String.join (log.logEntries.map LogEntry.printed) := by
  induction log with
  | nil => rfl
  | cons r log ih =>
    have hr : r.text = String.join (r.logEntries.map LogEntry.printed) := by
      rcases r with text | ⟨text, _ | t⟩ <;>
        simp [Remark.text, Remark.logEntries, LogEntry.printed, String.append_assoc]
    show String.join (r.text :: log.map Remark.text) = _
    rw [logEntries, List.flatMap_cons, List.map_append, String.join_append, String.join_cons, hr]
    exact congrArg (_ ++ ·) ih

end BuildLog

namespace CommandLine

/-! ## Runs that are given an event -/

/-- A command line has an event of a kind reported from a file. -/
def Asks (words : List String) (kind : EventKind) (path : String) : Prop :=
  ∃ invocation, Invocation.read words = .read invocation ∧
    invocation.verb.read invocation.words = .read (.report kind path)

/-- The name of a kind of event is the command for it. -/
theorem read_kind (kind : EventKind) (rest : List String) :
    Invocation.read (kind.word :: rest) = .read ⟨.report kind, rest⟩ := by
  have hfirst : kind.word ≠ "--" ∧ kind.word ≠ helpOption ∧ isOption kind.word = false := by
    cases kind <;> decide +kernel
  have hverb : Verb.ofWord? kind.word = some (.report kind) := Verb.ofWord?_word (.report kind)
  simp only [Invocation.read, beforeCommand, hfirst.1, hfirst.2.1, hfirst.2.2, if_false, Bool.false_eq_true, hverb]

/-- A path that is no option by its form can stand behind the command. -/
theorem asks_path (kind : EventKind) {path : String} (h : isOption path = false) :
    Asks [kind.word, path] kind path := by
  refine ⟨_, read_kind kind [path], ?_⟩
  have hne : path ≠ "--" := by
    rintro rfl
    exact absurd h (by decide +kernel)
  simp [Verb.read, pieces?, hne, h, Verb.command?, arguments, helpOption]

/-- Words ask for one report at most. -/
theorem Asks.unique {words : List String} {kind kind' : EventKind} {path path' : String} (h : Asks words kind path)
    (h' : Asks words kind' path') : kind = kind' ∧ path = path' := by
  obtain ⟨invocation, hread, hverb⟩ := h
  obtain ⟨invocation', hread', hverb'⟩ := h'
  cases hread.symm.trans hread'
  cases hverb.symm.trans hverb'
  exact ⟨rfl, rfl⟩

/-- The text of an event, and of which kind it is given out to be. -/
structure Payload where
  kind : EventKind
  text : List Char
  deriving DecidableEq, Repr

/-- The request that has the text as its body. -/
def Payload.submission (p : Payload) : Web.Submission := ⟨p.kind, Text.Utf8.encode p.text⟩

/-- A run that is given the text of an event: what it finds, and its words. -/
structure Call where
  payload : Payload
  surroundings : Surroundings
  words : List String

/-- The run is given its text as a file or as standard input, and finds settings, an environment and a sources file. -/
structure Call.Fits (settings : Settings) (env : Environment) (sourcesFile : Option (List UInt8)) (c : Call) :
    Prop where
  hasSettings : c.surroundings.settings = settings
  hasEnv : c.surroundings.env = env
  hasSources : c.surroundings.file settings.sourcesPath = sourcesFile
  isGiven : ∃ path, Asks c.words c.payload.kind path ∧ c.surroundings.payload? path = some c.payload.submission.body

/-- Run after run; each leaves markers and answers to the next. -/
def runAll : List Call → Shared → List Run
  | [], _ => []
  | c :: rest, shared =>
    let r := run c.surroundings shared c.words
    r :: runAll rest r.shared

/-- The run that is given a text as standard input. -/
def Call.ofInput (settings : Settings) (env : Environment) (file : String → Option (List UInt8)) (p : Payload) : Call :=
  ⟨p, ⟨settings, env, file, p.submission.body, none⟩, [p.kind.word, standardInput]⟩

theorem Call.ofInput_fits (settings : Settings) (env : Environment) (file : String → Option (List UInt8))
    (p : Payload) : (ofInput settings env file p).Fits settings env (file settings.sourcesPath) where
  hasSettings := rfl
  hasEnv := rfl
  hasSources := rfl
  isGiven := ⟨standardInput, asks_path p.kind (by decide +kernel), rfl⟩

/-! ## One run and one request -/

variable {s : Surroundings} {shared : Shared} {sources : List Source}

/-- A run that is asked to report an event does so, and holds back the records below the log level. -/
theorem run_of_asks {words : List String} {kind : EventKind} {path : String} {threshold : Int}
    (h : Asks words kind path) (hthreshold : s.settings.verbosity.threshold? = some threshold) :
    run s shared words = (reportEvent s shared kind path).quietened threshold := by
  obtain ⟨invocation, hread, hverb⟩ := h
  simp only [run, hread, hthreshold, hverb, perform]

/-- A run reads an event as a request does: it refuses the text or reports the event. -/
theorem reportEvent_eq {path : String} {p : Payload} (h : s.payload? path = some p.submission.body) :
    reportEvent s shared p.kind path =
      match Event.read p.kind p.submission.body with
      | .error e => { Run.stop (.eventRefused e) shared with complaint := refusalText e }
      | .ok event => reportRead s shared event := by
  have hdecode : Text.Utf8.decode p.submission.body = .ok p.text := Text.Utf8.decode_encode p.text
  have hread : Event.readText p.kind (Text.unixLines p.text) = Event.read p.kind p.submission.body :=
    Event.readText_unixLines p.kind p.text
  cases hr : Event.read p.kind p.submission.body with
  | error e => simp only [reportEvent, h, hdecode, hread.trans hr]
  | ok event => simp only [reportEvent, h, hdecode, hread.trans hr]

/-- Where the sources and the markers can be had, an event that was read is reported. -/
theorem reportRead_eq {directory : String} {event : Event}
    (hload : SourcesFile.load (s.file s.settings.sourcesPath) = .ok sources)
    (hdirectory : Markers.directory none s.settings.markerDirectory = .ok directory) :
    reportRead s shared event = dispatch s shared sources event := by
  simp only [reportRead, hload, hdirectory]

/-- The world in which a run reports an event: what runs share, and clients of its own. -/
def Surroundings.world (s : Surroundings) (shared : Shared) : World :=
  ⟨shared.markers, ClientPool.empty ClientPool.usualCapacity s.settings.dryRun, shared.replies⟩

/-- A report without trouble ends the run well; nothing is pushed when there is nowhere to push. -/
theorem dispatch_eq {event : Event} {o : Outcome}
    (ho : (Notifier.usual sources s.settings.rootUrl s.env).handle event (s.world shared) = o) (ht : o.trouble = none)
    (hpush : s.settings.pushGateway = none) :
    dispatch s shared sources event =
      { ending := .success
        shared := ⟨o.world.markers, o.world.replies⟩
        output := o.remarks.text
        complaint := ""
        counted := o.counted ++ [.commandLine event.kind]
        records := o.records
        posts := o.posts
        pushes := []
        opened := true
        served := none } := by
  subst ho
  unfold dispatch
  dsimp only [Surroundings.world] at ht ⊢
  rw [ht]
  simp only [push, hpush]

/-! ## Agreement -/

/-- The families that are counted of events. -/
def eventFamilies : List CounterFamily := [.event, .notification, .skipped, .error]

/-- What is counted of events. -/
def eventCounts (counted : List Counter) : List Counter := counted.filter (·.family ∈ eventFamilies)

/-- The count of a run is none of them. -/
theorem eventCounts_commandLine (counted : List Counter) (kind : EventKind) :
    eventCounts (counted ++ [.commandLine kind]) = eventCounts counted := by
  simp [eventCounts, eventFamilies, Counter.family]

/-- A run and a request agree on an event: they tell Bitbucket the same, leave the same markers and count the same of
events; the run ends as misuse just if the request is rejected, and else writes the log that answers the request. -/
structure Agree (r : Run) (a : Outcome × Option Web.Answer) : Prop where
  posts : r.posts.map Post.message = a.1.posts.map Post.message
  markers : r.shared.markers = a.1.world.markers
  counted : eventCounts r.counted = eventCounts a.1.counted
  refused : r.ending.exitCode? = some 2 ↔ Web.statusOf? a = some 400
  output : Web.statusOf? a ≠ some 400 → a.2 = some (.handled (a.1.remarks.logEntries.map LogEntry.text)) ∧
    r.output = String.join (a.1.remarks.logEntries.map LogEntry.printed) ∧ r.ending.exitCode? = some 0

/-- What holds between a run and a request to come: they find the same markers and answers, and each finds clients that
are addressed. -/
structure Ready (settings : Settings) (shared : Shared) (w : World) : Prop where
  markers : shared.markers = w.markers
  replies : shared.replies = w.replies
  steady : Steady w.replies
  clients : w.clients.Addressed ClientPool.usualCapacity
  dryRun : w.clients.dryRun = settings.dryRun

/-- Where no answer calls the work off, handling an event in the usual way ends without trouble. -/
theorem trouble_usual (sources : List Source) (rootUrl : Option String) (env : Environment) (event : Event) {w : World}
    (h : Steady w.replies) : ((Notifier.usual sources rootUrl env).handle event w).trouble = none := by
  refine Notifier.trouble_handle ?_ nofun h.next
  rintro t (ht | ⟨-, _, -, ht⟩) <;> cases ht

/-- One run and one request agree on their event, and leave the same to the next. -/
theorem run_agrees {settings : Settings} {env : Environment} {sourcesFile : Option (List UInt8)} {threshold : Int}
    {directory : String} (hload : SourcesFile.load sourcesFile = .ok sources)
    (hthreshold : settings.verbosity.threshold? = some threshold)
    (hdirectory : Markers.directory none settings.markerDirectory = .ok directory)
    (hsign : (Notifier.usual sources settings.rootUrl env).CanSign) (hpush : settings.pushGateway = none) {c : Call}
    (hfits : c.Fits settings env sourcesFile) {w : World} (h : Ready settings shared w) :
    Agree (run c.surroundings shared c.words)
        (Web.processEvent (Notifier.usual sources settings.rootUrl env) c.payload.kind c.payload.submission.body w) ∧
      Ready settings (run c.surroundings shared c.words).shared
        (Web.processEvent (Notifier.usual sources settings.rootUrl env) c.payload.kind c.payload.submission.body
          w).1.world := by
  obtain ⟨rfl, rfl, rfl, path, hasks, hpayload⟩ := hfits
  rw [run_of_asks hasks hthreshold, reportEvent_eq hpayload, Web.processEvent]
  cases hread : Event.read c.payload.kind c.payload.submission.body with
  | error e =>
    refine ⟨⟨rfl, h.markers, rfl, ?_, ?_⟩, h⟩
    · exact iff_of_true rfl rfl
    · exact fun hne => absurd rfl hne
  | ok event =>
    dsimp only
    rw [reportRead_eq hload hdirectory]
    -- the run and the request handle the event in worlds that differ in their clients alone
    have hclients : (c.surroundings.world shared).clients.Addressed ClientPool.usualCapacity :=
      ClientPool.keeps_empty _ _ _
    obtain ⟨hagrees, hmarkers, hreplies⟩ := Notifier.handle_agrees hsign (by decide) event hclients h.clients h.markers
      h.replies h.dryRun.symm
    have htrouble := trouble_usual sources c.surroundings.settings.rootUrl c.surroundings.env event h.steady
    rw [Web.handleEvent, Web.contain_of_none htrouble, dispatch_eq rfl (hagrees.trouble.trans htrouble) hpush]
    have hanswer := Web.answer?_of_none htrouble
    refine ⟨⟨hagrees.messages, hmarkers, ?_, ?_, ?_⟩, ?_⟩
    · dsimp only [Run.quietened]
      rw [eventCounts_commandLine, hagrees.counted]
    · rw [Web.statusOf?, hanswer]
      exact iff_of_false (show ¬some 0 = some 2 by decide) (show ¬some 200 = some 400 by decide)
    · intro _
      rw [hanswer, BuildLog.entries_eq, ← BuildLog.text_eq, ← hagrees.remarks]
      exact ⟨rfl, rfl, rfl⟩
    · exact ⟨hmarkers, hreplies, (Notifier.handle_alike _ event h.steady steady_nil).2.1,
        Notifier.handle_addressed event h.clients, (Notifier.handle_dryRun event).trans h.dryRun⟩

/-- Runs and requests agree event by event. -/
theorem runAll_agree {settings : Settings} {env : Environment} {sourcesFile : Option (List UInt8)} {threshold : Int}
    {directory : String} (hload : SourcesFile.load sourcesFile = .ok sources)
    (hthreshold : settings.verbosity.threshold? = some threshold)
    (hdirectory : Markers.directory none settings.markerDirectory = .ok directory)
    (hsign : (Notifier.usual sources settings.rootUrl env).CanSign) (hpush : settings.pushGateway = none) :
    ∀ (calls : List Call) {shared : Shared} {w : World}, (∀ c ∈ calls, c.Fits settings env sourcesFile) →
      Ready settings shared w →
      List.Forall₂ Agree (runAll calls shared)
        (Web.processAll (Notifier.usual sources settings.rootUrl env) (calls.map fun c => c.payload.submission) w)
  | [], _, _, _, _ => .nil
  | c :: rest, shared, w, hfits, h => by
    obtain ⟨hagree, hready⟩ :=
      run_agrees hload hthreshold hdirectory hsign hpush (hfits c List.mem_cons_self) h
    exact .cons hagree (runAll_agree hload hthreshold hdirectory hsign hpush rest
      (fun c hc => hfits c (List.mem_cons_of_mem _ hc)) hready)

end CommandLine

/-- **The command line and the web service behave alike.** Take any sources file that can be loaded and whose users'
names hold no colon, any settings with a log level that exists and a directory for the markers and without a gateway for
the counts, and any answers that do not call the work off. The service starts; and runs that are given any texts of
events, one each, agree event by event with requests that have the same texts as their bodies. -/
theorem forall₂_agree_runAll (settings : Settings) (env : Environment) {sourcesFile : Option (List UInt8)}
    {sources : List Source} {threshold : Int} {directory : String} {replies : List Reply}
    (hload : SourcesFile.load sourcesFile = .ok sources)
    (hcolon : ∀ s ∈ sources, ∀ c, s.credentials = some c → ':' ∉ c.username.toList)
    (hthreshold : settings.verbosity.threshold? = some threshold)
    (hdirectory : Markers.directory none settings.markerDirectory = .ok directory) (hpush : settings.pushGateway = none)
    (hsteady : Steady replies) (markers : Markers) (calls : List CommandLine.Call)
    (hfits : ∀ c ∈ calls, c.Fits settings env sourcesFile) :
    ∃ app, Web.App.start? settings env (SourcesFile.load sourcesFile) markers replies = .ok app ∧
      List.Forall₂ CommandLine.Agree (CommandLine.runAll calls ⟨markers, replies⟩)
        (Web.processAll app.notifier (calls.map fun c => c.payload.submission) app.world) := by
  have hsign := Notifier.canSign_usual hcolon settings.rootUrl env
  have hstart : Web.App.start? settings env (SourcesFile.load sourcesFile) markers replies =
      .ok ⟨Notifier.usual sources settings.rootUrl env,
        ⟨markers, .empty ClientPool.usualCapacity settings.dryRun, replies⟩, sources.length, []⟩ := by
    simp only [Web.App.start?, hthreshold, hload, hdirectory]
  exact ⟨_, hstart, CommandLine.runAll_agree hload hthreshold hdirectory hsign hpush calls hfits
    ⟨rfl, rfl, hsteady, ClientPool.keeps_empty _ _ _, rfl⟩⟩

/-- A team's sources file. Of three texts the first is a checkout, the second no event and the third a completion whose
status Bitbucket refuses: the second run alone ends as misuse, and each of the others posts a status. -/
theorem forall₂_agree_runAll_team :
    let env : Environment := fun _ => none
    let settings : Settings :=
      { Settings.default with rootUrl := some "https://ci.example.com/", markerDirectory := some "markers" }
    let sourcesFile : Option (List UInt8) := some (Text.Utf8.encode
      "sources:\n- repo-owner: team\n  repository: shared\n  jobs: [\"red/*\"]\n".toList)
    let text (event : Event) : List Char := '\r' :: '\n' :: event.toJson.chars
    let payloads : List CommandLine.Payload :=
      [⟨.checkout, text (.checkout (.ofTeam "red") none)⟩, ⟨.checkout, ['?']⟩,
        ⟨.completed, text (.completed (.ofTeam "red"))⟩]
    let calls := payloads.map (CommandLine.Call.ofInput settings env fun _ => sourcesFile)
    let replies : List Reply := [.answer 200 "", .answer 503 "busy"]
    let runs := CommandLine.runAll calls ⟨.empty, replies⟩
    runs.map (fun r => (r.ending.exitCode?, r.posts.length)) = [(some 0, 1), (some 2, 0), (some 0, 1)] ∧
      ∃ app, Web.App.start? settings env (SourcesFile.load sourcesFile) .empty replies = .ok app ∧
        List.Forall₂ CommandLine.Agree runs
          (Web.processAll app.notifier (calls.map fun c => c.payload.submission) app.world) := by
  intro env settings sourcesFile text payloads calls replies runs
  have hload : SourcesFile.load sourcesFile = .ok [.ofTeam "red" none] := by
    have hsome : (SourcesFile.load sourcesFile).toOption = some [.ofTeam "red" none] := by decide +kernel
    cases h : SourcesFile.load sourcesFile with
    | error e => simp [h, Except.toOption] at hsome
    | ok sources => simpa [h, Except.toOption] using hsome
  have hcolon : ∀ s ∈ [Source.ofTeam "red" none], ∀ c, s.credentials = some c → ':' ∉ c.username.toList := by
    intro s hs c hc
    rw [List.mem_singleton.1 hs] at hc
    cases hc
  have hsteady : Steady replies := by
    intro r hr
    simp only [replies, List.mem_cons, List.not_mem_nil, or_false] at hr
    rcases hr with rfl | rfl <;> rfl
  have hfits : ∀ c ∈ calls, c.Fits settings env sourcesFile := by
    intro c hc
    obtain ⟨p, -, rfl⟩ := List.mem_map.1 hc
    exact CommandLine.Call.ofInput_fits settings env (fun _ => sourcesFile) p
  refine ⟨by decide +kernel, ?_⟩
  exact forall₂_agree_runAll settings env hload hcolon rfl rfl rfl hsteady .empty calls hfits

end CommitStatus
