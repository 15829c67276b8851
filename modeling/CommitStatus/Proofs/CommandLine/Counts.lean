import CommitStatus.Proofs.CommandLine.Admission

/-!
# What is counted of runs from the command line

A run is counted once its event was handled, whatever came of it, though the count says of itself that it is of statuses
that were posted. Over any sequence of runs it is the number of statuses that Bitbucket took and, beside them, of runs
that were in vain (`count_runAll`). A run is in vain when no status is made of its event, when it is dry, or when the
answer to its status is an error that does not call the work off (`Stage.InVain`).

The argument goes from an event, which counts no run itself and ends in trouble just if the answer to its status calls
the work off (`Notifier.handle_ends`), to a run in its place among others (`Stage.count_eq`), and from there to all runs
by induction on their places (`Stage.count_flatMap`).
-/

namespace CommitStatus

/-! ## Answers to posts -/

/-- Bitbucket takes a status. -/
def Reply.isTaken : Reply → Bool
  | .answer status _ => status < 400
  | .failure _ => false

/-- An answer makes no trouble just if the status is taken. -/
theorem Reply.trouble?_eq_none_iff {r : Reply} {url : String} : r.trouble? url = none ↔ r.isTaken = true := by
  cases r with
  | answer status body =>
    rw [trouble?, isTaken, decide_eq_true_iff, ite_eq_right_iff, ← Int.not_le]
    exact imp_congr_right fun _ => iff_of_false (Option.some_ne_none _) id
  | failure t => exact iff_of_false (Option.some_ne_none t) Bool.false_ne_true

/-- An answer that calls the work off takes no status. -/
theorem Reply.isTaken_of_isCancelled {r : Reply} (h : r.isCancelled = true) : r.isTaken = false := by
  cases r with
  | answer status body => cases h
  | failure t => rfl

/-- Posts with the answers to them, which come one after the other. -/
def answered : List Post → List Reply → List (Post × Reply)
  | [], _ => []
  | p :: posts, replies => (p, (Reply.next replies).1) :: answered posts (Reply.next replies).2

/-- The posts that Bitbucket takes. -/
def taken (posts : List Post) (replies : List Reply) : List Post :=
  ((answered posts replies).filter (·.2.isTaken)).map (·.1)

/-- A single post is taken by the first answer. -/
theorem taken_singleton (p : Post) (replies : List Reply) :
    taken [p] replies = if (Reply.next replies).1.isTaken then [p] else [] := by
  cases h : (Reply.next replies).1.isTaken <;> simp [taken, answered, h]

namespace Notifier

variable {n : Notifier} {event : Event} {w : World}

/-! ## One event -/

/-- The answer to the status of an event calls the work off. -/
def CallsOff (n : Notifier) (event : Event) (w : World) : Prop :=
  n.sending? event w ≠ none ∧ w.clients.dryRun = false ∧ (Reply.next w.replies).1.isCancelled = true

/-- A report that ends in one of the four ways counts no run. -/
theorem commandLine_not_mem_of_reported {kind k : EventKind} {build : Build} {sending : Option Sending} {o : Outcome}
    (h : Reported kind build w sending o) : .commandLine k ∉ o.counted := by
  cases h with
  | skipped _ counted | failed counted | delivered _ counted | refused _ counted => simp [counted]

/-- Where no look-up fails, an event counts no run, and ends in trouble just if the answer to its status calls the work
off. -/
theorem handle_ends (hlookup : ∀ t, ¬n.LookupFails event t)
    (hrevision : ∀ source t, n.findRevision source event.build = .error t → t.isCancelled = false) :
    (∀ kind, .commandLine kind ∉ (n.handle event w).counted) ∧
      ((n.handle event w).trouble = none ↔ ¬n.CallsOff event w) := by
  rw [handle_eq]
  rcases ha : n.accept event w with t | _ | ⟨source, w'⟩
  · exact absurd (accept_eq_error_iff.1 ha) (hlookup t)
  · refine ⟨fun kind => by simp [Outcome.after, Outcome.start], iff_of_true rfl ?_⟩
    rintro ⟨hsome, -⟩
    exact hsome (by simp only [sending?, ha])
  · obtain ⟨-, hclients, hreplies⟩ := accept_some ha
    rw [CallsOff, sending?_of_accept ha, ← hclients, ← hreplies]
    by_cases hoff : (n.prepare source event.build w').2 ≠ none ∧ w'.clients.dryRun = false ∧
        (Reply.next w'.replies).1.isCancelled = true
    · obtain ⟨hsome, hlive, hcancelled⟩ := hoff
      obtain ⟨s, hs⟩ := Option.ne_none_iff_exists'.1 hsome
      have hd : ¬w'.Delivers s := by
        simp [World.Delivers, hlive, Reply.trouble?_eq_none_iff, Reply.isTaken_of_isCancelled hcancelled]
      obtain ⟨htrouble, hcounted⟩ := notifySafely_calledOff hs hd hcancelled event.kind
      refine ⟨fun kind => ?_, iff_of_false htrouble (not_not_intro ⟨hsome, hlive, hcancelled⟩)⟩
      simp [Outcome.after, hcounted]
    · have hreported : Reported event.kind event.build w' (n.prepare source event.build w').2
          (n.notifySafely event.kind source event.build w') := by
        refine notifySafely_reported (hrevision source) (fun s hs hd => ?_) event.kind
        refine Bool.eq_false_iff.2 fun hcancelled => hoff ⟨hs ▸ Option.some_ne_none s, ?_, hcancelled⟩
        exact Bool.eq_false_iff.2 fun hdry => hd (.inl hdry)
      refine ⟨fun kind => ?_, iff_of_true hreported.trouble hoff⟩
      simp [Outcome.after, commandLine_not_mem_of_reported hreported]

end Notifier

namespace CommandLine

variable {s : Surroundings} {sources : List Source} {event : Event} {before : Shared}

/-! ## One run -/

/-- The usual notifier's look-ups do not fail. -/
theorem handled_ends (s : Surroundings) (sources : List Source) (event : Event) (before : Shared) :
    (∀ kind, .commandLine kind ∉ (s.handled sources event before).counted) ∧
      ((s.handled sources event before).trouble = none ↔
        ¬(Notifier.usual sources s.settings.rootUrl s.env).CallsOff event (s.world before)) := by
  refine Notifier.handle_ends ?_ nofun
  rintro t (ht | ⟨-, _, -, ht⟩) <;> cases ht

/-- A report counts what handling its event counts, and is counted unless the work was called off. -/
theorem dispatch_counted (s : Surroundings) (sources : List Source) (event : Event) (before : Shared) :
    (dispatch s before sources event).counted = (s.handled sources event before).counted ++
      if (s.handled sources event before).trouble = none then [.commandLine event.kind] else [] := by
  unfold dispatch Surroundings.handled Surroundings.world
  dsimp only
  cases ((Notifier.usual sources s.settings.rootUrl s.env).handle event
    ⟨before.markers, .empty ClientPool.usualCapacity s.settings.dryRun, before.replies⟩).trouble with
  | some t => exact (List.append_nil _).symm
  | none => exact (push_untouched _ _).2

/-- A report is counted once for the kind of its event, unless the work was called off. -/
theorem count_dispatch (s : Surroundings) (sources : List Source) (event : Event) (before : Shared) (kind : EventKind) :
    (dispatch s before sources event).counted.count (.commandLine kind) =
      if event.kind = kind ∧ (s.handled sources event before).trouble = none then 1 else 0 := by
  rw [dispatch_counted, List.count_append,
    List.count_eq_zero_of_not_mem ((handled_ends s sources event before).1 kind), Nat.zero_add]
  by_cases ht : (s.handled sources event before).trouble = none <;> by_cases hk : event.kind = kind <;> simp [ht, hk]

/-- Why nothing comes to Bitbucket of an event that is handled to the end. -/
inductive Surroundings.Wastes (s : Surroundings) (sources : List Source) (event : Event) (before : Shared) : Prop
  /-- No status is made of it. -/
  | unmade (h : (Notifier.usual sources s.settings.rootUrl s.env).sending? event (s.world before) = none)
  /-- Statuses are made and not posted. -/
  | dry (h : s.settings.dryRun = true)
  /-- The answer to the status is an error, and the work is not called off. -/
  | refused (error : (Reply.next before.replies).1.isTaken = false)
      (goesOn : (Reply.next before.replies).1.isCancelled = false)

/-- An event that is handled to the end has one status taken or is in vain; what is called off is neither. -/
theorem handled_cases (s : Surroundings) (sources : List Source) (event : Event) (before : Shared) :
    let o := s.handled sources event before
    let delivered := (taken o.posts before.replies).length
    o.trouble = none ∧ delivered = 1 ∧ ¬s.Wastes sources event before ∨
      o.trouble = none ∧ delivered = 0 ∧ s.Wastes sources event before ∨
      o.trouble ≠ none ∧ delivered = 0 ∧ ¬s.Wastes sources event before := by
  intro o delivered
  have htrouble : o.trouble = none ↔ _ := (handled_ends s sources event before).2
  have hposts : o.posts = _ := Notifier.posts_handle _ event (s.world before)
  have hdryRun : (s.world before).clients.dryRun = s.settings.dryRun := rfl
  have hreplies : (s.world before).replies = before.replies := rfl
  rw [Notifier.CallsOff, hdryRun, hreplies] at htrouble
  rw [hdryRun] at hposts
  cases hs : (Notifier.usual sources s.settings.rootUrl s.env).sending? event (s.world before) with
  | none =>
    have hnil : o.posts = [] := by rw [hposts, hs]; simp
    exact .inr (.inl ⟨htrouble.2 fun h => h.1 hs, by simp [delivered, hnil, taken, answered], .unmade hs⟩)
  | some m =>
  cases hdry : s.settings.dryRun with
  | true =>
    have hnil : o.posts = [] := by rw [hposts, hdry]; rfl
    refine .inr (.inl ⟨htrouble.2 fun h => ?_, by simp [delivered, hnil, taken, answered], .dry hdry⟩)
    exact absurd hdry (by simp [h.2.1])
  | false =>
  have hone : o.posts = [m.post] := by rw [hposts, hdry, hs]; rfl
  have hwastes (h : s.Wastes sources event before) : (Reply.next before.replies).1.isTaken = false ∧
      (Reply.next before.replies).1.isCancelled = false := by
    cases h with
    | unmade h => cases hs.symm.trans h
    | dry h => cases hdry.symm.trans h
    | refused error goesOn => exact ⟨error, goesOn⟩
  simp only [delivered, hone, taken_singleton]
  cases htaken : (Reply.next before.replies).1.isTaken with
  | true =>
    refine .inl ⟨htrouble.2 fun h => ?_, rfl, fun h => ?_⟩
    · exact absurd htaken (by simp [Reply.isTaken_of_isCancelled h.2.2])
    · exact absurd htaken (by simp [(hwastes h).1])
  | false =>
  cases hcancelled : (Reply.next before.replies).1.isCancelled with
  | true =>
    refine .inr (.inr ⟨fun h => ?_, rfl, fun h => ?_⟩)
    · exact htrouble.1 h ⟨hs ▸ Option.some_ne_none m, hdry, hcancelled⟩
    · exact absurd hcancelled (by simp [(hwastes h).2])
  | false =>
    refine .inr (.inl ⟨htrouble.2 fun h => ?_, rfl, .refused htaken hcancelled⟩)
    exact absurd hcancelled (by simp [h.2.2])

/-! ## A run in its place -/

/-- The kind of event that words ask for a report of. -/
def reportedKind? (words : List String) : Option EventKind :=
  match Invocation.read words with
  | .read invocation =>
    match invocation.verb.read invocation.words with
    | .read (.report kind _) => some kind
    | _ => none
  | _ => none

theorem Asks.reportedKind? {words : List String} {kind : EventKind} {path : String} (h : Asks words kind path) :
    reportedKind? words = some kind := by
  obtain ⟨invocation, hread, hverb⟩ := h
  simp only [CommandLine.reportedKind?, hread, hverb]

/-- A run in its place among others: how it is called, and what it finds of what runs share. -/
structure Stage where
  call : Call
  before : Shared

/-- The places of runs one after the other. -/
def stages : List Call → Shared → List Stage
  | [], _ => []
  | c :: rest, before => ⟨c, before⟩ :: stages rest (run c.surroundings before c.words).shared

namespace Stage

/-- The run. -/
def run (g : Stage) : Run := CommandLine.run g.call.surroundings g.before g.call.words

/-- The runs one after the other are those in their places. -/
theorem map_run_stages : ∀ (calls : List Call) (before : Shared), (stages calls before).map run = runAll calls before
  | [], _ => rfl
  | c :: rest, before => congrArg (_ :: ·) (map_run_stages rest (CommandLine.run c.surroundings before c.words).shared)

/-- The statuses that Bitbucket takes of a run that is to report an event of a kind. -/
def delivered (kind : EventKind) (g : Stage) : List Post :=
  if reportedKind? g.call.words = some kind then taken g.run.posts g.before.replies else []

/-- A run handles an event of a kind to the end, and Bitbucket takes no status. -/
def InVain (kind : EventKind) (g : Stage) : Prop :=
  ∃ sources event, g.call.surroundings.Reports g.call.words sources event ∧ event.kind = kind ∧
    g.call.surroundings.Wastes sources event g.before

/-- A run that reports an event is in vain just if the event is of the kind and comes to nothing. -/
theorem inVain_iff {kind : EventKind} {g : Stage}
    (h : g.call.surroundings.Reports g.call.words sources event) :
    g.InVain kind ↔ event.kind = kind ∧ g.call.surroundings.Wastes sources event g.before := by
  refine ⟨?_, fun ⟨hkind, hwastes⟩ => ⟨sources, event, h, hkind, hwastes⟩⟩
  rintro ⟨sources', event', h', hkind, hwastes⟩
  obtain ⟨rfl, rfl⟩ := h.unique h'
  exact ⟨hkind, hwastes⟩

open scoped Classical in
/-- A run is counted as often as a status of it is taken, and once if it is in vain. -/
theorem count_eq (kind : EventKind) (g : Stage) :
    g.run.counted.count (.commandLine kind) = (g.delivered kind).length + if g.InVain kind then 1 else 0 := by
  by_cases h : ∃ sources event, g.call.surroundings.Reports g.call.words sources event
  · obtain ⟨sources, event, hreports⟩ := h
    obtain ⟨path, hasks, -⟩ := hreports.given
    obtain ⟨threshold, hrun⟩ := hreports.run_eq g.before
    have hcounted : g.run.counted = (dispatch g.call.surroundings g.before sources event).counted := by
      rw [run, hrun]
      rfl
    have hposts : g.run.posts = (g.call.surroundings.handled sources event g.before).posts := by
      rw [run, hrun, ← dispatch_posts]
      rfl
    rw [hcounted, count_dispatch, delivered, hasks.reportedKind?, hposts]
    simp only [Option.some.injEq, inVain_iff hreports]
    by_cases hkind : event.kind = kind
    · simp only [hkind, true_and, if_true]
      rcases handled_cases g.call.surroundings sources event g.before with h | h | h <;> simp [h]
    · simp [hkind]
  · -- nothing is reported, so the run stops before it has posted or counted anything
    have hvain : ¬g.InVain kind := fun ⟨sources, event, hreports, _⟩ => h ⟨sources, event, hreports⟩
    rcases course g.call.surroundings g.call.words with ⟨sources, event, _, hreports, -⟩ | ⟨code, -, hstops⟩
    · exact absurd ⟨sources, event, hreports⟩ h
    · have hnoTrace : g.run.LeavesNoTrace g.before := (hstops g.before g.call.surroundings.pushTrouble).noTrace
      simp [hnoTrace.counted, delivered, hnoTrace.posts, taken, answered, hvain]

open scoped Classical in
/-- Over any places, what is counted beside the statuses that are taken is runs in vain. -/
theorem count_flatMap (kind : EventKind) (places : List Stage) :
    (places.flatMap fun g => g.run.counted).count (.commandLine kind) =
      (places.flatMap (delivered kind)).length + places.countP fun g => g.InVain kind := by
  induction places with
  | nil => rfl
  | cons g rest ih =>
    rw [List.flatMap_cons, List.flatMap_cons, List.count_append, List.length_append, List.countP_cons, count_eq, ih]
    simp only [decide_eq_true_eq]
    omega

end Stage

open scoped Classical in
/-- **What is counted of runs is the number of statuses that Bitbucket took and, beside them, of runs in vain.** Take
any runs one after the other, each with any words, settings, environment, files and standard input, and whatever becomes
of its push, and take any markers and any answers of Bitbucket. For either kind of event the count is never less than
the number of statuses that were posted and taken. It is equal to it just if no run is in vain: every event of the kind
that is handled to the end has a status, no run for one is dry, and no answer to one is an error unless it calls the
work off. -/
theorem count_runAll (calls : List Call) (before : Shared) (kind : EventKind) :
    let count := ((runAll calls before).flatMap Run.counted).count (.commandLine kind)
    let delivered := ((stages calls before).flatMap (Stage.delivered kind)).length
    count = delivered + (stages calls before).countP (fun g => g.InVain kind) ∧
      (count = delivered ↔ ∀ g ∈ stages calls before, ¬g.InVain kind) := by
  intro count delivered
  have hcount : count = delivered + (stages calls before).countP fun g => g.InVain kind := by
    rw [← Stage.count_flatMap]
    show ((runAll calls before).flatMap Run.counted).count _ = _
    rw [← Stage.map_run_stages, List.flatMap_map]
  refine ⟨hcount, ?_⟩
  rw [hcount, Nat.add_eq_left, List.countP_eq_zero]
  simp only [decide_eq_true_eq]

/-- A team's build is checked out twice, and is completed while Bitbucket is busy. Of the first checkout alone a status
is taken, and all three runs are counted. -/
theorem count_runAll_busy :
    let sourcesFile : List UInt8 :=
      Text.Utf8.encode "sources:\n- repo-owner: team\n  repository: shared\n  jobs: [\"red/*\"]\n".toList
    let settings : Settings :=
      { Settings.default with rootUrl := some "https://ci.example.com/", markerDirectory := some "markers" }
    let payload (event : Event) : Payload := ⟨event.kind, event.toJson.chars⟩
    let events : List Event :=
      [.checkout (.ofTeam "red") none, .checkout (.ofTeam "red") none, .completed (.ofTeam "red")]
    let calls :=
      events.map fun event => Call.ofInput settings (fun _ => none) (fun _ => some sourcesFile) (payload event)
    let before : Shared := ⟨.empty, [.answer 201 "", .answer 503 "busy"]⟩
    let count (kind : EventKind) := ((runAll calls before).flatMap Run.counted).count (.commandLine kind)
    let delivered (kind : EventKind) := ((stages calls before).flatMap (Stage.delivered kind)).length
    count .checkout = 2 ∧ delivered .checkout = 1 ∧ count .completed = 1 ∧ delivered .completed = 0 := by
  decide +kernel

end CommandLine

end CommitStatus
