import CommitStatus.Proofs.Build.Reading
import CommitStatus.Proofs.Report.Addressing
import CommitStatus.Proofs.Web.Answers

/-!
# What is counted of an event

Each event is counted, and beside it at most one more thing is: that its status was sent, why there is none, or an error
(`accounted`). A report ends in one of four ways (`Reported`), and each counts one thing; an event that comes to no
report counts nothing more, or an error if a look-up failed (`accept_eq_none_iff`, `accept_eq_error_iff`).

The revision of a checkout is looked up twice: before its build is marked, and when it is reported. The second look-up
may come to something else than the first (`handleAgain`).
-/

namespace CommitStatus

/-- What is said once the result of a build was sent. -/
def notifiedText : String := "[Bitbucket] Build result notified"

/-- A status that is sent comes to a good end: the run is dry, or the next answer is no error. -/
def World.Delivers (w : World) (s : Sending) : Prop :=
  w.clients.dryRun = true ∨ (Reply.next w.replies).1.trouble? s.post.url = none

/-! ## The ends of a report -/

/-- How the report of a build ends, given what was prepared to be sent. -/
inductive Reported (kind : EventKind) (build : Build) (w : World) : Option Sending → Outcome → Prop
  /-- There is nothing to send, for a reason. -/
  | skipped {o : Outcome} (reason : SkipReason) (counted : o.counted = [.skipped reason]) (posts : o.posts = [])
      (trouble : o.trouble = none) : Reported kind build w none o
  /-- The preparation failed. -/
  | failed {o : Outcome} (counted : o.counted = [.error (.event kind)]) (posts : o.posts = [])
      (trouble : o.trouble = none) : Reported kind build w none o
  /-- The status was sent, or in a dry run made. -/
  | delivered {o : Outcome} {s : Sending} (delivers : w.Delivers s)
      (counted : o.counted = [.notification s.status.state])
      (posts : o.posts = if w.clients.dryRun then [] else [s.post]) (trouble : o.trouble = none)
      (said : notifiedText ∈ o.remarks.entries ↔ build.result ≠ none) : Reported kind build w (some s) o
  /-- The status was sent and met an error. -/
  | refused {o : Outcome} {s : Sending} (delivers : ¬w.Delivers s) (counted : o.counted = [.error (.event kind)])
      (posts : o.posts = [s.post]) (trouble : o.trouble = none) : Reported kind build w (some s) o

/-- A report ends without trouble. -/
theorem Reported.trouble {kind : EventKind} {build : Build} {w : World} {sending : Option Sending} {o : Outcome}
    (h : Reported kind build w sending o) : o.trouble = none := by
  cases h <;> assumption

namespace Notifier

variable {n : Notifier} {source : Source} {build : Build} {event : Event} {w : World}

/-- A preparation that gives nothing to send has a reason that is counted, or failed. -/
theorem prepare_none (hrevision : ∀ t, n.findRevision source build = .error t → t.isCancelled = false)
    (h : (n.prepare source build w).2 = none) :
    (∃ reason, (n.prepare source build w).1.counted = [.skipped reason] ∧ (n.prepare source build w).1.trouble = none) ∨
      ∃ t, (n.prepare source build w).1.counted = [] ∧ (n.prepare source build w).1.trouble = some t ∧
        t.isCancelled = false := by
  cases hd : source.policy.notificationsDisabled with
  | true => exact .inl ⟨.disabled, by simp only [prepare, hd]; exact ⟨rfl, rfl⟩⟩
  | false =>
  rcases hr : n.findRevision source build with t | _ | revision
  · exact .inr ⟨t, by simp only [prepare, hd, hr]; exact ⟨rfl, rfl, hrevision t hr⟩⟩
  · exact .inl ⟨.noRevision, by simp only [prepare, hd, hr]; exact ⟨rfl, rfl⟩⟩
  cases hh : revision.hash? with
  | none => exact .inl ⟨.noHash, by simp only [prepare, hd, hr, hh]; exact ⟨rfl, rfl⟩⟩
  | some hash =>
  rcases ho : w.clients.obtain n.env source revision.pullRequest? with ⟨clients, records, t | client⟩
  · have ht : t.isCancelled = false := by
      rcases ClientPool.obtain_error (t := t) (by rw [ho]) with rfl | rfl <;> rfl
    refine .inr ⟨t, ?_⟩
    simp only [prepare, hd, hr, hh, Outcome.start, Outcome.say, ho]
    exact ⟨rfl, rfl, ht⟩
  · rw [prepare_eq_draft hd hr hh ho] at h ⊢
    simp only [draft] at h ⊢
    cases hl : n.linkFor client.isCloud build with
    | error e => exact .inl ⟨.invalidUrl, rfl, rfl⟩
    | ok url =>
      cases hs : source.policy.state? client.isCloud build.result with
      | none => exact .inl ⟨.noState, rfl, rfl⟩
      | some state => simp only [hl, hs] at h; cases h

/-- The lines on a description do not say that the result was sent. -/
theorem notifiedText_not_mem_lines (description : Option String) : notifiedText ∉ Description.lines description := by
  unfold Description.lines
  rcases description.bind Description.objection? with _ | _ | _ <;> decide +kernel

/-- Nor does the line before a report. -/
theorem notifiedText_ne_openingLine (revision : Revision) : notifiedText ≠ openingLine revision := by
  cases revision <;> simp [notifiedText, openingLine]

/-- A preparation that gives a status to send has counted nothing, and did not say that the result was sent. -/
theorem prepare_silent {s : Sending} (h : (n.prepare source build w).2 = some s) :
    (n.prepare source build w).1.counted = [] ∧ notifiedText ∉ (n.prepare source build w).1.remarks.entries := by
  obtain ⟨hd, revision, hash, clients, records, url, state, hr, hh, ho, hl, hs, -⟩ := prepare_some h
  rw [prepare_eq_draft hd hr hh ho]
  simp only [draft, hl, hs]
  refine ⟨rfl, ?_⟩
  have hentries : ∀ texts : List String, BuildLog.entries (texts.map .line) = texts := by
    intro texts
    induction texts with
    | nil => rfl
    | cons text rest ih => exact congrArg (text :: ·) ih
  show notifiedText ∉ BuildLog.entries ((openingLine revision :: Description.lines build.description).map .line)
  rw [hentries, List.mem_cons, not_or]
  exact ⟨notifiedText_ne_openingLine revision, notifiedText_not_mem_lines build.description⟩

/-- A status that comes to a good end is posted unless the run is dry, without trouble. -/
theorem send_of_delivers {s : Sending} (h : w.Delivers s) :
    ∃ clients replies, w.clients.send w.replies s.client s.status =
      (if w.clients.dryRun then [] else [s.post], clients, replies, none) := by
  cases hd : w.clients.dryRun with
  | true => exact ⟨_, _, ClientPool.send_dry _ _ _ hd⟩
  | false =>
    have hok : (Reply.next w.replies).1.trouble? (s.client.statusUrl s.status.hash) = none :=
      h.resolve_left (by simp [hd])
    rw [ClientPool.send_live _ _ _ hd, hok]
    exact ⟨_, _, rfl⟩

/-- Any other status that is sent is posted and meets trouble. -/
theorem send_of_not_delivers {s : Sending} (h : ¬w.Delivers s) : w.clients.dryRun = false ∧ ∃ clients replies t,
    w.clients.send w.replies s.client s.status = ([s.post], clients, replies, some t) ∧
      t.isCancelled = (Reply.next w.replies).1.isCancelled := by
  rw [World.Delivers, not_or, Bool.not_eq_true] at h
  obtain ⟨hd, herror⟩ := h
  obtain ⟨t, ht⟩ := Option.ne_none_iff_exists'.1 herror
  have ht' : (Reply.next w.replies).1.trouble? (s.client.statusUrl s.status.hash) = some t := ht
  rw [ClientPool.send_live _ _ _ hd, ht']
  exact ⟨hd, _, _, t, rfl, Reply.isCancelled_trouble? ht⟩

/-- What was prepared to be sent is sent, and ends as the answer says. -/
theorem sendStatus_reported {o : Outcome} {s : Sending} (hposts : o.posts = []) (hcounted : o.counted = [])
    (htrouble : o.trouble = none) (hsilent : notifiedText ∉ o.remarks.entries) (hreplies : o.world.replies = w.replies)
    (hdry : o.world.clients.dryRun = w.clients.dryRun)
    (hreply : ¬w.Delivers s → (Reply.next w.replies).1.isCancelled = false) (kind : EventKind) :
    Reported kind build w (some s) ((sendStatus build s.client s.status o).settle kind build.id) := by
  have hdelivers : o.world.Delivers s ↔ w.Delivers s := by rw [World.Delivers, World.Delivers, hdry, hreplies]
  by_cases h : w.Delivers s
  · obtain ⟨clients, replies, hsend⟩ := send_of_delivers (hdelivers.2 h)
    rw [hdry] at hsend
    simp only [sendStatus, hsend]
    -- what was said before does not say that the result was sent, so this is said just if there is a result
    cases hr : build.result with
    | none =>
      rw [settle_of_none (by exact htrouble)]
      refine .delivered h ?_ ?_ htrouble ?_
      · exact congrArg (· ++ [_]) hcounted
      · exact congrArg (· ++ _) hposts
      · exact iff_of_false hsilent (by simp [hr])
    | some result =>
      rw [settle_of_none (by exact htrouble)]
      refine .delivered h ?_ ?_ htrouble ?_
      · exact congrArg (· ++ [_]) hcounted
      · exact congrArg (· ++ _) hposts
      · refine iff_of_true ?_ (by simp [hr])
        show notifiedText ∈ BuildLog.entries (o.remarks ++ [.line notifiedText])
        rw [BuildLog.entries, List.flatMap_append]
        exact List.mem_append_right _ List.mem_cons_self
  · obtain ⟨-, clients, replies, t, hsend, hcancelled⟩ := send_of_not_delivers fun h' => h (hdelivers.1 h')
    rw [hreplies, hreply h] at hcancelled
    simp only [sendStatus, hsend]
    rw [settle_of_some rfl hcancelled]
    exact .refused h (congrArg (· ++ [_]) hcounted) (congrArg (· ++ [_]) hposts) rfl

/-- **The report of a build ends in one of four ways**, unless the answer to its status calls the work off. -/
theorem notifySafely_reported (hrevision : ∀ t, n.findRevision source build = .error t → t.isCancelled = false)
    (hreply : ∀ s, (n.prepare source build w).2 = some s → ¬w.Delivers s →
      (Reply.next w.replies).1.isCancelled = false) (kind : EventKind) :
    Reported kind build w (n.prepare source build w).2 (n.notifySafely kind source build w) := by
  obtain ⟨hposts, -, hreplies, -⟩ := prepare_untouched n source build w
  rcases hp : n.prepare source build w with ⟨o, _ | s⟩
  · have hnone := prepare_none (w := w) hrevision (by rw [hp])
    rw [hp] at hposts hnone
    rw [notifySafely, notify, hp, finish]
    rcases hnone with ⟨reason, hcounted, ht⟩ | ⟨t, hcounted, ht, hc⟩
    · rw [settle_of_none ht]
      exact .skipped reason hcounted hposts ht
    · rw [settle_of_some ht hc]
      exact .failed (congrArg (· ++ [_]) hcounted) hposts rfl
  · have hsome : (n.prepare source build w).2 = some s := by rw [hp]
    have hdry := n.prepare_dryRun source build w
    obtain ⟨hcounted, hsilent⟩ := prepare_silent hsome
    have ht := prepare_trouble hsome
    rw [hp] at hposts hreplies hdry hcounted hsilent ht
    rw [notifySafely, notify, hp, finish]
    exact sendStatus_reported hposts hcounted ht hsilent hreplies hdry (hreply s hsome) kind

/-- An answer that calls the work off ends the report in trouble, and nothing is counted. -/
theorem notifySafely_calledOff {s : Sending} (h : (n.prepare source build w).2 = some s) (hd : ¬w.Delivers s)
    (hreply : (Reply.next w.replies).1.isCancelled = true) (kind : EventKind) :
    (n.notifySafely kind source build w).trouble ≠ none ∧ (n.notifySafely kind source build w).counted = [] := by
  obtain ⟨-, -, hreplies, -⟩ := prepare_untouched n source build w
  have hdry := n.prepare_dryRun source build w
  have hcounted := (prepare_silent h).1
  rw [notifySafely, notify]
  generalize n.prepare source build w = prepared at h hreplies hdry hcounted ⊢
  obtain ⟨o, sending⟩ := prepared
  obtain rfl : sending = some s := h
  have hd' : ¬o.world.Delivers s := by rwa [World.Delivers, hdry, hreplies]
  obtain ⟨-, clients, replies, t, hsend, hcancelled⟩ := send_of_not_delivers hd'
  rw [hreplies, hreply] at hcancelled
  simp only [finish, sendStatus, hsend, Outcome.fail, Outcome.settle, hcancelled, if_true]
  exact ⟨Option.some_ne_none t, hcounted⟩

/-! ## Events that come to no report -/

/-- An event is passed over: there is no source for it, or it is a checkout that has no revision or whose build is
marked. -/
def PassesOver (n : Notifier) (event : Event) (w : World) : Prop :=
  n.findSource event.build.job = .ok none ∨
    event.kind = .checkout ∧ ∃ source, n.findSource event.build.job = .ok (some source) ∧
      (n.findRevision source event.build = .ok none ∨
        (∃ revision, n.findRevision source event.build = .ok (some revision)) ∧ w.markers.has event.build.id = true)

/-- A look-up fails before the report: that of the source, or that of the revision of a checkout. -/
def LookupFails (n : Notifier) (event : Event) (t : Trouble) : Prop :=
  n.findSource event.build.job = .error t ∨
    event.kind = .checkout ∧ ∃ source, n.findSource event.build.job = .ok (some source) ∧
      n.findRevision source event.build = .error t

/-- The events that come to no report are those that are passed over. -/
theorem accept_eq_none_iff : n.accept event w = .ok none ↔ n.PassesOver event w := by
  unfold PassesOver accept
  rcases n.findSource event.build.job with t | _ | source
  · simp
  · simp
  cases event with
  | completed build => simp [Event.kind]
  | checkout build workspace =>
    rcases hr : n.findRevision source build with t | _ | revision
    · simp [Event.build, hr]
    · simp [Event.build, Event.kind, hr]
    · cases hm : w.markers.has build.id <;> simp [Event.build, Event.kind, hr, hm, Markers.add]

/-- An event comes to an error before its report just if a look-up fails. -/
theorem accept_eq_error_iff {t : Trouble} : n.accept event w = .error t ↔ n.LookupFails event t := by
  unfold LookupFails accept
  rcases n.findSource event.build.job with u | _ | source
  · simp
  · simp
  cases event with
  | completed build => simp [Event.kind]
  | checkout build workspace =>
    rcases hr : n.findRevision source build with u | _ | revision
    · simp [Event.build, Event.kind, hr]
    · simp [Event.build, hr]
    · cases hm : w.markers.has build.id <;> simp [Event.build, hr, hm, Markers.add]

/-! ## Handling -/

/-- The revisions that the report of a build looks up. -/
abbrev RevisionLookup := Source → Build → Except Trouble (Option Revision)

/-- Handle an event when the revision comes to something else by the time it is looked up for the report. -/
def handleAgain (n : Notifier) (again : RevisionLookup) (event : Event) (w : World) : Outcome :=
  (match n.accept event w with
    | .error t => (Outcome.start w).fail t
    | .ok none => Outcome.start w
    | .ok (some (source, w')) =>
      { n with findRevision := again }.notifySafely event.kind source event.build w').after [.event event.kind]

/-- Handling is this when both look-ups come to the same. -/
theorem handleAgain_self (n : Notifier) (event : Event) (w : World) :
    n.handleAgain n.findRevision event w = n.handle event w :=
  (n.handle_eq event w).symm

/-- The status that is sent, or in a dry run only made, when the second look-up may come to something else. -/
def sendingAgain? (n : Notifier) (again : RevisionLookup) (event : Event) (w : World) : Option Sending :=
  match n.accept event w with
  | .ok (some (source, w')) => ({ n with findRevision := again }.prepare source event.build w').2
  | _ => none

theorem handleAgain_of_accept {again : RevisionLookup} {w' : World} (h : n.accept event w = .ok (some (source, w'))) :
    n.handleAgain again event w =
      ({ n with findRevision := again }.notifySafely event.kind source event.build w').after [.event event.kind] := by
  simp only [handleAgain, h]

theorem sendingAgain?_of_accept {again : RevisionLookup} {w' : World} (h : n.accept event w = .ok (some (source, w'))) :
    n.sendingAgain? again event w = ({ n with findRevision := again }.prepare source event.build w').2 := by
  simp only [sendingAgain?, h]

/-- Handling ends without trouble where no look-up fails and the answer does not call the work off. -/
theorem trouble_handle (hlookup : ∀ t, ¬n.LookupFails event t)
    (hrevision : ∀ source t, n.findRevision source event.build = .error t → t.isCancelled = false)
    (hreply : (Reply.next w.replies).1.isCancelled = false) : (n.handle event w).trouble = none := by
  rw [handle_eq]
  rcases ha : n.accept event w with t | _ | ⟨source, w'⟩
  · exact absurd (accept_eq_error_iff.1 ha) (hlookup t)
  · rfl
  · have hreply' : (Reply.next w'.replies).1.isCancelled = false := by rw [(accept_some ha).2.2]; exact hreply
    exact (notifySafely_reported (hrevision source) (fun _ _ _ => hreply') event.kind).trouble

end Notifier

/-! ## Accounts -/

/-- The end of an event is counted, as opposed to the event itself. -/
def Counter.isEnd : Counter → Bool
  | .notification _ | .skipped _ | .error _ => true
  | _ => false

/-- What is counted of an event: the event itself, and a rest.

- The rest is at most one notification, skip or error, and nothing just if the event is passed over.
- At most one status is posted: the one that is sent, unless the run is dry. A state is counted just if a status with
  this state was sent with a good end, and the build's log then says so just if the build has a result.
- A status that met an error was posted and counts an error of its event; a look-up that failed before the report counts
  an error of the dispatch. -/
structure Accounted (n : Notifier) (again : Notifier.RevisionLookup) (event : Event) (w : World) (o : Outcome)
    (rest : List Counter) : Prop where
  counted : o.counted = .event event.kind :: rest
  isEnd : ∀ c ∈ rest, c.isEnd = true
  once : rest.length ≤ 1
  nothing : rest = [] ↔ n.PassesOver event w
  posts : o.posts = if w.clients.dryRun then [] else ((n.sendingAgain? again event w).map Sending.post).toList
  onePost : o.posts.length ≤ 1
  notification : ∀ state, .notification state ∈ rest ↔
    ∃ s, n.sendingAgain? again event w = some s ∧ w.Delivers s ∧ s.status.state = state
  said : ∀ s, n.sendingAgain? again event w = some s → w.Delivers s →
    (notifiedText ∈ o.remarks.entries ↔ event.build.result ≠ none)
  refused : ∀ s, n.sendingAgain? again event w = some s → ¬w.Delivers s →
    o.posts = [s.post] ∧ rest = [.error (.event event.kind)]
  lookup : ∀ t, n.LookupFails event t → o.posts = [] ∧ rest = [.error .dispatch]

namespace Notifier

variable {n : Notifier} {again : RevisionLookup} {event : Event} {w : World}

/-- An event that is reported is accounted for by the end of its report. -/
theorem accounted_of_reported {markers : Markers} {o : Outcome} (hpasses : ¬n.PassesOver event w)
    (hlookup : ∀ t, ¬n.LookupFails event t)
    (h : Reported event.kind event.build { w with markers } (n.sendingAgain? again event w) o) :
    Accounted n again event w (o.after [.event event.kind]) o.counted := by
  generalize hs : n.sendingAgain? again event w = sending at h
  cases h with
  | skipped reason counted posts trouble =>
    refine ⟨rfl, ?_, ?_, ?_, ?_, ?_, ?_, ?_, ?_, fun t ht => absurd ht (hlookup t)⟩
    all_goals simp [counted, posts, hpasses, hs, Outcome.after, Counter.isEnd]
  | failed counted posts trouble =>
    refine ⟨rfl, ?_, ?_, ?_, ?_, ?_, ?_, ?_, ?_, fun t ht => absurd ht (hlookup t)⟩
    all_goals simp [counted, posts, hpasses, hs, Outcome.after, Counter.isEnd]
  | @delivered _ s delivers counted posts trouble said =>
    have hd : w.Delivers s := delivers
    have hstate (state : State) : s.status.state = state ↔ state = s.status.state := eq_comm
    have hposts : (o.after [.event event.kind]).posts = if w.clients.dryRun then [] else [s.post] := posts
    have hone : (o.after [.event event.kind]).posts.length ≤ 1 := by rw [hposts]; split <;> simp
    refine ⟨rfl, ?_, ?_, ?_, hs ▸ hposts, hone, ?_, ?_, ?_, fun t ht => absurd ht (hlookup t)⟩
    all_goals simp [counted, hpasses, hs, hd, said, hstate, Outcome.after, Counter.isEnd]
  | @refused _ s delivers counted posts trouble =>
    have hd : ¬w.Delivers s := delivers
    have hlive : w.clients.dryRun = false := (send_of_not_delivers hd).1
    refine ⟨rfl, ?_, ?_, ?_, ?_, ?_, ?_, ?_, ?_, fun t ht => absurd ht (hlookup t)⟩
    all_goals simp [counted, posts, hpasses, hs, hd, hlive, Outcome.after, Counter.isEnd]

/-- Each event is accounted for, and ends without trouble. -/
theorem handleAgain_accounted (hsource : ∀ t, n.findSource event.build.job = .error t → t.isCancelled = false)
    (hrevision : ∀ source t, n.findRevision source event.build = .error t → t.isCancelled = false)
    (hagain : ∀ source t, again source event.build = .error t → t.isCancelled = false)
    (hreply : (Reply.next w.replies).1.isCancelled = false) :
    (Web.contain (n.handleAgain again event w)).trouble = none ∧
      ∃ rest, Accounted n again event w (Web.contain (n.handleAgain again event w)) rest := by
  rcases ha : n.accept event w with t | _ | ⟨source, w'⟩
  · have hfails : n.LookupFails event t := accept_eq_error_iff.1 ha
    have hpasses : ¬n.PassesOver event w := by rw [← accept_eq_none_iff, ha]; simp
    have hc : t.isCancelled = false := by
      rcases hfails with h | ⟨-, source, -, h⟩
      · exact hsource t h
      · exact hrevision source t h
    have hs : n.sendingAgain? again event w = none := by simp only [sendingAgain?, ha]
    have ho : n.handleAgain again event w = ((Outcome.start w).fail t).after [.event event.kind] := by
      simp only [handleAgain, ha]
    rw [ho, Web.contain_of_some rfl hc]
    refine ⟨rfl, [.error .dispatch], rfl, ?_, ?_, ?_, ?_, ?_, ?_, ?_, ?_, ?_⟩
    all_goals simp [hpasses, hs, Counter.isEnd, Outcome.after, Outcome.fail, Outcome.start, Outcome.log, Outcome.count]
  · have hpasses : n.PassesOver event w := accept_eq_none_iff.1 ha
    have hfails : ∀ t, ¬n.LookupFails event t := fun t h => by
      rw [← accept_eq_error_iff, ha] at h
      cases h
    have hs : n.sendingAgain? again event w = none := by simp only [sendingAgain?, ha]
    have ho : n.handleAgain again event w = (Outcome.start w).after [.event event.kind] := by
      simp only [handleAgain, ha]
    rw [ho, Web.contain_of_none rfl]
    refine ⟨rfl, [], rfl, ?_, ?_, ?_, ?_, ?_, ?_, ?_, ?_, fun t h => absurd h (hfails t)⟩
    all_goals simp [hpasses, hs, Outcome.after, Outcome.start]
  · have hpasses : ¬n.PassesOver event w := by rw [← accept_eq_none_iff, ha]; simp
    have hfails : ∀ t, ¬n.LookupFails event t := fun t h => by
      rw [← accept_eq_error_iff, ha] at h
      cases h
    have hreported : Reported event.kind event.build w'
        ({ n with findRevision := again }.prepare source event.build w').2
        ({ n with findRevision := again }.notifySafely event.kind source event.build w') :=
      notifySafely_reported (hagain source) (fun _ _ _ => by rw [(accept_some ha).2.2]; exact hreply) event.kind
    rw [← sendingAgain?_of_accept ha] at hreported
    obtain ⟨-, -, rfl⟩ := accept_eq_some_iff.1 ha
    have haccounted := accounted_of_reported hpasses hfails hreported
    have htrouble : (n.handleAgain again event w).trouble = none := by
      rw [handleAgain_of_accept ha]
      exact hreported.trouble
    rw [Web.contain_of_none htrouble]
    exact ⟨htrouble, _, handleAgain_of_accept ha ▸ haccounted⟩

end Notifier

/-- **Each event is accounted for by one end.** Take any state, any event that is read from the body of a request, any
look-ups of sources and revisions and any answer of Bitbucket that do not call the work off, also a second look-up of
the revision that comes to something else than the first. The event is answered with the build's log, it is counted
once, and what is counted beside it is as `Accounted` says. -/
theorem accounted (n : Notifier) (again : Notifier.RevisionLookup) (w : World) {kind : EventKind} {body : List UInt8}
    {event : Event} (hread : Event.read kind body = .ok event)
    (hsource : ∀ t, n.findSource event.build.job = .error t → t.isCancelled = false)
    (hrevision : ∀ source t, n.findRevision source event.build = .error t → t.isCancelled = false)
    (hagain : ∀ source t, again source event.build = .error t → t.isCancelled = false)
    (hreply : (Reply.next w.replies).1.isCancelled = false) :
    let o := Web.contain (n.handleAgain again event w)
    event.kind = kind ∧ (∃ rest, Accounted n again event w o rest) ∧
      (again = n.findRevision → Web.processEvent n kind body w = (o, some (.handled o.remarks.entries))) := by
  intro o
  obtain ⟨htrouble, haccounted⟩ := n.handleAgain_accounted hsource hrevision hagain hreply
  refine ⟨Event.kind_of_read hread, haccounted, ?_⟩
  rintro rfl
  have ho : Web.handleEvent n event w = o := by rw [Web.handleEvent, ← n.handleAgain_self]
  have hanswer : Web.answer? o = some (.handled o.remarks.entries) := Web.answer?_of_none htrouble
  simp only [Web.processEvent, hread, ho, hanswer]

/-- A team's completed build is sent to a busy server: the event is counted and so is the error, and one status was
posted. -/
theorem accounted_busy :
    let n := Notifier.usual [.ofTeam "red" none] (some "https://ci.example.com/") fun _ => none
    let event := Event.completed (.ofTeam "red")
    let body := Text.Utf8.encode event.toJson.chars
    let w : World := ⟨.empty, .empty 100 false, [.answer 503 "busy"]⟩
    let o := Web.contain (n.handleAgain n.findRevision event w)
    o.counted = [.event .completed, .error (.event .completed)] ∧ o.posts.length = 1 ∧
      (∃ rest, Accounted n n.findRevision event w o rest) ∧
      Web.processEvent n .completed body w = (o, some (.handled o.remarks.entries)) := by
  intro n event body w o
  have hread : Event.read .completed body = .ok event := Checked.titled_eq_ok_iff.2 (by decide +kernel)
  have hsource : ∀ t, n.findSource event.build.job = .error t → t.isCancelled = false := nofun
  have hrevision : ∀ source t, n.findRevision source event.build = .error t → t.isCancelled = false := nofun
  obtain ⟨-, haccounted, hprocess⟩ := accounted n n.findRevision w hread hsource hrevision hrevision rfl
  exact ⟨by decide +kernel, by decide +kernel, haccounted, hprocess rfl⟩

end CommitStatus
