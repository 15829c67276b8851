import CommitStatus.Proofs.Web.Accounting

/-!
# The payload decides the answer

The service leans on others: they find sources and revisions, hand out clients and take statuses. None of them decides
whether an event is answered with the build's log or rejected. What they raise ends as a remark and a count, wherever
they raise it (`handleWith_calm`, `contain_calm`); so the answer hangs on the payload alone, and a payload that is
rejected changes nothing (`answer_of_payload`).

Handling is put here for any way of handing out clients (`handleWith`, `processWith`); with the pool of clients it is
the handling of the service (`processWith_self`).
-/

namespace CommitStatus

/-- A way of handing out clients. -/
abbrev ClientLookup := ClientPool → Source → Option PullRequestHead → ClientPool × List LogRecord × Except Trouble Client

/-- Trouble, if there is any, does not call the work off. -/
def Outcome.Calm (o : Outcome) : Prop := ∀ t, o.trouble = some t → t.isCancelled = false

theorem Outcome.calm_of_none {o : Outcome} (h : o.trouble = none) : o.Calm := by
  intro t ht
  cases h.symm.trans ht

theorem Outcome.settle_calm {o : Outcome} (h : o.Calm) (kind : EventKind) (id : String) :
    (o.settle kind id).trouble = none := by
  cases ht : o.trouble with
  | none => rw [Notifier.settle_of_none ht, ht]
  | some t => rw [Notifier.settle_of_some ht (h t ht)]

namespace Notifier

/-- Clients from the pool. -/
def clientLookup (n : Notifier) : ClientLookup := fun p source head => p.obtain n.env source head

/-- Prepare the report of a build with a client that is handed out in some way. -/
def prepareWith (n : Notifier) (obtain : ClientLookup) (source : Source) (build : Build) (w : World) :
    Outcome × Option Sending :=
  let o := Outcome.start w
  if source.policy.notificationsDisabled then (o.skip .disabled, none)
  else match n.findRevision source build with
    | .error t => (o.fail t, none)
    | .ok none => (o.skip .noRevision, none)
    | .ok (some revision) =>
      match revision.hash? with
      | none => (o.skip .noHash, none)
      | some hash =>
        let o := o.say (openingLine revision)
        let key := statusKey build revision.branch source.policy.shareKeyBetweenBranchAndPr
        match obtain w.clients source revision.pullRequest? with
        | (clients, records, result) =>
          let o := { o with world := { o.world with clients } }.log records
          match result with
          | .error t => (o.fail t, none)
          | .ok client => n.draft source.policy build client key hash o

/-- Handle an event with any second look-up of its revision and any way of handing out clients. -/
def handleWith (n : Notifier) (again : RevisionLookup) (obtain : ClientLookup) (event : Event) (w : World) : Outcome :=
  (match n.accept event w with
    | .error t => (Outcome.start w).fail t
    | .ok none => Outcome.start w
    | .ok (some (source, w')) =>
      (finish event.build ({ n with findRevision := again }.prepareWith obtain source event.build w')).settle event.kind
        event.build.id).after [.event event.kind]

theorem handleWith_self (n : Notifier) : n.handleWith n.findRevision n.clientLookup = n.handle := by
  funext event w
  exact n.handleAgain_self event w

/-- None of those whom the service leans on calls its work off. -/
structure Undisturbed (n : Notifier) (again : RevisionLookup) (obtain : ClientLookup) (w : World) : Prop where
  source : ∀ job t, n.findSource job = .error t → t.isCancelled = false
  revision : ∀ source build t, n.findRevision source build = .error t → t.isCancelled = false
  again : ∀ source build t, again source build = .error t → t.isCancelled = false
  client : ∀ p source head t, (obtain p source head).2.2 = .error t → t.isCancelled = false
  reply : (Reply.next w.replies).1.isCancelled = false

variable {n : Notifier} {again : RevisionLookup} {obtain : ClientLookup} {w : World}

/-- With clients from the pool only the look-ups and the answer can call the work off. -/
theorem undisturbed_clientLookup (hsource : ∀ job t, n.findSource job = .error t → t.isCancelled = false)
    (hrevision : ∀ source build t, n.findRevision source build = .error t → t.isCancelled = false)
    (hreply : (Reply.next w.replies).1.isCancelled = false) :
    Undisturbed n n.findRevision n.clientLookup w where
  source := hsource
  revision := hrevision
  again := hrevision
  client p source head t ht := by
    rcases ClientPool.obtain_error ht with rfl | rfl <;> rfl
  reply := hreply

/-- A preparation is calm and leaves the answers to come alone. -/
theorem prepareWith_calm (hrevision : ∀ source build t, n.findRevision source build = .error t → t.isCancelled = false)
    (hclient : ∀ p source head t, (obtain p source head).2.2 = .error t → t.isCancelled = false) (source : Source)
    (build : Build) (w : World) :
    (n.prepareWith obtain source build w).1.Calm ∧ (n.prepareWith obtain source build w).1.world.replies = w.replies := by
  unfold prepareWith
  split
  · exact ⟨Outcome.calm_of_none rfl, rfl⟩
  rcases hr : n.findRevision source build with t | _ | revision
  · refine ⟨?_, rfl⟩
    rintro _ ⟨⟩
    exact hrevision source build t hr
  · exact ⟨Outcome.calm_of_none rfl, rfl⟩
  dsimp only
  cases revision.hash? with
  | none => exact ⟨Outcome.calm_of_none rfl, rfl⟩
  | some hash =>
  dsimp only
  rcases ho : obtain w.clients source revision.pullRequest? with ⟨clients, records, t | client⟩
  · refine ⟨?_, rfl⟩
    rintro _ ⟨⟩
    exact hclient w.clients source revision.pullRequest? t (by rw [ho])
  · obtain ⟨hworld, -, htrouble⟩ := draft_untouched n source.policy build client
      (statusKey build revision.branch source.policy.shareKeyBetweenBranchAndPr) hash
      ({ (Outcome.start w).say (openingLine revision) with world := { w with clients } }.log records)
    have hreplies := congrArg World.replies hworld
    exact ⟨Outcome.calm_of_none htrouble, hreplies⟩

/-- Sending is calm if the answer is. -/
theorem sendStatus_calm {o : Outcome} (h : o.Calm) (hreply : (Reply.next o.world.replies).1.isCancelled = false)
    (build : Build) (client : Client) (status : Status) : (sendStatus build client status o).Calm := by
  rcases hsend : o.world.clients.send o.world.replies client status with ⟨posts, clients, replies, trouble⟩
  cases trouble with
  | none =>
    simp only [sendStatus, hsend]
    cases build.result <;> exact h
  | some t =>
    simp only [sendStatus, hsend]
    rintro _ ⟨⟩
    cases hd : o.world.clients.dryRun with
    | true =>
      rw [ClientPool.send_dry _ _ _ hd] at hsend
      cases hsend
    | false =>
      rw [ClientPool.send_live _ _ _ hd] at hsend
      rw [Reply.isCancelled_trouble? (congrArg (·.2.2.2) hsend)]
      exact hreply

/-- Whatever those raise whom the service leans on, handling an event is calm. -/
theorem handleWith_calm (h : Undisturbed n again obtain w) (event : Event) :
    (n.handleWith again obtain event w).Calm := by
  unfold handleWith
  rcases ha : n.accept event w with t | _ | ⟨source, w'⟩
  · rintro _ ⟨⟩
    rcases accept_eq_error_iff.1 ha with hs | ⟨-, source, -, hr⟩
    · exact h.source _ _ hs
    · exact h.revision _ _ _ hr
  · exact Outcome.calm_of_none rfl
  · obtain ⟨hcalm, hreplies⟩ := prepareWith_calm (n := { n with findRevision := again }) h.again h.client source
      event.build w'
    have hreply : (Reply.next w'.replies).1.isCancelled = false := by
      rw [(accept_some ha).2.2]
      exact h.reply
    have hfinish : (finish event.build
        ({ n with findRevision := again }.prepareWith obtain source event.build w')).Calm := by
      generalize { n with findRevision := again }.prepareWith obtain source event.build w' = prepared at hcalm hreplies ⊢
      obtain ⟨o, _ | s⟩ := prepared
      · exact hcalm
      · exact sendStatus_calm hcalm (hreplies ▸ hreply) event.build s.client s.status
    exact Outcome.calm_of_none (Outcome.settle_calm hfinish event.kind event.build.id)

end Notifier

namespace Web

open Notifier

/-- Handle the body of a request, with any second look-up of revisions and any way of handing out clients. -/
def processWith (n : Notifier) (again : RevisionLookup) (obtain : ClientLookup) (kind : EventKind) (body : List UInt8)
    (w : World) : Outcome × Option Answer :=
  match Event.read kind body with
  | .error e => ((Outcome.start w).log [rejectionRecord kind], some (.rejected e))
  | .ok event =>
    let o := contain (n.handleWith again obtain event w)
    (o, answer? o)

theorem processWith_self (n : Notifier) : processWith n n.findRevision n.clientLookup = processEvent n := by
  funext kind body w
  unfold processWith processEvent
  cases Event.read kind body with
  | error e => rfl
  | ok event =>
    rw [handleWith_self]
    rfl

theorem contain_calm {o : Outcome} (h : o.Calm) : (contain o).trouble = none := by
  cases ht : o.trouble with
  | none => rw [contain_of_none ht, ht]
  | some t => rw [contain_of_some ht (h t ht)]

/-- The octets are a JSON text whose value is a valid event of a kind. -/
def IsEvent (kind : EventKind) (octets : List UInt8) : Prop :=
  ∃ text value event, Text.Utf8.decode? octets = some text ∧ Json.read? maxDepth text = some value ∧
    Event.check kind value = .valid event

theorem isEvent_iff {kind : EventKind} {octets : List UInt8} :
    IsEvent kind octets ↔ ∃ event, Event.read kind octets = .ok event := by
  constructor
  · rintro ⟨text, value, event, htext, hvalue, hevent⟩
    exact ⟨event, Checked.titled_eq_ok_iff.2 (Json.checkOctets_eq_valid_iff.2 ⟨text, value, htext, hvalue, hevent⟩)⟩
  · rintro ⟨event, hread⟩
    obtain ⟨text, value, htext, hvalue, hevent⟩ := Json.checkOctets_eq_valid_iff.1 (Checked.titled_eq_ok_iff.1 hread)
    exact ⟨text, value, event, htext, hvalue, hevent⟩

/-- **The payload decides the answer, and a payload that is rejected changes nothing.** Take any state of the markers,
the clients and the answers to come, and anything that may become of looking up sources and revisions, of handing out
clients and of sending a status, as long as it does not call the work off. The body of a request is answered with the
build's log just if it is an event of the kind that it is given out to be. Any other body is rejected: nothing is
posted or counted, and markers and clients stay as they are. -/
theorem answer_of_payload {n : Notifier} {again : RevisionLookup} {obtain : ClientLookup} {w : World}
    (h : Undisturbed n again obtain w) (kind : EventKind) (body : List UInt8) :
    let r := processWith n again obtain kind body w
    (IsEvent kind body → r.2 = some (.handled r.1.remarks.entries) ∧ statusOf? r = some 200) ∧
      (¬IsEvent kind body → (∃ e, r.2 = some (.rejected e)) ∧ statusOf? r = some 400 ∧ r.1.posts = [] ∧ r.1.world = w ∧
        r.1.counted = []) ∧
      (again = n.findRevision → obtain = n.clientLookup → r = processEvent n kind body w) := by
  intro r
  refine ⟨fun hevent => ?_, fun hevent => ?_, ?_⟩
  · obtain ⟨event, hread⟩ := isEvent_iff.1 hevent
    have hr : r = (contain (n.handleWith again obtain event w), answer? (contain (n.handleWith again obtain event w))) :=
      by simp only [r, processWith, hread]
    have hanswer := answer?_of_none (contain_calm (handleWith_calm h event))
    rw [hr, statusOf?, hanswer]
    exact ⟨rfl, rfl⟩
  · cases hread : Event.read kind body with
    | ok event => exact absurd (isEvent_iff.2 ⟨event, hread⟩) hevent
    | error e =>
      have hr : r = ((Outcome.start w).log [rejectionRecord kind], some (.rejected e)) := by
        simp only [r, processWith, hread]
      rw [hr]
      exact ⟨⟨e, rfl⟩, rfl, rfl, rfl, rfl⟩
  · rintro rfl rfl
    exact congrFun (congrFun (congrFun (processWith_self n) kind) body) w

/-- A team's build is completed when no revision is found for its report, and it is answered with its log; the service
itself rejects an empty body. -/
theorem answer_of_payload_down :
    let n := Notifier.usual [.ofTeam "red" none] (some "https://ci.example.com/") fun _ => none
    let down : Trouble := .raised .runtime (some "down")
    let again : RevisionLookup := fun _ _ => .error down
    let obtain : ClientLookup := fun p _ _ => (p, [], .error down)
    let body := Text.Utf8.encode (Event.completed (.ofTeam "red")).toJson.chars
    let w : World := ⟨.empty, .empty 100 false, [.failure down]⟩
    statusOf? (processWith n again obtain .completed body w) = some 200 ∧
      (processWith n again obtain .completed body w).1.counted = [.event .completed, .error (.event .completed)] ∧
      statusOf? (processEvent n .completed [] w) = some 400 ∧ (processEvent n .completed [] w).1.world = w := by
  intro n down again obtain body w
  have hsource : ∀ job t, n.findSource job = .error t → t.isCancelled = false := by
    rintro _ _ ⟨⟩
  have hrevision : ∀ source build t, n.findRevision source build = .error t → t.isCancelled = false := by
    rintro _ _ _ ⟨⟩
  have hagain : ∀ source build t, again source build = .error t → t.isCancelled = false := by
    rintro _ _ _ ⟨⟩
    rfl
  have hclient : ∀ p source head t, (obtain p source head).2.2 = .error t → t.isCancelled = false := by
    rintro _ _ _ _ ⟨⟩
    rfl
  have hdown : Undisturbed n again obtain w := ⟨hsource, hrevision, hagain, hclient, rfl⟩
  have hpool : Undisturbed n n.findRevision n.clientLookup w := undisturbed_clientLookup hsource hrevision rfl
  have hevent : IsEvent .completed body :=
    isEvent_iff.2 ⟨.completed (.ofTeam "red"), Checked.titled_eq_ok_iff.2 (by decide +kernel)⟩
  have hempty : ¬IsEvent .completed [] := by
    rintro ⟨text, value, event, htext, hvalue, -⟩
    have hnone : (Text.Utf8.decode? []).bind (Json.read? maxDepth) = none := by decide +kernel
    rw [htext, Option.bind_some, hvalue] at hnone
    cases hnone
  obtain ⟨hanswered, -⟩ := answer_of_payload hdown .completed body
  obtain ⟨-, hrejected, hself⟩ := answer_of_payload hpool .completed []
  obtain ⟨-, hstatus, -, hworld, -⟩ := hrejected hempty
  rw [hself rfl rfl] at hstatus hworld
  exact ⟨(hanswered hevent).2, by decide +kernel, hstatus, hworld⟩

end Web

end CommitStatus
