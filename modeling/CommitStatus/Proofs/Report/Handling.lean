import CommitStatus.Proofs.Client.Pool
import CommitStatus.Report.Dispatch

/-!
# How an event is handled

An event is first accepted: its source is found and, for a checkout, its revision is found and its marker is set. Then
its report is prepared, and what is prepared is sent.

- handling is acceptance and then a notification (`handle_eq`), which is a preparation and then a sending;
- what is prepared (`prepare_some`, `prepare_eq_draft`, `draft_sending`), what a preparation leaves alone
  (`prepare_untouched`) and what it does not look at (`prepare_change`, `accept_change`);
- an event leads to at most one status (`sending?`); it is posted unless the run is dry (`posts_handle`);
- a property of the clients that obtaining and sending keep is kept by events (`handle_clients`, `handle_keeps`).

Teams that share a repository (`Source.ofTeam`, `Build.ofTeam`) serve as an example.
-/

namespace CommitStatus

/-- A team's source: a repository that all teams share, for the jobs of the team. -/
def Source.ofTeam (team : String) (credentials : Option Credentials) : Source :=
  ⟨cloudUrl, "team", "shared", credentials, [team ++ "/*"], .plain⟩

/-- A team's build that has come to a good end. -/
def Build.ofTeam (team : String) : Build :=
  ⟨1, team ++ "/app #1", none, some .success, ⟨team ++ "/app", "job/" ++ team ++ "/job/app/", ⟨team⟩⟩, none,
    some (.commit ⟨"main"⟩ "1f2e3d")⟩

/-- The markers and the answers that are still to come are others. -/
def World.replace (markers : Markers) (replies : List Reply) (w : World) : World := ⟨markers, w.clients, replies⟩

/-- The markers and the answers that are still to come are others. -/
def Outcome.replace (markers : Markers) (replies : List Reply) (o : Outcome) : Outcome :=
  { o with world := o.world.replace markers replies }

/-- The markers and the answers that are still to come are others, and the clients are changed in some way. -/
def World.change (markers : Markers) (f : ClientPool → ClientPool) (replies : List Reply) (w : World) : World :=
  ⟨markers, f w.clients, replies⟩

/-- The world and the posts are changed in some way. -/
def Outcome.change (g : World → World) (h : List Post → List Post) (o : Outcome) : Outcome :=
  { o with world := g o.world, posts := h o.posts }

/-! ## Sending -/

/-- What is posted when a status is sent. -/
def Sending.post (s : Sending) : Post := s.client.postOf s.status

namespace Notifier

variable {n : Notifier} {source : Source} {build : Build} {w : World}

/-- Sending a status posts what the client sends, and changes the clients and the answers as this does. -/
theorem sendStatus_eq (build : Build) (client : Client) (status : Status) (o : Outcome) :
    (sendStatus build client status o).posts = o.posts ++ (o.world.clients.send o.world.replies client status).1 ∧
      (sendStatus build client status o).world =
        { o.world with
          clients := (o.world.clients.send o.world.replies client status).2.1
          replies := (o.world.clients.send o.world.replies client status).2.2.1 } := by
  obtain ⟨posts, clients, replies, trouble, h⟩ : ∃ posts clients replies trouble,
      o.world.clients.send o.world.replies client status = (posts, clients, replies, trouble) := ⟨_, _, _, _, rfl⟩
  simp only [sendStatus, h]
  cases trouble with
  | some t => exact ⟨rfl, rfl⟩
  | none => cases build.result <;> exact ⟨rfl, rfl⟩

/-! ## Preparing -/

/-- What is to be sent of a report for a client. -/
theorem draft_sending (n : Notifier) (policy : Policy) (build : Build) (client : Client) (key hash : String)
    (o : Outcome) :
    (n.draft policy build client key hash o).2 =
      match n.linkFor client.isCloud build with
      | .error _ => none
      | .ok url =>
        (policy.state? client.isCloud build.result).map fun state => ⟨client, statusOf build state url key hash⟩ := by
  unfold draft
  cases n.linkFor client.isCloud build with
  | error e => rfl
  | ok url => cases policy.state? client.isCloud build.result <;> rfl

/-- Making a status changes nothing and sends nothing. -/
theorem draft_untouched (n : Notifier) (policy : Policy) (build : Build) (client : Client) (key hash : String)
    (o : Outcome) :
    (n.draft policy build client key hash o).1.world = o.world ∧
      (n.draft policy build client key hash o).1.posts = o.posts ∧
      (n.draft policy build client key hash o).1.trouble = o.trouble := by
  unfold draft
  cases n.linkFor client.isCloud build with
  | error e => exact ⟨rfl, rfl, rfl⟩
  | ok url => cases policy.state? client.isCloud build.result <;> exact ⟨rfl, rfl, rfl⟩

/-- A report whose source, revision and client are at hand comes down to its status. -/
theorem prepare_eq_draft {revision : Revision} {hash : String} {clients : ClientPool} {records : List LogRecord}
    {client : Client} (hd : source.policy.notificationsDisabled = false)
    (hr : n.findRevision source build = .ok (some revision)) (hh : revision.hash? = some hash)
    (ho : w.clients.obtain n.env source revision.pullRequest? = (clients, records, .ok client)) :
    n.prepare source build w =
      n.draft source.policy build client (statusKey build revision.branch source.policy.shareKeyBetweenBranchAndPr) hash
        ({ (Outcome.start w).say (openingLine revision) with world := { w with clients } }.log records) := by
  unfold prepare
  simp only [hd, hr, hh, Bool.false_eq_true, if_false]
  have hw : ((Outcome.start w).say (openingLine revision)).world = w := rfl
  rw [hw, ho]

/-- A status is sent only if the source does not forbid it, the revision has a commit, a client can be had, the build
can be linked to and its result has a state; and it is the status of all these. -/
theorem prepare_some {s : Sending} (h : (n.prepare source build w).2 = some s) :
    source.policy.notificationsDisabled = false ∧ ∃ revision hash clients records url state,
      n.findRevision source build = .ok (some revision) ∧ revision.hash? = some hash ∧
      w.clients.obtain n.env source revision.pullRequest? = (clients, records, .ok s.client) ∧
      n.linkFor s.client.isCloud build = .ok url ∧
      source.policy.state? s.client.isCloud build.result = some state ∧
      s.status = statusOf build state url
        (statusKey build revision.branch source.policy.shareKeyBetweenBranchAndPr) hash := by
  cases hd : source.policy.notificationsDisabled with
  | true => simp [prepare, hd] at h
  | false =>
  rcases hr : n.findRevision source build with t | _ | revision
  · simp [prepare, hd, hr] at h
  · simp [prepare, hd, hr] at h
  cases hh : revision.hash? with
  | none => simp [prepare, hd, hr, hh] at h
  | some hash =>
  obtain ⟨clients, records, result, ho⟩ :
      ∃ clients records result, w.clients.obtain n.env source revision.pullRequest? = (clients, records, result) :=
    ⟨_, _, _, rfl⟩
  cases result with
  | error t => simp [prepare, hd, hr, hh, ho, Outcome.start, Outcome.say] at h
  | ok client =>
    rw [prepare_eq_draft hd hr hh ho, draft_sending] at h
    cases hl : n.linkFor client.isCloud build with
    | error e => simp [hl] at h
    | ok url =>
      simp only [hl, Option.map_eq_some_iff] at h
      obtain ⟨state, hs, rfl⟩ := h
      exact ⟨rfl, revision, hash, clients, records, url, state, rfl, hh, ho, hl, hs, rfl⟩

/-- A preparation sends nothing, leaves the markers and the answers alone, and at most obtains a client. -/
theorem prepare_untouched (n : Notifier) (source : Source) (build : Build) (w : World) :
    (n.prepare source build w).1.posts = [] ∧
      (n.prepare source build w).1.world.markers = w.markers ∧
      (n.prepare source build w).1.world.replies = w.replies ∧
      ((n.prepare source build w).1.world.clients = w.clients ∨
        ∃ head, (n.prepare source build w).1.world.clients = (w.clients.obtain n.env source head).1) := by
  cases hd : source.policy.notificationsDisabled with
  | true => simp [prepare, hd, Outcome.start, Outcome.skip, Outcome.count]
  | false =>
  rcases hr : n.findRevision source build with t | _ | revision
  · simp [prepare, hd, hr, Outcome.start, Outcome.fail]
  · simp [prepare, hd, hr, Outcome.start, Outcome.skip, Outcome.count]
  cases hh : revision.hash? with
  | none => simp [prepare, hd, hr, hh, Outcome.start, Outcome.skip, Outcome.count]
  | some hash =>
  obtain ⟨clients, records, result, ho⟩ :
      ∃ clients records result, w.clients.obtain n.env source revision.pullRequest? = (clients, records, result) :=
    ⟨_, _, _, rfl⟩
  have hclients : clients = (w.clients.obtain n.env source revision.pullRequest?).1 := by rw [ho]
  cases result with
  | error t =>
    simp only [prepare, hd, hr, hh, Outcome.start, Outcome.say, ho, Outcome.fail, Outcome.log, Bool.false_eq_true,
      if_false, true_and]
    exact .inr ⟨_, hclients⟩
  | ok client =>
    rw [prepare_eq_draft hd hr hh ho]
    obtain ⟨hw, hp, -⟩ := draft_untouched n source.policy build client
      (statusKey build revision.branch source.policy.shareKeyBetweenBranchAndPr) hash
      ({ (Outcome.start w).say (openingLine revision) with world := { w with clients } }.log records)
    rw [hw, hp]
    exact ⟨rfl, rfl, rfl, .inr ⟨_, hclients⟩⟩

/-! ## What a report does not look at -/

/-- Making a status looks neither at the world nor at what was posted. -/
theorem draft_change (n : Notifier) (policy : Policy) (build : Build) (client : Client) (key hash : String)
    (o : Outcome) (g : World → World) (h : List Post → List Post) :
    n.draft policy build client key hash (o.change g h) =
      ((n.draft policy build client key hash o).1.change g h, (n.draft policy build client key hash o).2) := by
  unfold draft
  cases n.linkFor client.isCloud build with
  | error e => rfl
  | ok url => cases policy.state? client.isCloud build.result <;> rfl

/-- A preparation looks at no more of the world than at what client can be obtained. -/
theorem prepare_change (n : Notifier) (source : Source) (build : Build) (w : World) (markers : Markers)
    {f : ClientPool → ClientPool} (replies : List Reply) {h : List Post → List Post}
    (hobtain : ∀ head, (f w.clients).obtain n.env source head =
      (f (w.clients.obtain n.env source head).1, (w.clients.obtain n.env source head).2)) (hnil : h [] = []) :
    n.prepare source build (w.change markers f replies) =
      ((n.prepare source build w).1.change (World.change markers f replies) h, (n.prepare source build w).2) := by
  have hstart : Outcome.start (w.change markers f replies) =
      (Outcome.start w).change (World.change markers f replies) h := by
    simp only [Outcome.change, Outcome.start, hnil]
  cases hd : source.policy.notificationsDisabled with
  | true => simp only [prepare, hd, if_true, hstart]; rfl
  | false =>
  rcases hr : n.findRevision source build with t | _ | revision
  · simp only [prepare, hd, hr, hstart]; rfl
  · simp only [prepare, hd, hr, hstart]; rfl
  cases hh : revision.hash? with
  | none => simp only [prepare, hd, hr, hh, hstart]; rfl
  | some hash =>
  have ho' := hobtain revision.pullRequest?
  rcases ho : w.clients.obtain n.env source revision.pullRequest? with ⟨clients, records, t | client⟩
  · rw [ho] at ho'
    simp only [prepare, hd, hr, hh, World.change, Outcome.change, Outcome.start, Outcome.say, Outcome.log, Outcome.fail,
      ho, ho', hnil, Bool.false_eq_true, if_false]
  · rw [ho] at ho'
    rw [prepare_eq_draft hd hr hh ho, prepare_eq_draft (w := w.change markers f replies) hd hr hh ho', hstart,
      ← draft_change]
    rfl

/-- A preparation looks at neither the markers nor the answers. -/
theorem prepare_replace (n : Notifier) (source : Source) (build : Build) (w : World) (markers : Markers)
    (replies : List Reply) :
    n.prepare source build (w.replace markers replies) =
      ((n.prepare source build w).1.replace markers replies, (n.prepare source build w).2) :=
  prepare_change (f := id) (h := id) n source build w markers replies (fun _ => rfl) rfl

/-- Keeping trouble from going further looks neither at the world nor at what was posted. -/
theorem settle_change (kind : EventKind) (id : String) (o : Outcome) (g : World → World) (h : List Post → List Post) :
    (o.change g h).settle kind id = (o.settle kind id).change g h := by
  obtain ⟨world, remarks, counted, records, posts, _ | t⟩ := o
  · rfl
  · simp only [Outcome.settle, Outcome.change]
    split <;> rfl

/-! ## Handling -/

/-- Whether an event comes to be reported: the source that it is reported for, and the world in which its checkout is
marked. -/
def accept (n : Notifier) (event : Event) (w : World) : Except Trouble (Option (Source × World)) :=
  match n.findSource event.build.job with
  | .error t => .error t
  | .ok none => .ok none
  | .ok (some source) =>
    match event with
    | .completed _ => .ok (some (source, w))
    | .checkout build _ =>
      match n.findRevision source build with
      | .error t => .error t
      | .ok none => .ok none
      | .ok (some _) =>
        match w.markers.add build.id with
        | (false, _) => .ok none
        | (true, markers) => .ok (some (source, { w with markers }))

/-- Handling an event is to report it if it is accepted. -/
theorem handle_eq (n : Notifier) (event : Event) (w : World) :
    n.handle event w =
      (match n.accept event w with
        | .error t => (Outcome.start w).fail t
        | .ok none => Outcome.start w
        | .ok (some (source, w')) => n.notifySafely event.kind source event.build w').after [.event event.kind] := by
  unfold handle accept
  rcases n.findSource event.build.job with t | _ | source
  · rfl
  · rfl
  cases event with
  | completed build => rfl
  | checkout build workspace =>
    simp only [onCheckout, Event.build]
    rcases n.findRevision source build with t | _ | revision
    · rfl
    · rfl
    rcases w.markers.add build.id with ⟨_ | _, markers⟩ <;> rfl

/-- Accepting an event looks at no more of the world than at the markers. -/
theorem accept_change (n : Notifier) (event : Event) (w : World) (f : ClientPool → ClientPool) (replies : List Reply) :
    n.accept event (w.change w.markers f replies) =
      (n.accept event w).map (Option.map fun a => (a.1, a.2.change a.2.markers f replies)) := by
  unfold accept
  rcases n.findSource event.build.job with t | _ | source
  · rfl
  · rfl
  cases event with
  | completed build => rfl
  | checkout build workspace =>
    dsimp only [World.change]
    rcases n.findRevision source build with t | _ | revision
    · rfl
    · rfl
    rcases w.markers.add build.id with ⟨_ | _, markers⟩ <;> rfl

/-- An event is accepted for its source, and only a checkout changes the world by this: it sets its marker. -/
theorem accept_some {event : Event} {w' : World} (h : n.accept event w = .ok (some (source, w'))) :
    n.findSource event.build.job = .ok (some source) ∧ w'.clients = w.clients ∧ w'.replies = w.replies := by
  unfold accept at h
  rcases hs : n.findSource event.build.job with t | _ | found
  · simp [hs] at h
  · simp [hs] at h
  cases event with
  | completed build =>
    simp only [hs, Except.ok.injEq, Option.some.injEq, Prod.mk.injEq] at h
    obtain ⟨rfl, rfl⟩ := h
    exact ⟨rfl, rfl, rfl⟩
  | checkout build workspace =>
    simp only [hs] at h
    rcases hr : n.findRevision found build with t | _ | revision
    · simp [hr] at h
    · simp [hr] at h
    rcases ha : w.markers.add build.id with ⟨_ | _, markers⟩
    · simp [hr, ha] at h
    · simp only [hr, ha, Except.ok.injEq, Option.some.injEq, Prod.mk.injEq] at h
      obtain ⟨rfl, rfl⟩ := h
      exact ⟨rfl, rfl, rfl⟩

/-- The status that handling an event sends, or in a dry run only makes. -/
def sending? (n : Notifier) (event : Event) (w : World) : Option Sending :=
  match n.accept event w with
  | .ok (some (source, w')) => (n.prepare source event.build w').2
  | _ => none

theorem sending?_of_accept {event : Event} {w' : World} (h : n.accept event w = .ok (some (source, w'))) :
    n.sending? event w = (n.prepare source event.build w').2 := by
  simp only [sending?, h]

/-- What is sent was prepared for the source for which the event was accepted. -/
theorem exists_accept_of_sending? {event : Event} {s : Sending} (h : n.sending? event w = some s) :
    ∃ source w', n.accept event w = .ok (some (source, w')) ∧ (n.prepare source event.build w').2 = some s := by
  unfold sending? at h
  split at h
  · rename_i source w' ha
    exact ⟨source, w', ha, h⟩
  · cases h

/-- What stays of an outcome when trouble is kept from going further. -/
theorem settle_untouched (kind : EventKind) (id : String) (o : Outcome) :
    (o.settle kind id).world = o.world ∧ (o.settle kind id).posts = o.posts := by
  unfold Outcome.settle
  cases o.trouble with
  | none => exact ⟨rfl, rfl⟩
  | some t => dsimp only; split <;> exact ⟨rfl, rfl⟩

/-- Without trouble there is nothing to keep. -/
theorem settle_of_none {kind : EventKind} {id : String} {o : Outcome} (h : o.trouble = none) :
    o.settle kind id = o := by
  simp only [Outcome.settle, h]

/-- Trouble is kept from going further by being said, counted and logged, unless the work was called off. -/
theorem settle_of_some {kind : EventKind} {id : String} {o : Outcome} {t : Trouble} (h : o.trouble = some t)
    (hc : t.isCancelled = false) :
    o.settle kind id =
      { o with
        remarks := o.remarks ++ [.error notSentText (some t)]
        counted := o.counted ++ [.error (.event kind)]
        records := o.records ++ [Remark.errorRecord id notSentText (some t)]
        trouble := none } := by
  simp only [Outcome.settle, h, hc, Bool.false_eq_true, if_false]

/-- A report posts the status that was prepared unless the run is dry. It leaves the markers alone. -/
theorem notifySafely_eq (n : Notifier) (kind : EventKind) (source : Source) (build : Build) (w : World) :
    (n.notifySafely kind source build w).posts =
        (if w.clients.dryRun then [] else ((n.prepare source build w).2.map Sending.post).toList) ∧
      (n.notifySafely kind source build w).world.markers = w.markers := by
  obtain ⟨hw, hp⟩ := settle_untouched kind build.id (n.notify source build w)
  obtain ⟨hposts, hmarkers, -, hclients⟩ := prepare_untouched n source build w
  have hdry : (n.prepare source build w).1.world.clients.dryRun = w.clients.dryRun := by
    rcases hclients with h | ⟨head, h⟩
    · rw [h]
    · rw [h, (w.clients.obtain_untouched n.env source head).2.1]
  rw [notifySafely, hw, hp, notify]
  generalize n.prepare source build w = prepared at hposts hmarkers hdry ⊢
  obtain ⟨o, _ | s⟩ := prepared
  · exact ⟨by simpa [finish] using hposts, hmarkers⟩
  · simp only at hposts hmarkers hdry
    obtain ⟨hsp, hsw⟩ := sendStatus_eq build s.client s.status o
    rw [finish, hsp, hsw, hposts]
    refine ⟨?_, hmarkers⟩
    cases hd : w.clients.dryRun with
    | true => rw [ClientPool.send_dry _ _ _ (hdry.trans hd)]; rfl
    | false => rw [ClientPool.send_live _ _ _ (hdry.trans hd)]; rfl

/-- **What an event posts**: the one status that it sends, or nothing in a dry run. -/
theorem posts_handle (n : Notifier) (event : Event) (w : World) :
    (n.handle event w).posts = if w.clients.dryRun then [] else ((n.sending? event w).map Sending.post).toList := by
  rw [handle_eq, sending?]
  rcases ha : n.accept event w with t | _ | ⟨source, w'⟩
  · simp [Outcome.after, Outcome.fail, Outcome.start]
  · simp [Outcome.after, Outcome.start]
  · obtain ⟨-, hclients, -⟩ := accept_some ha
    rw [← hclients]
    exact (notifySafely_eq n event.kind source event.build w').1

/-- What an event posts, or in a dry run makes and does not post. -/
def attempts (n : Notifier) (event : Event) (w : World) : List Post :=
  if w.clients.dryRun then ((n.sending? event w).map Sending.post).toList else (n.handle event w).posts

theorem attempts_eq (n : Notifier) (event : Event) (w : World) :
    n.attempts event w = ((n.sending? event w).map Sending.post).toList := by
  rw [attempts, posts_handle]
  cases w.clients.dryRun <;> rfl

/-- A property of the clients that obtaining one and sending through one keep is kept by every event. -/
theorem handle_clients {P : ClientPool → Prop} {event : Event}
    (hobtain : ∀ p job source head, n.findSource job = .ok (some source) → P p → P (p.obtain n.env source head).1)
    (hsend : ∀ p replies client status, P p → P (p.send replies client status).2.1) (h : P w.clients) :
    P (n.handle event w).world.clients := by
  rw [handle_eq]
  rcases ha : n.accept event w with t | _ | ⟨source, w'⟩
  · exact h
  · exact h
  · obtain ⟨hs, hw', -⟩ := accept_some ha
    have hprep : P (n.prepare source event.build w').1.world.clients := by
      rcases (prepare_untouched n source event.build w').2.2.2 with hc | ⟨head, hc⟩
      · rw [hc, hw']; exact h
      · rw [hc, hw']; exact hobtain _ _ _ head hs h
    show P (n.notifySafely event.kind source event.build w').world.clients
    rw [notifySafely, (settle_untouched _ _ _).1, notify]
    generalize n.prepare source event.build w' = prepared at hprep ⊢
    obtain ⟨o, _ | s⟩ := prepared
    · exact hprep
    · rw [finish, (sendStatus_eq event.build s.client s.status o).2]
      exact hsend _ _ _ _ hprep

/-- What holds of the clients that are built for sources that are found holds of those that are kept after an event. -/
theorem handle_keeps {capacity : Nat} {R : ClientKey → Client → Prop} {event : Event}
    (hfresh : ∀ (p : ClientPool) job source head login, n.findSource job = .ok (some source) →
      (source.login n.env).2 = .ok login → R (source.clientKey head) (p.fresh source head login))
    (h : w.clients.Keeps capacity R) : (n.handle event w).world.clients.Keeps capacity R := by
  refine handle_clients ?_ ?_ h
  · intro p job source head hs h
    exact (h.obtain n.env source head fun login hl => hfresh p job source head login hs hl).1
  · intro p replies client status h
    exact h.send replies client status

end Notifier

end CommitStatus
