import CommitStatus.Proofs.Report.Runs

/-!
# Reports do not hang on the clients that are kept

Clients come and go with the builds that are reported, but they always address what they are kept for
(`Notifier.handle_addressed`). So where there is room for a client and the authentication of the sources is in order, a
build is reported in the same way whatever clients are kept: the same is said and counted, and the same is told to
Bitbucket, though it may be signed otherwise (`prepare_agrees`, `handle_agrees`).
-/

namespace CommitStatus

/-- What a post tells Bitbucket: its address and its text, whoever signs it. -/
def Post.message (p : Post) : String × Json.Value := (p.url, p.status.payload)

/-- What is told by a status that is sent: its address and the status. -/
def Sending.told (s : Sending) : String × Status := (s.client.statusUrl s.status.hash, s.status)

/-- Sendings that tell the same are posted with one message. -/
theorem Sending.message_post_congr {s t : Sending} (h : s.told = t.told) : s.post.message = t.post.message := by
  obtain ⟨hurl, hstatus⟩ := Prod.mk.inj h
  exact Prod.ext hurl (congrArg Status.payload hstatus)

/-- The authentication of every source that is found is in order. -/
def Notifier.CanSign (n : Notifier) : Prop :=
  ∀ job source, n.findSource job = .ok (some source) → ∃ login, (source.login n.env).2 = .ok login

/-- Among sources whose users' names hold no colon it is. -/
theorem Notifier.canSign_usual {sources : List Source}
    (h : ∀ s ∈ sources, ∀ c, s.credentials = some c → ':' ∉ c.username.toList) (rootUrl : Option String)
    (env : Environment) : (usual sources rootUrl env).CanSign := by
  intro job source hs
  exact source.exists_login env (h source (List.mem_of_find?_eq_some (Except.ok.inj hs)))

/-- Two outcomes tell of one report: the same was said, counted and told to Bitbucket, and it ended in the same way. -/
structure Outcome.Agrees (o₁ o₂ : Outcome) : Prop where
  remarks : o₁.remarks = o₂.remarks
  counted : o₁.counted = o₂.counted
  messages : o₁.posts.map Post.message = o₂.posts.map Post.message
  trouble : o₁.trouble = o₂.trouble

open Outcome (Agrees)

theorem Outcome.Agrees.after {o₁ o₂ : Outcome} (h : Agrees o₁ o₂) (counted : List Counter) :
    Agrees (o₁.after counted) (o₂.after counted) :=
  ⟨h.remarks, congrArg (counted ++ ·) h.counted, h.messages, h.trouble⟩

/-- Keeping trouble from going further keeps outcomes agreed. -/
theorem Outcome.Agrees.settle {o₁ o₂ : Outcome} (h : Agrees o₁ o₂) (kind : EventKind) (id : String) :
    Agrees (o₁.settle kind id) (o₂.settle kind id) := by
  obtain ⟨hremarks, hcounted, hmessages, htrouble⟩ := h
  unfold Outcome.settle
  rw [htrouble]
  cases ht : o₂.trouble with
  | none => exact ⟨hremarks, hcounted, hmessages, htrouble⟩
  | some t =>
    dsimp only
    split
    · exact ⟨hremarks, hcounted, hmessages, htrouble⟩
    · exact ⟨congrArg (· ++ _) hremarks, congrArg (· ++ _) hcounted, hmessages, rfl⟩

namespace Notifier

variable {n : Notifier} {source : Source} {build : Build} {w w₁ w₂ : World} {capacity : Nat}

/-- Every event keeps the clients addressed. -/
theorem handle_addressed (event : Event) (h : w.clients.Addressed capacity) :
    (n.handle event w).world.clients.Addressed capacity :=
  handle_keeps (fun p _ source head login _ _ => p.fresh_addresses source head login) h

/-- A preparation leaves a dry run one. -/
theorem prepare_dryRun (n : Notifier) (source : Source) (build : Build) (w : World) :
    (n.prepare source build w).1.world.clients.dryRun = w.clients.dryRun := by
  rcases (n.prepare_untouched source build w).2.2.2 with h | ⟨head, h⟩
  · rw [h]
  · rw [h, (w.clients.obtain_untouched n.env source head).2.1]

/-- An event leaves a dry run one. -/
theorem handle_dryRun (event : Event) : (n.handle event w).world.clients.dryRun = w.clients.dryRun := by
  refine handle_clients (P := fun p => p.dryRun = w.clients.dryRun) ?_ ?_ rfl
  · intro p job source head _ h
    exact ((p.obtain_untouched n.env source head).2.1).trans h
  · intro p replies client status h
    cases hd : p.dryRun with
    | true => rw [ClientPool.send_dry _ _ _ hd]; exact h
    | false => rw [ClientPool.send_live _ _ _ hd]; exact h

/-! ## Preparing -/

/-- Making a status looks at no more of a client than whether it sends to the cloud. -/
theorem draft_agrees (n : Notifier) (policy : Policy) (build : Build) (key hash : String) {c₁ c₂ : Client}
    {o₁ o₂ : Outcome} (hcloud : c₁.isCloud = c₂.isCloud) (hurl : c₁.statusUrl hash = c₂.statusUrl hash)
    (h : Agrees o₁ o₂) :
    Agrees (n.draft policy build c₁ key hash o₁).1 (n.draft policy build c₂ key hash o₂).1 ∧
      (n.draft policy build c₁ key hash o₁).2.map Sending.told =
        (n.draft policy build c₂ key hash o₂).2.map Sending.told := by
  obtain ⟨hremarks, hcounted, hmessages, htrouble⟩ := h
  unfold draft
  rw [hcloud]
  cases n.linkFor c₂.isCloud build with
  | error e => exact ⟨⟨congrArg (· ++ _) hremarks, congrArg (· ++ _) hcounted, hmessages, htrouble⟩, rfl⟩
  | ok url =>
    dsimp only
    cases policy.state? c₂.isCloud build.result with
    | none =>
      refine ⟨⟨?_, congrArg (· ++ _) hcounted, hmessages, htrouble⟩, rfl⟩
      simp only [Outcome.skip, Outcome.count, Outcome.say, Outcome.sayAll, hremarks]
    | some state =>
      refine ⟨⟨congrArg (· ++ _) hremarks, hcounted, hmessages, htrouble⟩, ?_⟩
      exact congrArg some (Prod.ext hurl rfl)

/-- A build is prepared to be reported in the same way whatever clients are kept. -/
theorem prepare_agrees (w₁ w₂ : World) (hc : 0 < capacity) (h₁ : w₁.clients.Addressed capacity)
    (h₂ : w₂.clients.Addressed capacity) (hlogin : ∃ login, (source.login n.env).2 = .ok login) (build : Build) :
    Agrees (n.prepare source build w₁).1 (n.prepare source build w₂).1 ∧
      (n.prepare source build w₁).2.map Sending.told = (n.prepare source build w₂).2.map Sending.told := by
  obtain ⟨login, hlogin⟩ := hlogin
  cases hd : source.policy.notificationsDisabled with
  | true => simp only [prepare, hd, if_true]; exact ⟨⟨rfl, rfl, rfl, rfl⟩, trivial⟩
  | false =>
  rcases hr : n.findRevision source build with t | _ | revision
  · simp only [prepare, hd, hr]; exact ⟨⟨rfl, rfl, rfl, rfl⟩, rfl⟩
  · simp only [prepare, hd, hr]; exact ⟨⟨rfl, rfl, rfl, rfl⟩, rfl⟩
  cases hh : revision.hash? with
  | none => simp only [prepare, hd, hr, hh]; exact ⟨⟨rfl, rfl, rfl, rfl⟩, rfl⟩
  | some hash =>
  -- both pools give a client, and both clients address what is asked for
  obtain ⟨c₁, ho₁⟩ := w₁.clients.exists_obtain revision.pullRequest? (h₁.room.symm ▸ hc) hlogin
  obtain ⟨c₂, ho₂⟩ := w₂.clients.exists_obtain revision.pullRequest? (h₂.room.symm ▸ hc) hlogin
  obtain ⟨-, ha₁⟩ := (h₁.obtain n.env source revision.pullRequest?).2 c₁ ho₁
  obtain ⟨-, ha₂⟩ := (h₂.obtain n.env source revision.pullRequest?).2 c₂ ho₂
  rcases he₁ : w₁.clients.obtain n.env source revision.pullRequest? with ⟨clients₁, records₁, result₁⟩
  rcases he₂ : w₂.clients.obtain n.env source revision.pullRequest? with ⟨clients₂, records₂, result₂⟩
  rw [he₁] at ho₁
  rw [he₂] at ho₂
  cases ho₁
  cases ho₂
  rw [prepare_eq_draft hd hr hh he₁, prepare_eq_draft hd hr hh he₂]
  exact draft_agrees n source.policy build _ hash (ha₁.isCloud.trans ha₂.isCloud.symm) (ha₁.statusUrl ha₂ hash)
    ⟨rfl, rfl, rfl, rfl⟩

/-! ## Sending and handling -/

/-- A status that is sent to one address meets the same answer, with the same end. -/
theorem sendStatus_agrees {o₁ o₂ : Outcome} {s₁ s₂ : Sending} (h : Agrees o₁ o₂) (hs : s₁.told = s₂.told)
    (hreplies : o₁.world.replies = o₂.world.replies) (hdry : o₁.world.clients.dryRun = o₂.world.clients.dryRun)
    (build : Build) :
    Agrees (sendStatus build s₁.client s₁.status o₁) (sendStatus build s₂.client s₂.status o₂) ∧
      (sendStatus build s₁.client s₁.status o₁).world.replies =
        (sendStatus build s₂.client s₂.status o₂).world.replies := by
  obtain ⟨hremarks, hcounted, hmessages, htrouble⟩ := h
  obtain ⟨hurl, hstatus⟩ := Prod.mk.inj hs
  have hmessage : s₁.post.message = s₂.post.message := Sending.message_post_congr hs
  cases hd : o₂.world.clients.dryRun with
  | true =>
    have hposts : (o₁.posts ++ []).map Post.message = (o₂.posts ++ []).map Post.message := by
      rw [List.append_nil, List.append_nil, hmessages]
    simp only [sendStatus, ClientPool.send_dry _ _ _ hd, ClientPool.send_dry _ _ _ (hdry.trans hd), hstatus]
    cases build.result with
    | none => exact ⟨⟨hremarks, congrArg (· ++ _) hcounted, hposts, htrouble⟩, hreplies⟩
    | some result =>
      exact ⟨⟨congrArg (· ++ _) hremarks, congrArg (· ++ _) hcounted, hposts, htrouble⟩, hreplies⟩
  | false =>
    have hposts : (o₁.posts ++ [s₁.client.postOf s₁.status]).map Post.message =
        (o₂.posts ++ [s₂.client.postOf s₂.status]).map Post.message := by
      rw [List.map_append, List.map_append, hmessages]
      exact congrArg (_ ++ [·]) hmessage
    simp only [sendStatus, ClientPool.send_live _ _ _ hd, ClientPool.send_live _ _ _ (hdry.trans hd), hreplies, hurl]
    cases (Reply.next o₂.world.replies).1.trouble? (s₂.client.statusUrl s₂.status.hash) with
    | some t => exact ⟨⟨hremarks, hcounted, hposts, rfl⟩, rfl⟩
    | none =>
      rw [hstatus] at hposts ⊢
      cases build.result with
      | none => exact ⟨⟨hremarks, congrArg (· ++ _) hcounted, hposts, htrouble⟩, rfl⟩
      | some result => exact ⟨⟨congrArg (· ++ _) hremarks, congrArg (· ++ _) hcounted, hposts, htrouble⟩, rfl⟩

/-- A build is reported in the same way whatever clients are kept. -/
theorem notifySafely_agrees (w₁ w₂ : World) (hc : 0 < capacity) (h₁ : w₁.clients.Addressed capacity)
    (h₂ : w₂.clients.Addressed capacity) (hreplies : w₁.replies = w₂.replies)
    (hdry : w₁.clients.dryRun = w₂.clients.dryRun) (hlogin : ∃ login, (source.login n.env).2 = .ok login)
    (kind : EventKind) (build : Build) :
    Agrees (n.notifySafely kind source build w₁) (n.notifySafely kind source build w₂) ∧
      (n.notifySafely kind source build w₁).world.replies = (n.notifySafely kind source build w₂).world.replies := by
  obtain ⟨hagrees, htold⟩ := prepare_agrees w₁ w₂ hc h₁ h₂ hlogin build
  have hreplies' : (n.prepare source build w₁).1.world.replies = (n.prepare source build w₂).1.world.replies := by
    rw [(n.prepare_untouched source build w₁).2.2.1, (n.prepare_untouched source build w₂).2.2.1, hreplies]
  have hdry' : (n.prepare source build w₁).1.world.clients.dryRun =
      (n.prepare source build w₂).1.world.clients.dryRun := by
    rw [prepare_dryRun, prepare_dryRun, hdry]
  simp only [notifySafely, notify, (settle_untouched _ _ _).1]
  generalize n.prepare source build w₁ = prepared₁ at hagrees htold hreplies' hdry' ⊢
  generalize n.prepare source build w₂ = prepared₂ at hagrees htold hreplies' hdry' ⊢
  obtain ⟨o₁, _ | s₁⟩ := prepared₁ <;> obtain ⟨o₂, _ | s₂⟩ := prepared₂
  · exact ⟨hagrees.settle kind build.id, hreplies'⟩
  · cases htold
  · cases htold
  · obtain ⟨hsent, hreplies''⟩ := sendStatus_agrees hagrees (Option.some.inj htold) hreplies' hdry' build
    exact ⟨hsent.settle kind build.id, hreplies''⟩

/-- An event is handled in the same way whatever clients are kept. -/
theorem handle_agrees (hsign : n.CanSign) (hc : 0 < capacity) (event : Event) (h₁ : w₁.clients.Addressed capacity)
    (h₂ : w₂.clients.Addressed capacity) (hmarkers : w₁.markers = w₂.markers) (hreplies : w₁.replies = w₂.replies)
    (hdry : w₁.clients.dryRun = w₂.clients.dryRun) :
    Agrees (n.handle event w₁) (n.handle event w₂) ∧
      (n.handle event w₁).world.markers = (n.handle event w₂).world.markers ∧
      (n.handle event w₁).world.replies = (n.handle event w₂).world.replies := by
  have hmarkers' : (n.handle event w₁).world.markers = (n.handle event w₂).world.markers := by
    rw [markers_handle, markers_handle, hmarkers]
  suffices h : Agrees (n.handle event w₁) (n.handle event w₂) ∧
      (n.handle event w₁).world.replies = (n.handle event w₂).world.replies from ⟨h.1, hmarkers', h.2⟩
  rw [handle_eq, handle_eq, accept_eq, accept_eq, hmarkers]
  rcases hcandidate : n.candidate event with t | _ | source
  · exact ⟨⟨rfl, rfl, rfl, rfl⟩, hreplies⟩
  · exact ⟨⟨rfl, rfl, rfl, rfl⟩, hreplies⟩
  cases event.isLate w₂.markers with
  | true => exact ⟨⟨rfl, rfl, rfl, rfl⟩, hreplies⟩
  | false =>
    obtain ⟨hagrees, hreplies'⟩ := notifySafely_agrees { w₁ with markers := event.mark w₂.markers }
      { w₂ with markers := event.mark w₂.markers } hc h₁ h₂ hreplies hdry
      (hsign _ source (findSource_of_candidate hcandidate)) event.kind event.build
    exact ⟨hagrees.after _, hreplies'⟩

end Notifier

end CommitStatus
