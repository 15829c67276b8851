import CommitStatus.Proofs.Report.Addressing
import CommitStatus.Proofs.Web.Submission

/-!
# The status of a completed build takes the place of the one in progress

When the checkout of a build was reported, the report of its completion goes to the same address under the same key,
name and link, with a state that is final (`attempts_completed`). What happened in between does not matter: the clients
that are kept always address what they are kept for (`Addressed`), and all else is read off the build, its source and
the settings.
-/

namespace CommitStatus

/-- Builds that differ at most in description and result: one run of a job, seen at two times. -/
structure Build.SameRun (b b' : Build) : Prop where
  number : b'.number = b.number
  name : b'.fullDisplayName = b.fullDisplayName
  job : b'.job = b.job
  url : b'.url = b.url
  revision : b'.revision = b.revision

/-! ## What does not depend on description and result -/

/-- The link to a build is that of its run. -/
theorem Notifier.linkFor_sameRun (n : Notifier) (cloud : Bool) {b b' : Build} (h : b.SameRun b') :
    n.linkFor cloud b' = n.linkFor cloud b := by
  have hn : b'.numberText = b.numberText := by rw [Build.numberText, Build.numberText, h.number]
  simp only [Notifier.linkFor, Url.ofBuild, h.url, h.job, hn]

/-- The key of a build's status is that of its run. -/
theorem statusKey_sameRun (branch : String) (shared : Bool) {b b' : Build} (h : b.SameRun b') :
    statusKey b' branch shared = statusKey b branch shared := by
  simp only [statusKey, h.job]

/-- A build with a result has a final state, but for one that was not built and is not to be shown outside the cloud. -/
theorem Policy.state?_result (policy : Policy) (cloud : Bool) (result : Result) :
    (result = .notBuilt ∧ policy.disableNotificationForNotBuilt = true ∧ cloud = false →
      policy.state? cloud (some result) = none) ∧
    (¬(result = .notBuilt ∧ policy.disableNotificationForNotBuilt = true ∧ cloud = false) →
      ∃ state, policy.state? cloud (some result) = some state ∧ state ≠ .inProgress) := by
  cases result with
  | success => exact ⟨fun h => absurd h.1 (by decide), fun _ => ⟨.successful, rfl, by decide⟩⟩
  | unstable =>
    refine ⟨fun h => absurd h.1 (by decide), fun _ => ⟨_, rfl, ?_⟩⟩
    cases policy.sendSuccessForUnstable <;> decide
  | failure => exact ⟨fun h => absurd h.1 (by decide), fun _ => ⟨.failed, rfl, by decide⟩⟩
  | notBuilt =>
    simp only [Policy.state?, true_and]
    cases policy.disableNotificationForNotBuilt <;> cases cloud <;> simp
  | aborted => exact ⟨fun h => absurd h.1 (by decide), fun _ => ⟨.failed, rfl, by decide⟩⟩

/-! ## The clients of a run -/

section Addressed

variable {capacity : Nat} {n : Notifier} {w : World}

/-- Every run keeps the clients addressed. -/
theorem Web.worldAfter_addressed (submissions : List Submission)
    (h : w.clients.Addressed capacity) : (worldAfter n submissions w).clients.Addressed capacity :=
  worldAfter_keeps (fun p _ source head login _ _ => p.fresh_addresses source head login) submissions h

end Addressed

/-! ## The two reports -/

namespace Notifier

variable {n : Notifier} {source : Source}

/-- What the log of a build says stays in it when trouble is kept from going further. -/
theorem mem_settle {r : Remark} {o : Outcome} (kind : EventKind) (id : String) (h : r ∈ o.remarks) :
    r ∈ (o.settle kind id).remarks := by
  unfold Outcome.settle
  cases o.trouble with
  | none => exact h
  | some t =>
    dsimp only
    split
    · exact h
    · exact List.mem_append_left _ h

/-- The completion of a build with a source is accepted. -/
theorem accept_completed {build : Build} {w : World} (h : n.findSource build.job = .ok (some source)) :
    n.accept (.completed build) w = .ok (some (source, w)) := by
  simp only [accept, Event.build, h]

/-- A build for which a client can be had and a link made, but whose result has no state, is said to be skipped. -/
theorem prepare_skipped {build : Build} {w : World} {revision : Revision} {hash url : String} {client : Client}
    (hd : source.policy.notificationsDisabled = false) (hr : n.findRevision source build = .ok (some revision))
    (hh : revision.hash? = some hash) (ho : (w.clients.obtain n.env source revision.pullRequest?).2.2 = .ok client)
    (hl : n.linkFor client.isCloud build = .ok url) (hs : source.policy.state? client.isCloud build.result = none) :
    (n.prepare source build w).2 = none ∧
      Remark.line "[Bitbucket] Skip result notification" ∈ (n.prepare source build w).1.remarks := by
  rcases he : w.clients.obtain n.env source revision.pullRequest? with ⟨clients, records, result⟩
  rw [he] at ho
  cases ho
  rw [prepare_eq_draft hd hr hh he, draft]
  simp only [hl, hs]
  exact ⟨trivial, List.mem_append_right _ List.mem_cons_self⟩

/-- A build for which a client can be had and a link made, and whose result has a state, is sent its status. -/
theorem prepare_sent {build : Build} {w : World} {revision : Revision} {hash url : String} {client : Client}
    {state : State} (hd : source.policy.notificationsDisabled = false)
    (hr : n.findRevision source build = .ok (some revision)) (hh : revision.hash? = some hash)
    (ho : (w.clients.obtain n.env source revision.pullRequest?).2.2 = .ok client)
    (hl : n.linkFor client.isCloud build = .ok url)
    (hs : source.policy.state? client.isCloud build.result = some state) :
    (n.prepare source build w).2 = some ⟨client, statusOf build state url
      (statusKey build revision.branch source.policy.shareKeyBetweenBranchAndPr) hash⟩ := by
  rcases he : w.clients.obtain n.env source revision.pullRequest? with ⟨clients, records, result⟩
  rw [he] at ho
  cases ho
  rw [prepare_eq_draft hd hr hh he, draft_sending]
  simp only [hl, hs, Option.map_some]

/-- What is prepared for the completion of a build whose checkout led to a status, when the clients have changed in
between but are still addressed: a status at the same address, under the same key, name and link. -/
theorem prepare_completed {build build' : Build} {w w' : World} {capacity : Nat} {result : Result} {s : Sending}
    (hw : w.clients.Addressed capacity) (hw' : w'.clients.Addressed capacity)
    {login : Option Login} (hlogin : (source.login n.env).2 = .ok login) (hsame : build.SameRun build')
    (hresult : build'.result = some result) (hr' : n.findRevision source build' = n.findRevision source build)
    (h : (n.prepare source build w).2 = some s) :
    if result = .notBuilt ∧ source.traits.disableNotificationForNotBuilt = true ∧ source.isCloud = false then
      (n.prepare source build' w').2 = none ∧
        Remark.line "[Bitbucket] Skip result notification" ∈ (n.prepare source build' w').1.remarks
    else ∃ t, (n.prepare source build' w').2 = some t ∧ t.post.url = s.post.url ∧ t.status.key = s.status.key ∧
      t.status.name = s.status.name ∧ t.status.url = s.status.url ∧ t.status.state ≠ .inProgress := by
  obtain ⟨hd, revision, hash, clients, records, url, state, hr, hh, ho, hl, -, hstatus⟩ := prepare_some h
  obtain ⟨hpos, hs⟩ := (hw.obtain n.env source revision.pullRequest?).2 s.client (by rw [ho])
  -- there is room for clients, so one can be had again, and it sends to the same address
  have hroom : 0 < w'.clients.capacity := by rw [hw'.room]; exact hpos
  obtain ⟨client, ho'⟩ := w'.clients.exists_obtain revision.pullRequest? hroom hlogin
  obtain ⟨-, ht⟩ := (hw'.obtain n.env source revision.pullRequest?).2 client ho'
  have hl' : n.linkFor client.isCloud build' = .ok url := by
    rw [n.linkFor_sameRun _ hsame, ht.isCloud, ← hs.isCloud, hl]
  obtain ⟨hnone, hsome⟩ := source.policy.state?_result source.isCloud result
  split
  · rename_i hskip
    exact prepare_skipped hd (hr'.trans hr) hh ho' hl' (by rw [ht.isCloud, hresult, hnone hskip])
  · rename_i hskip
    obtain ⟨state', hstate, hfinal⟩ := hsome hskip
    refine ⟨_, prepare_sent hd (hr'.trans hr) hh ho' hl' (by rw [ht.isCloud, hresult, hstate]), ?_, ?_, ?_, ?_, hfinal⟩
    · show client.statusUrl hash = s.client.statusUrl s.status.hash
      rw [hstatus]
      exact ht.statusUrl hs hash
    · rw [hstatus]; exact statusKey_sameRun _ _ hsame
    · rw [hstatus]; exact hsame.name
    · rw [hstatus]; rfl

end Notifier

/-- **The completion of a build takes the place of its checkout.** Let a run report the checkout of a build, and later,
after anything else, the completion of that run of the job with a result. Then the completion leads to one status, at
the address and under the key, name and link of the checkout's, and no longer in progress. The one exception is a build
that was not built, from a source outside the cloud that does not want such builds shown: it is said to be skipped. In a
dry run the same holds of what would be posted. -/
theorem attempts_completed (sources : List Source) (rootUrl : Option String) (env : Environment) (capacity : Nat)
    (dryRun : Bool) (markers : Markers) (replies : List Reply) (before between : List Web.Submission)
    {build build' : Build} {workspace : Option String} {result : Result} {p : Post}
    (hcolon : ∀ s ∈ sources, ∀ c, s.credentials = some c → ':' ∉ c.username.toList)
    (hsame : build.SameRun build') (hresult : build'.result = some result) :
    let n := Notifier.usual sources rootUrl env
    let w := Web.worldAfter n before ⟨markers, .empty capacity dryRun, replies⟩
    let w' := Web.worldAfter n between (n.handle (.checkout build workspace) w).world
    p ∈ n.attempts (.checkout build workspace) w →
      ∃ source, findSource? sources build'.job = some source ∧
        if result = .notBuilt ∧ source.traits.disableNotificationForNotBuilt = true ∧ source.isCloud = false then
          n.attempts (.completed build') w' = [] ∧
            Remark.line "[Bitbucket] Skip result notification" ∈ (n.handle (.completed build') w').remarks
        else ∃ q, n.attempts (.completed build') w' = [q] ∧ q.url = p.url ∧ q.status.key = p.status.key ∧
          q.status.name = p.status.name ∧ q.status.url = p.status.url ∧ q.status.state ≠ .inProgress := by
  intro n w w' hp
  -- the clients are addressed throughout, so both reports go to one address
  have hw : w.clients.Addressed capacity := Web.worldAfter_addressed before (ClientPool.keeps_empty _ _ _)
  have hw' : w'.clients.Addressed capacity := Web.worldAfter_addressed between (Notifier.handle_addressed _ hw)
  rw [Notifier.attempts_eq, Option.mem_toList, Option.map_eq_some_iff] at hp
  obtain ⟨s, hs, rfl⟩ := hp
  obtain ⟨source, w₁, ha, hs⟩ := Notifier.exists_accept_of_sending? hs
  obtain ⟨hfound, hclients, -⟩ := Notifier.accept_some ha
  have hfound' : n.findSource build'.job = .ok (some source) := by rw [hsame.job]; exact hfound
  have hsource : findSource? sources build'.job = some source := Except.ok.inj hfound'
  obtain ⟨login, hlogin⟩ := source.exists_login env (hcolon source (List.mem_of_find?_eq_some hsource))
  have hr' : n.findRevision source build' = n.findRevision source build := congrArg Except.ok hsame.revision
  refine ⟨source, hsource, ?_⟩
  have h := Notifier.prepare_completed (hclients ▸ hw) hw' hlogin hsame hresult hr' hs
  have haccept := Notifier.accept_completed (w := w') hfound'
  rw [Notifier.attempts_eq, Notifier.sending?_of_accept haccept, Notifier.handle_eq, haccept]
  split at h
  · rename_i hskip
    rw [if_pos hskip]
    obtain ⟨hnone, hskipped⟩ := h
    refine ⟨by rw [Event.build, hnone]; rfl, ?_⟩
    show _ ∈ (n.notifySafely .completed source build' w').remarks
    refine Notifier.mem_settle _ _ ?_
    rw [Notifier.notify]
    generalize n.prepare source build' w' = prepared at hnone hskipped ⊢
    obtain ⟨o, _⟩ := prepared
    cases hnone
    exact hskipped
  · rename_i hskip
    rw [if_neg hskip]
    obtain ⟨t, ht, hurl, hkey, hname, hlink, hstate⟩ := h
    exact ⟨t.post, by rw [Event.build, ht]; rfl, hurl, hkey, hname, hlink, hstate⟩

/-- A team's build is shown to be in progress at its checkout; when it is over, its success takes the place of that.
Only one client is kept. A build of another team, which has a repository of its own, is over before the checkout and
again after it, so each team's client makes room for the other's. -/
theorem attempts_completed_success :
    let build := { Build.ofTeam "red" with result := none }
    let build' := Build.ofTeam "red"
    let sources := [Source.ofTeam "red" (some ⟨"alice", "ALICE_TOKEN"⟩),
      { Source.ofTeam "blue" none with repository := "blue" }]
    let env := Environment.ofList [("ALICE_TOKEN", "a")]
    let n := Notifier.usual sources (some "https://ci.example.com/") env
    let others := [Web.Submission.ofEvent (.completed (.ofTeam "blue"))]
    let w := Web.worldAfter n others ⟨.empty, .empty 1 false, []⟩
    let w₁ := (n.handle (.checkout build none) w).world
    let w' := Web.worldAfter n others w₁
    [w, w₁, w'].map (·.clients.kept.map (·.1.repository)) = [["blue"], ["shared"], ["blue"]] ∧
      (n.attempts (.checkout build none) w).map (·.status.state) = [.inProgress] ∧ build.SameRun build' ∧
      ∃ p ∈ n.attempts (.checkout build none) w, ∃ q, n.attempts (.completed build') w' = [q] ∧ q.url = p.url ∧
        q.status.key = p.status.key ∧ q.status.name = p.status.name ∧ q.status.url = p.status.url ∧
        q.status.state ≠ .inProgress := by
  intro build build' sources env n others w w₁ w'
  have hcolon : ∀ s ∈ sources, ∀ c, s.credentials = some c → ':' ∉ c.username.toList := by
    intro s hs c hc
    simp only [sources, List.mem_cons, List.not_mem_nil, or_false] at hs
    rcases hs with rfl | rfl
    · cases hc
      decide
    · cases hc
  have hsame : build.SameRun build' := ⟨rfl, rfl, rfl, rfl, rfl⟩
  have hkept : [w, w₁, w'].map (·.clients.kept.map (·.1.repository)) = [["blue"], ["shared"], ["blue"]] := by
    decide +kernel
  have hstate : (n.attempts (.checkout build none) w).map (·.status.state) = [.inProgress] := by decide +kernel
  obtain ⟨p, hp, -⟩ := List.map_eq_singleton_iff.1 hstate
  have hmem : p ∈ n.attempts (.checkout build none) w := hp ▸ List.mem_cons_self
  obtain ⟨source, -, h⟩ := attempts_completed sources (some "https://ci.example.com/") env 1 false .empty []
    others others hcolon hsame rfl hmem
  rw [if_neg (by rintro ⟨hnot, -⟩; cases hnot)] at h
  exact ⟨hkept, hstate, hsame, p, hmem, h⟩

end CommitStatus
