import CommitStatus.Proofs.Report.Addressing
import CommitStatus.Proofs.Report.Progress
import CommitStatus.Proofs.Url.Reading

/-!
# What may be posted

A post is admissible for a build (`Notifier.Admits`) if it is what the source and the revision that are found for the
build allow (`Admissible`): its address is that of the revision's commit in the repository of the source, its state is
one for the build's result, and it links to the build by a URL that Bitbucket can follow.

- Whatever a report prepares is admissible (`admits_of_prepare`), because each client sends to what it is kept for.
- One step of handling an event keeps what is on its way and what was posted admissible (`Phase.Admitted.next`); so do
  many calls whose steps come in any order, also when look-ups come to something else in between
  (`System.Admitted.takeTurns`).
-/

namespace CommitStatus

/-! ## Admissible posts -/

/-- A revision is a commit, or a pull request that wraps one. -/
inductive Revision.IsAt (hash : String) : Revision → Prop
  | commit (head : BranchHead) : IsAt hash (.commit head hash)
  | pullRequest (head : PullRequestHead) (branch : BranchHead) : IsAt hash (.pullRequest head (.commit branch hash))

theorem Revision.hash?_eq_some_iff {revision : Revision} {hash : String} :
    revision.hash? = some hash ↔ revision.IsAt hash := by
  constructor
  · intro h
    rcases revision with ⟨head, _⟩ | head | ⟨head, ⟨branch, _⟩ | branch | ⟨inner, pull⟩⟩
    · cases h
      exact .commit head
    · cases h
    · cases h
      exact .pullRequest head branch
    · cases h
    · cases h
  · rintro (⟨head⟩ | ⟨head, branch⟩) <;> rfl

/-- Only the cloud is told that a build was stopped. -/
theorem Policy.isCloud_of_stopped {policy : Policy} {cloud : Bool} {result : Option Result}
    (h : policy.state? cloud result = some .stopped) : cloud = true := by
  cases cloud with
  | true => rfl
  | false =>
    rcases result with _ | _ | _ | _ | _ | _
    case some.unstable => cases hs : policy.sendSuccessForUnstable <;> simp [state?, hs] at h
    case some.notBuilt => cases hd : policy.disableNotificationForNotBuilt <;> simp [state?, hd] at h
    all_goals cases h

theorem Notifier.of_linkFor_eq_ok {n : Notifier} {cloud : Bool} {build : Build} {url : String}
    (h : n.linkFor cloud build = .ok url) :
    Url.ofBuild n.rootUrl build = .ok url ∧ Url.check cloud url = .ok () := by
  unfold linkFor at h
  split at h
  · cases h
  · rename_i link hlink
    split at h
    · cases h
    · rename_i hcheck
      cases h
      exact ⟨hlink, hcheck⟩

/-- A post is what the source and the revision of a build allow. -/
structure Admissible (n : Notifier) (build : Build) (source : Source) (revision : Revision) (hash : String)
    (p : Post) : Prop where
  found : n.findSource build.job = .ok (some source)
  enabled : source.traits.notificationsDisabled = false
  lookedUp : n.findRevision source build = .ok (some revision)
  isAt : revision.IsAt hash
  address : p.url = source.endpoint revision.pullRequest? hash
  link : Url.ofBuild n.rootUrl build = .ok p.status.url
  linkable : Url.Linkable source.isCloud p.status.url
  inProgress : p.status.state = .inProgress ↔ build.result = none
  stopped : p.status.state = .stopped → source.isCloud = true

/-- A post is admissible for a build. -/
def Notifier.Admits (n : Notifier) (build : Build) (p : Post) : Prop :=
  ∃ source revision hash, Admissible n build source revision hash p

namespace Notifier

variable {n : Notifier} {source : Source} {build : Build} {event : Event} {w : World} {capacity : Nat}

/-- What a report prepares is admissible. -/
theorem admits_of_prepare {s : Sending} (hsource : n.findSource build.job = .ok (some source))
    (hw : w.clients.Addressed capacity) (h : (n.prepare source build w).2 = some s) : n.Admits build s.post := by
  obtain ⟨henabled, revision, hash, clients, records, url, state, hrevision, hhash, hobtain, hlink, hstate, hstatus⟩ :=
    prepare_some h
  -- the client may have been built long ago, but it sends to where the source lies
  obtain ⟨-, haddresses⟩ := (hw.obtain n.env source revision.pullRequest?).2 s.client (by rw [hobtain])
  rw [haddresses.isCloud] at hlink hstate
  obtain ⟨hurl, hcheck⟩ := of_linkFor_eq_ok hlink
  have hposted : s.post = s.client.postOf (statusOf build state url
      (statusKey build revision.branch source.policy.shareKeyBetweenBranchAndPr) hash) := congrArg _ hstatus
  refine ⟨source, revision, hash, hsource, henabled, hrevision, Revision.hash?_eq_some_iff.1 hhash, ?_, ?_, ?_, ?_, ?_⟩
  · rw [hposted]
    exact haddresses.statusUrl_eq hash
  · rw [hposted]
    exact hurl
  · rw [hposted]
    exact Url.linkable_of_check hcheck
  · rw [hposted, ← source.policy.state?_eq_inProgress_iff source.isCloud, hstate, Option.some.injEq]
    rfl
  · rw [hposted]
    rintro rfl
    exact Policy.isCloud_of_stopped hstate

/-- What handling an event posts is admissible. -/
theorem admits_of_mem_posts {p : Post} (hw : w.clients.Addressed capacity) (h : p ∈ (n.handle event w).posts) :
    n.Admits event.build p := by
  obtain ⟨source, s, hcandidate, -, hs, rfl⟩ := exists_prepare_of_mem_posts h
  exact admits_of_prepare (w := { w with markers := event.mark w.markers }) (findSource_of_candidate hcandidate) hw hs

/-- What was posted once a status was sent: what was posted before, or the status. -/
theorem mem_posts_sendStatus {s : Sending} {o : Outcome} {p : Post}
    (h : p ∈ (sendStatus build s.client s.status o).posts) : p ∈ o.posts ∨ p = s.post := by
  rw [(sendStatus_eq _ _ _ _).1, List.mem_append] at h
  refine h.imp_right fun hsent => ?_
  cases hd : o.world.clients.dryRun with
  | true =>
    rw [ClientPool.send_dry _ _ _ hd] at hsent
    cases hsent
  | false =>
    rw [ClientPool.send_live _ _ _ hd] at hsent
    exact List.mem_singleton.1 hsent

end Notifier

/-! ## Step by step -/

namespace Phase

/-- What is on its way or was posted. -/
def posts : Phase → List Post
  | .waiting o s => o.posts ++ [s.post]
  | .ended _ o => o.posts
  | _ => []

/-- There are look-ups to come. -/
def isLooking : Phase → Bool
  | .arrived | .located _ | .resolved _ | .cleared _ => true
  | _ => false

/-- A phase whose source was found and whose posts are admissible. -/
def Admitted (n : Notifier) (event : Event) : Phase → Prop
  | .arrived => True
  | .located source | .resolved source | .cleared source => n.findSource event.build.job = .ok (some source)
  | .waiting o s => o.posts = [] ∧ n.Admits event.build s.post
  | .ended _ o => ∀ p ∈ o.posts, n.Admits event.build p

variable {n : Notifier} {event : Event} {w : World} {capacity : Nat} {φ : Phase}

theorem Admitted.posts (h : φ.Admitted n event) : ∀ p ∈ φ.posts, n.Admits event.build p := by
  cases φ with
  | waiting o s =>
    obtain ⟨hnil, hs⟩ := h
    intro p hp
    rw [Phase.posts, hnil, List.nil_append, List.mem_singleton] at hp
    rw [hp]
    exact hs
  | ended e o => exact h
  | _ =>
    intro p hp
    cases hp

/-- An end to which nothing was posted is admissible. -/
theorem admitted_close (n : Notifier) (event : Event) (e : Ending) {o : Outcome} (h : o.posts = []) :
    (close event e o).1.Admitted n event := by
  intro p hp
  have hnil : (o.after [.event event.kind]).posts = [] := h
  rw [hnil] at hp
  cases hp

/-- Other look-ups of revisions do not matter when there are look-ups to come. -/
theorem Admitted.relook (h : φ.Admitted n event) (hφ : φ.isLooking = true)
    (again : Source → Build → Except Trouble (Option Revision)) :
    φ.Admitted { n with findRevision := again } event := by
  cases φ with
  | waiting o s => cases hφ
  | ended e o => cases hφ
  | _ => exact h

/-- What a status on its way comes to is posted alone. -/
theorem eq_post_of_next {o : Outcome} {s : Sending} {p : Post} (hnil : o.posts = [])
    (hp : p ∈ ((Phase.waiting o s).next n event w).1.posts) : p = s.post := by
  have hsent : p ∈ (Notifier.sendStatus event.build s.client s.status { o with world := w }).posts := by
    rw [← (Notifier.settle_untouched event.kind event.build.id _).2]
    exact hp
  rcases Notifier.mem_posts_sendStatus hsent with hbefore | hpost
  · rw [hnil] at hbefore
    cases hbefore
  · exact hpost

/-- One step keeps what is posted admissible. -/
theorem Admitted.next (h : φ.Admitted n event) (hw : w.clients.Addressed capacity) :
    (φ.next n event w).1.Admitted n event := by
  have hmove := move_next n event w φ
  generalize φ.next n event w = after at hmove ⊢
  cases hmove with
  | unlocated t => exact admitted_close n event .unlocated rfl
  | located _ hs | cleared _ hs => exact hs
  | unresolved t => exact admitted_close n event .unresolved rfl
  | resolved | marked => exact h
  | late => exact admitted_close n event .late rfl
  | @silent source o hp =>
    have hposts := (Notifier.prepare_untouched n source event.build w).1
    rw [hp] at hposts
    exact admitted_close n event .reported ((Notifier.settle_untouched event.kind event.build.id o).2.trans hposts)
  | @sent source o s hp =>
    have hposts := (Notifier.prepare_untouched n source event.build w).1
    rw [hp] at hposts
    exact ⟨hposts, Notifier.admits_of_prepare h hw (congrArg Prod.snd hp)⟩
  | answered o s =>
    obtain ⟨hnil, hs⟩ := h
    intro p (hp : p ∈ ((Phase.waiting o s).next n event w).1.posts)
    rw [eq_post_of_next hnil hp]
    exact hs
  | stayed => exact h

/-- One step keeps the clients addressed. -/
theorem next_addressed (n : Notifier) (event : Event) (φ : Phase) (hw : w.clients.Addressed capacity) :
    (φ.next n event w).2.clients.Addressed capacity :=
  next_clients (fun _ source head hp => (ClientPool.Addressed.obtain hp n.env source head).1)
    (fun _ replies client status hp => ClientPool.Keeps.send hp replies client status) hw

end Phase

/-! ## Many calls at a time -/

/-- What happens next when look-ups may come to something else in between: a call comes or goes one step further, or
revisions that a call has yet to look up are others from now on. -/
inductive Turn
  | act (a : Action)
  | relook (call : Nat) (again : Source → Build → Except Trouble (Option Revision))

namespace System

/-- One turn. -/
def turn (σ : System) : Turn → System
  | .act a => σ.step a
  | .relook i again =>
    match σ.calls[i]? with
    | none => σ
    | some c =>
      if c.phase.isLooking then
        { σ with calls := σ.calls.set i { c with notifier := { c.notifier with findRevision := again } } }
      else σ

/-- Turns in any order. -/
def takeTurns (σ : System) (turns : List Turn) : System := turns.foldl turn σ

/-- The calls have posted what is admissible, and each worker's clients send to what they are kept for. -/
structure Admitted (capacity : Nat → Nat) (σ : System) : Prop where
  clients : ∀ worker, (σ.clients worker).Addressed (capacity worker)
  calls : ∀ c ∈ σ.calls, c.phase.Admitted c.notifier c.event

variable {capacity : Nat → Nat} {σ : System}

theorem Admitted.step (h : Admitted capacity σ) (a : Action) : Admitted capacity (σ.step a) := by
  cases a with
  | arrive notifier worker event =>
    refine ⟨h.clients, fun c hc => ?_⟩
    rcases List.mem_append.1 hc with hc | hc
    · exact h.calls c hc
    · cases List.mem_singleton.1 hc
      trivial
  | advance i reply =>
    simp only [System.step]
    cases hc : σ.calls[i]? with
    | none => exact h
    | some c =>
      have hw : (σ.worldOf c.worker reply).clients.Addressed (capacity c.worker) := h.clients c.worker
      have hphase := (h.calls c (List.mem_of_getElem? hc)).next hw
      have hclients := c.phase.next_addressed c.notifier c.event hw
      constructor
      · intro worker
        -- only the clients of the call's own worker may be others
        by_cases hworker : worker = c.worker
        · subst hworker
          simpa [System.advance] using hclients
        · simpa [System.advance, hworker] using h.clients worker
      · intro d hd
        rcases List.mem_or_eq_of_mem_set hd with hd | rfl
        · exact h.calls d hd
        · exact hphase

theorem Admitted.turn (h : Admitted capacity σ) (t : Turn) : Admitted capacity (σ.turn t) := by
  cases t with
  | act a => exact h.step a
  | relook i again =>
    simp only [System.turn]
    cases hc : σ.calls[i]? with
    | none => exact h
    | some c =>
      dsimp only
      split
      · rename_i hlooking
        refine ⟨h.clients, fun d hd => ?_⟩
        rcases List.mem_or_eq_of_mem_set hd with hd | rfl
        · exact h.calls d hd
        · exact (h.calls c (List.mem_of_getElem? hc)).relook hlooking again
      · exact h

/-- Every run keeps what is posted admissible. -/
theorem Admitted.takeTurns (turns : List Turn) :
    ∀ {σ : System}, Admitted capacity σ → Admitted capacity (σ.takeTurns turns) := by
  induction turns with
  | nil =>
    intro σ h
    exact h
  | cons t rest ih =>
    intro σ h
    exact ih (h.turn t)

/-- There is nothing to admit when no call has come and no client is kept. -/
theorem admitted_start (markers : Markers) (capacity : Nat → Nat) (dryRun : Nat → Bool) :
    Admitted capacity ⟨markers, fun worker => .empty (capacity worker) (dryRun worker), []⟩ :=
  ⟨fun worker => ClientPool.addressed_empty (capacity worker) (dryRun worker), fun c hc => by cases hc⟩

end System

end CommitStatus
