import CommitStatus.Build.Writer
import CommitStatus.Json.Writer
import CommitStatus.Proofs.Report.Runs

/-!
# Whether a build falls back to being in progress

A build should be shown to be in progress once at most, and not after its completion (`NeverRegresses`), when its
checkouts come before its completions (`Ordered`). Of its checkouts at most one posts (`pairwise_checkout`), and what is
posted is in progress just if the build has no result (`state_eq_inProgress_iff`). So the one thing that stands in the
way is a completion without a result, which is accepted and posted as one in progress (`neverRegresses_iff`,
`neverRegresses_unfinished`).
-/

namespace CommitStatus

/-- A build is in progress just if it has no result. -/
theorem Policy.state?_eq_inProgress_iff (policy : Policy) (cloud : Bool) (result : Option Result) :
    policy.state? cloud result = some .inProgress ↔ result = none := by
  rcases result with _ | _ | _ | _ | _ | _
  case none => simp [Policy.state?]
  case some.unstable => cases hs : policy.sendSuccessForUnstable <;> simp [Policy.state?, hs]
  case some.notBuilt => cases hd : policy.disableNotificationForNotBuilt <;> cases cloud <;> simp [Policy.state?, hd]
  all_goals simp [Policy.state?]

/-! ## Runs in order -/

/-- Each build's checkouts come before its completions. -/
def Ordered (events : List Event) : Prop :=
  events.Pairwise fun earlier later =>
    earlier.kind = .completed → later.kind = .checkout → later.build.id ≠ earlier.build.id

namespace Handled

/-- What an event posts of a build to be in progress. -/
def inProgress (id : String) (r : Handled) : List Post :=
  if r.event.build.id = id then r.outcome.posts.filter (·.status.state = .inProgress) else []

/-- The event completes a build. -/
def IsCompletionOf (id : String) (r : Handled) : Prop := r.event.kind = .completed ∧ r.event.build.id = id

/-- The event completes a build without a result, and this is posted. -/
def IsUnfinished (id : String) (r : Handled) : Prop :=
  r.IsCompletionOf id ∧ r.event.build.result = none ∧ r.outcome.posts ≠ []

end Handled

/-- A build is posted to be in progress at most once, and not after one of its completions was handled. -/
structure NeverRegresses (id : String) (run : List Handled) : Prop where
  once : (run.flatMap (·.inProgress id)).length ≤ 1
  notAfter : run.Pairwise fun r r' => r.IsCompletionOf id → r'.inProgress id = []

/-- Lists of at most one element each come to at most one if of any two the one or the other is empty. -/
theorem length_flatMap_le_one_iff {α β : Type} {f : α → List β} {l : List α} (h : ∀ a ∈ l, (f a).length ≤ 1) :
    (l.flatMap f).length ≤ 1 ↔ l.Pairwise fun a b => f a = [] ∨ f b = [] := by
  induction l with
  | nil => simp
  | cons a l ih =>
    replace ih := ih fun b hb => h b (List.mem_cons_of_mem _ hb)
    rw [List.flatMap_cons, List.length_append, List.pairwise_cons]
    by_cases ha : f a = []
    · rw [ha, List.length_nil, Nat.zero_add, ih]
      simp
    · have hpos : 0 < (f a).length := List.length_pos_iff.2 ha
      have hone := h a List.mem_cons_self
      constructor
      · intro hle
        have hnil : l.flatMap f = [] := List.length_eq_zero_iff.1 (by omega)
        rw [List.flatMap_eq_nil_iff] at hnil
        exact ⟨fun b hb => .inr (hnil b hb), ih.1 (by omega)⟩
      · rintro ⟨hall, -⟩
        have hnil : l.flatMap f = [] := List.flatMap_eq_nil_iff.2 fun b hb => (hall b hb).resolve_left ha
        simp [hnil]
        omega

namespace Notifier

variable {n : Notifier} {id : String}

/-- What is posted of a build is in progress just if the build has no result. -/
theorem state_eq_inProgress_iff {event : Event} {w : World} {p : Post} (h : p ∈ (n.handle event w).posts) :
    p.status.state = .inProgress ↔ event.build.result = none := by
  obtain ⟨source, s, -, -, hs, rfl⟩ := exists_prepare_of_mem_posts h
  obtain ⟨-, revision, hash, clients, records, url, state, -, -, -, -, hstate, hstatus⟩ := prepare_some hs
  have hp : s.post.status.state = state := by
    show s.status.state = state
    rw [hstatus]
    rfl
  rw [hp, ← source.policy.state?_eq_inProgress_iff s.client.isCloud, hstate, Option.some.injEq]

/-- What a run posts of a build to be in progress is all that it posts of the build when there is no result. -/
theorem inProgress_ne_nil_iff {events : List Event} {w : World} {r : Handled} (hr : r ∈ n.handleAll events w) :
    r.inProgress id ≠ [] ↔ r.event.build.id = id ∧ r.event.build.result = none ∧ r.outcome.posts ≠ [] := by
  obtain ⟨w', hw'⟩ := exists_handle_of_mem hr
  have hstate : ∀ p ∈ r.outcome.posts, p.status.state = .inProgress ↔ r.event.build.result = none := by
    rw [hw']
    exact fun p => state_eq_inProgress_iff
  unfold Handled.inProgress
  split
  · rename_i hid
    constructor
    · intro h
      obtain ⟨p, hp⟩ := List.exists_mem_of_ne_nil _ h
      obtain ⟨hp, hpstate⟩ := List.mem_filter.1 hp
      exact ⟨hid, (hstate p hp).1 (of_decide_eq_true hpstate), List.ne_nil_of_mem hp⟩
    · rintro ⟨-, hresult, hne⟩
      obtain ⟨p, hp⟩ := List.exists_mem_of_ne_nil _ hne
      exact List.ne_nil_of_mem (List.mem_filter.2 ⟨hp, decide_eq_true ((hstate p hp).2 hresult)⟩)
  · rename_i hid
    simp [hid]

/-- An event posts a build to be in progress at most once. -/
theorem length_inProgress_le {events : List Event} {w : World} {r : Handled} (hr : r ∈ n.handleAll events w) :
    (r.inProgress id).length ≤ 1 := by
  obtain ⟨w', hw'⟩ := exists_handle_of_mem hr
  have hposts : r.outcome.posts.length ≤ 1 := hw' ▸ n.length_posts_le r.event w'
  unfold Handled.inProgress
  split
  · exact Nat.le_trans (List.length_filter_le _ _) hposts
  · exact Nat.zero_le _

/-- Once a build is marked, none of its checkouts posts. -/
theorem posts_eq_nil_of_has : ∀ (events : List Event) {w : World}, w.markers.has id = true →
    ∀ r ∈ n.handleAll events w, r.event.kind = .checkout → r.event.build.id = id → r.outcome.posts = []
  | [], _, _, _, hr => by cases hr
  | event :: rest, w, h, r, hr => by
    intro hk hid
    rcases List.mem_cons.1 hr with rfl | hr
    · by_contra hne
      have hnot := (has_of_posts_checkout hk hne).1
      rw [show event.build.id = id from hid, h] at hnot
      cases hnot
    · exact posts_eq_nil_of_has rest (has_handle_of_has h) r hr hk hid

/-- Of a build's checkouts at most one posts. -/
theorem pairwise_checkout (n : Notifier) : ∀ (events : List Event) (w : World),
    (n.handleAll events w).Pairwise fun r r' => r.event.kind = .checkout → r.outcome.posts ≠ [] →
      r'.event.kind = .checkout → r'.event.build.id = r.event.build.id → r'.outcome.posts = []
  | [], _ => .nil
  | event :: rest, w => by
    refine .cons (fun r hr hk hne hk' hid => ?_) (n.pairwise_checkout rest _)
    exact posts_eq_nil_of_has rest (has_of_posts_checkout hk hne).2 r hr hk' hid

/-- Events that come in order are handled in order. -/
theorem pairwise_ordered {events : List Event} (h : Ordered events) (w : World) :
    (n.handleAll events w).Pairwise fun r r' => r.event.kind = .completed → r'.event.kind = .checkout →
      r'.event.build.id ≠ r.event.build.id := by
  rw [Ordered, ← n.map_event_handleAll events w, List.pairwise_map] at h
  exact h

/-- In a run whose events come in order, only a completion without a result can be posted to be in progress after a
completion of the build or after another such post. -/
theorem pairwise_unfinished {events : List Event} (hordered : Ordered events) (w : World) (id : String) :
    (n.handleAll events w).Pairwise fun r r' =>
      r.IsCompletionOf id ∨ r.inProgress id ≠ [] → r'.inProgress id ≠ [] → r'.IsUnfinished id := by
  refine ((n.pairwise_checkout events w).and (pairwise_ordered hordered w)).imp_of_mem ?_
  rintro r r' hr hr' ⟨hcheckout, hord⟩ hbefore hne
  obtain ⟨hid', hresult', hposts'⟩ := (inProgress_ne_nil_iff hr').1 hne
  cases hk' : r'.event.kind with
  | completed => exact ⟨⟨hk', hid'⟩, hresult', hposts'⟩
  | checkout =>
    -- after a completion the order forbids a checkout, and after a checkout that posted the marker silences it
    exfalso
    rcases hbefore with ⟨hk, hid⟩ | hne'
    · exact hord hk hk' (hid'.trans hid.symm)
    · obtain ⟨hid, -, hposts⟩ := (inProgress_ne_nil_iff hr).1 hne'
      cases hk : r.event.kind with
      | completed => exact hord hk hk' (hid'.trans hid.symm)
      | checkout => exact hposts' (hcheckout hk hposts hk' (hid'.trans hid.symm))

end Notifier

/-! ## When a build does not fall back -/

/-- Where each event posts at most once, a build falls back just if it is posted to be in progress after one of its
completions or after another such post. -/
theorem NeverRegresses.iff_pairwise {id : String} {run : List Handled} (h : ∀ r ∈ run, (r.inProgress id).length ≤ 1) :
    NeverRegresses id run ↔
      run.Pairwise fun r r' => r.IsCompletionOf id ∨ r.inProgress id ≠ [] → r'.inProgress id = [] := by
  constructor
  · rintro ⟨honce, hafter⟩
    rw [length_flatMap_le_one_iff h] at honce
    exact (honce.and hafter).imp fun ⟨honce, hafter⟩ hbefore => hbefore.elim hafter honce.resolve_left
  · intro hpair
    refine ⟨?_, hpair.imp fun hbefore hcompletion => hbefore (.inl hcompletion)⟩
    rw [length_flatMap_le_one_iff h]
    exact hpair.imp fun hbefore => or_iff_not_imp_left.2 fun hne => hbefore (.inr hne)

/-- A completion without a result comes after a completion of the build or after the build was posted to be in
progress. -/
def Handled.Relapse (id : String) (r r' : Handled) : Prop :=
  (r.IsCompletionOf id ∨ r.inProgress id ≠ []) ∧ r'.IsUnfinished id

/-- **When a build does not fall back to being in progress.** Take any run whose events come in order.

- If every completion of a build has a result, the build is posted to be in progress at most once, and not after one of
  its completions.
- In general this is so just if no completion without a result is posted after another completion of the build or after
  the build was posted to be in progress. -/
theorem neverRegresses_iff (n : Notifier) {events : List Event} (hordered : Ordered events) (w : World) (id : String) :
    ((∀ event ∈ events, event.kind = .completed → event.build.id = id → event.build.result ≠ none) →
      NeverRegresses id (n.handleAll events w)) ∧
    (NeverRegresses id (n.handleAll events w) ↔
      (n.handleAll events w).Pairwise fun r r' => ¬Handled.Relapse id r r') := by
  have hiff : NeverRegresses id (n.handleAll events w) ↔
      (n.handleAll events w).Pairwise fun r r' => ¬Handled.Relapse id r r' := by
    rw [NeverRegresses.iff_pairwise fun r hr => Notifier.length_inProgress_le hr]
    constructor
    · intro hpair
      refine hpair.imp_of_mem ?_
      rintro r r' - hr' hafter ⟨hbefore, ⟨-, hid⟩, hresult, hposts⟩
      exact (Notifier.inProgress_ne_nil_iff hr').2 ⟨hid, hresult, hposts⟩ (hafter hbefore)
    · intro hpair
      refine (hpair.and (Notifier.pairwise_unfinished hordered w id)).imp ?_
      rintro r r' ⟨hrelapse, hunfinished⟩ hbefore
      by_contra hne
      exact hrelapse ⟨hbefore, hunfinished hbefore hne⟩
  refine ⟨fun hresult => hiff.2 ?_, hiff⟩
  refine List.pairwise_of_forall_mem_list ?_
  rintro r - r' hr' ⟨-, ⟨hk, hid⟩, hnone, -⟩
  have hmem : r'.event ∈ events := by
    rw [← n.map_event_handleAll events w]
    exact List.mem_map_of_mem hr'
  exact hresult r'.event hmem hk hid hnone

/-- Two teams' builds whose events come in order: the red build is posted to be in progress once, though its checkout
and its completion are told twice. -/
theorem neverRegresses_finished :
    let n := Notifier.usual [.ofTeam "red" none, .ofTeam "blue" none] (some "https://ci.example.com/") fun _ => none
    let started (team : String) := Event.checkout { Build.ofTeam team with result := none } none
    let finished (team : String) := Event.completed (.ofTeam team)
    let events := [started "red", started "blue", started "red", finished "red", started "blue", finished "red"]
    let run := n.handleAll events ⟨.empty, .empty 100 false, []⟩
    Ordered events ∧ (run.map (·.outcome.posts.length)) = [1, 1, 0, 1, 0, 1] ∧
      (run.flatMap (·.inProgress "red/app#1")).length = 1 ∧ NeverRegresses "red/app#1" run := by
  intro n started finished events run
  have hordered : Ordered events := by
    unfold Ordered
    decide +kernel
  have hresult : ∀ event ∈ events, event.kind = .completed → event.build.id = "red/app#1" →
      event.build.result ≠ none := by
    decide +kernel
  refine ⟨hordered, by decide +kernel, by decide +kernel, ?_⟩
  exact (neverRegresses_iff n hordered ⟨.empty, .empty 100 false, []⟩ "red/app#1").1 hresult

/-- A completion without a result is read from its text, and after the checkout of the build it is posted to be in
progress again. -/
theorem neverRegresses_unfinished :
    let n := Notifier.usual [.ofTeam "red" none] (some "https://ci.example.com/") fun _ => none
    let build := { Build.ofTeam "red" with result := none }
    let events := [Event.checkout build none, .completed build, .completed build]
    let run := n.handleAll events ⟨.empty, .empty 100 false, []⟩
    (Event.read .completed (Text.Utf8.encode (Event.completed build).toJson.chars)).toOption = some (.completed build) ∧
      Ordered events ∧ run.flatMap (fun r => r.outcome.posts.map (·.status.state)) = List.replicate 3 .inProgress ∧
      ¬NeverRegresses build.id run := by
  intro n build events run
  refine ⟨by decide +kernel, by unfold Ordered; decide +kernel, by decide +kernel, ?_⟩
  rintro ⟨honce, -⟩
  have hthree : (run.flatMap (·.inProgress build.id)).length = 3 := by decide +kernel
  omega

end CommitStatus
