import CommitStatus.Proofs.Report.Addressing

/-!
# Builds are isolated from each other

Builds share the markers and the clients. A build's events tell Bitbucket the same, and find and leave the same marker
of the build, whether or not other builds' events come in between (`trace_handleAll_filter`): the markers of other
builds do not matter (`isLate_congr`), and neither do the clients that are kept (`prepare_agrees`).
-/

namespace CommitStatus

/-- What an event tells Bitbucket, and whether a build is marked after it. -/
def Handled.trace (id : String) (r : Handled) : List (String × Json.Value) × Bool :=
  (r.outcome.posts.map Post.message, r.outcome.world.markers.has id)

/-- Whether an event comes too late hangs on the marker of its build alone. -/
theorem Event.isLate_congr {event : Event} {m₁ m₂ : Markers} (h : m₁.has event.build.id = m₂.has event.build.id) :
    event.isLate m₁ = event.isLate m₂ := by
  cases event with
  | checkout build workspace => exact h
  | completed build => rfl

namespace Notifier

variable {n : Notifier} {event : Event} {w₁ w₂ : World} {capacity : Nat}

/-- Whether a build is marked after one of its events hangs on whether it was before. -/
theorem has_handle_congr (h : w₁.markers.has event.build.id = w₂.markers.has event.build.id) :
    (n.handle event w₁).world.markers.has event.build.id = (n.handle event w₂).world.markers.has event.build.id := by
  rw [Bool.eq_iff_iff, has_handle_iff, has_handle_iff, h]

/-- What an event tells Bitbucket hangs on the marker of its build, and not on the clients that are kept. -/
theorem messages_handle_congr (hsign : n.CanSign) (hc : 0 < capacity) (h₁ : w₁.clients.Addressed capacity)
    (h₂ : w₂.clients.Addressed capacity) (hdry : w₁.clients.dryRun = w₂.clients.dryRun)
    (h : w₁.markers.has event.build.id = w₂.markers.has event.build.id) :
    (n.handle event w₁).posts.map Post.message = (n.handle event w₂).posts.map Post.message := by
  have htold : (n.sending? event w₁).map Sending.told = (n.sending? event w₂).map Sending.told := by
    unfold sending?
    rw [accept_eq, accept_eq, Event.isLate_congr h]
    rcases hcandidate : n.candidate event with t | _ | source
    · rfl
    · rfl
    cases event.isLate w₂.markers with
    | true => rfl
    | false =>
      have hlogin := hsign _ source (findSource_of_candidate hcandidate)
      exact (prepare_agrees { w₁ with markers := event.mark w₁.markers } { w₂ with markers := event.mark w₂.markers }
        hc h₁ h₂ hlogin event.build).2
  rw [posts_handle, posts_handle, hdry]
  split
  · rfl
  · generalize n.sending? event w₁ = s₁ at htold ⊢
    generalize n.sending? event w₂ = s₂ at htold ⊢
    cases s₁ with
    | none =>
      cases s₂ with
      | none => rfl
      | some t => cases htold
    | some s =>
      cases s₂ with
      | none => cases htold
      | some t => exact congrArg ([·]) (Sending.message_post_congr (Option.some.inj htold))

/-- Two runs, one of all events and one of those of one build, from worlds in which the build is marked alike. -/
theorem trace_handleAll (hsign : n.CanSign) (hc : 0 < capacity) (id : String) :
    ∀ (events : List Event) {w₁ w₂ : World}, w₁.clients.Addressed capacity → w₂.clients.Addressed capacity →
      w₁.clients.dryRun = w₂.clients.dryRun → w₁.markers.has id = w₂.markers.has id →
      ((n.handleAll events w₁).filter (·.event.build.id = id)).map (Handled.trace id) =
        (n.handleAll (events.filter (·.build.id = id)) w₂).map (Handled.trace id)
  | [], _, _, _, _, _, _ => rfl
  | event :: rest, w₁, w₂, h₁, h₂, hdry, hmarked => by
    have h₁' : (n.handle event w₁).world.clients.Addressed capacity := handle_addressed event h₁
    have hdry₁ : (n.handle event w₁).world.clients.dryRun = w₁.clients.dryRun := handle_dryRun event
    by_cases hid : event.build.id = id
    · subst hid
      have hmarked' := has_handle_congr (n := n) hmarked
      have hmessages := messages_handle_congr hsign hc h₁ h₂ hdry hmarked
      have hrest := trace_handleAll hsign hc event.build.id rest h₁' (handle_addressed event h₂)
        (hdry₁.trans (hdry.trans (handle_dryRun event).symm)) hmarked'
      simp only [handleAll, decide_true, List.filter_cons_of_pos, List.map_cons, hrest]
      exact congrArg (· :: _) (Prod.ext hmessages hmarked')
    · -- another build's event leaves the marker alone and the clients addressed
      have hmarked' : (n.handle event w₁).world.markers.has id = w₂.markers.has id :=
        (has_handle_of_ne hid).trans hmarked
      have hrest := trace_handleAll hsign hc id rest h₁' h₂ (hdry₁.trans hdry) hmarked'
      simpa [handleAll, hid] using hrest

end Notifier

/-- **Builds are isolated from each other.** Take any sources whose users' names hold no colon, any root URL, any
look-up of revisions and room for at least one client. In a run of any events, those of one build tell Bitbucket the
same one by one, and leave the build marked or not alike, as in a run of that build's events alone, whatever Bitbucket
answers in the two runs. -/
theorem trace_handleAll_filter (sources : List Source)
    (findRevision : Source → Build → Except Trouble (Option Revision)) (rootUrl : Option String) (env : Environment)
    {capacity : Nat} (hcapacity : 0 < capacity) (dryRun : Bool) (markers : Markers) (replies replies' : List Reply)
    (hcolon : ∀ s ∈ sources, ∀ c, s.credentials = some c → ':' ∉ c.username.toList) (events : List Event)
    (id : String) :
    let n : Notifier := { Notifier.usual sources rootUrl env with findRevision }
    ((n.handleAll events ⟨markers, .empty capacity dryRun, replies⟩).filter (·.event.build.id = id)).map
        (Handled.trace id) =
      (n.handleAll (events.filter (·.build.id = id)) ⟨markers, .empty capacity dryRun, replies'⟩).map
        (Handled.trace id) := by
  intro n
  have hsign : n.CanSign := Notifier.canSign_usual hcolon rootUrl env
  have hclients : (ClientPool.empty capacity dryRun).Addressed capacity := ClientPool.keeps_empty _ _ _
  exact Notifier.trace_handleAll hsign hcapacity id events hclients hclients rfl rfl

/-- Two teams with a repository each, and room for one client: each event of the one drives out the client of the other,
and Bitbucket refuses the first status of the blue team. The red team's events tell the same as on their own. -/
theorem trace_handleAll_filter_red :
    let sources := [Source.ofTeam "red" none, { Source.ofTeam "blue" none with repository := "blue" }]
    let n := Notifier.usual sources (some "https://ci.example.com/") fun _ => none
    let events := ["red", "blue", "red"].map (fun team => Event.checkout (.ofTeam team) none) ++
      ["blue", "red"].map fun team => Event.completed (.ofTeam team)
    let run := n.handleAll events ⟨.empty, .empty 1 false, [.answer 200 "", .answer 503 "busy"]⟩
    let red := n.handleAll (events.filter (·.build.id = "red/app#1")) ⟨.empty, .empty 1 false, []⟩
    (run.map (·.outcome.posts.length)) = [1, 1, 0, 1, 1] ∧ run.map (·.outcome.world.clients.built) = [1, 2, 2, 2, 3] ∧
      (run.filter (·.event.build.id = "red/app#1")).map (Handled.trace "red/app#1") =
        red.map (Handled.trace "red/app#1") := by
  intro sources n events run red
  have hcolon : ∀ s ∈ sources, ∀ c, s.credentials = some c → ':' ∉ c.username.toList := by
    intro s hs c hc
    simp only [sources, Source.ofTeam, List.mem_cons, List.not_mem_nil, or_false] at hs
    rcases hs with rfl | rfl <;> cases hc
  refine ⟨by decide +kernel, by decide +kernel, ?_⟩
  exact trace_handleAll_filter sources (fun _ build => .ok build.revision) (some "https://ci.example.com/")
    (fun _ => none) Nat.one_pos false .empty [.answer 200 "", .answer 503 "busy"] [] hcolon events "red/app#1"

end CommitStatus
