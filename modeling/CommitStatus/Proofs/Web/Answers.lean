import CommitStatus.Proofs.Web.Submission
import Mathlib.Data.List.Forall2

/-!
# What Bitbucket answers does not steer the service

Two runs over the same bodies from worlds that differ only in Bitbucket's answers to come post the same, set the same
markers, keep the same clients and answer alike (`processAll_alike`), as long as no answer calls the work off. What the
answers reach is at most the last remark on a build whose status was posted, the counters and the records (`Alike`).

The argument is a simulation: a preparation does not look at the answers (`prepare_answeredBy`), what comes after it
ends alike whatever the answer is (`settle_sendStatus_alike`), so handling an event keeps the worlds alike
(`handle_alike`).
-/

namespace CommitStatus

/-- Whether the work is called off instead of an answer. -/
def Reply.isCancelled : Reply → Bool
  | .answer .. => false
  | .failure t => t.isCancelled

/-- No answer of a script calls the work off. -/
def Steady (script : List Reply) : Prop := ∀ r ∈ script, r.isCancelled = false

theorem steady_nil : Steady [] := by
  intro r hr
  cases hr

/-- Nor does the next answer. -/
theorem Steady.next {script : List Reply} (h : Steady script) : (Reply.next script).1.isCancelled = false := by
  cases script with
  | nil => rfl
  | cons r _ => exact h r List.mem_cons_self

/-- The answers that are still to come are others. -/
def World.answeredBy (script : List Reply) (w : World) : World := { w with replies := script }

namespace Outcome

/-- The answers that are still to come are others. -/
def answeredBy (script : List Reply) (o : Outcome) : Outcome := { o with world := o.world.answeredBy script }

/-- Two outcomes differ at most in what an answer of Bitbucket brings about: the last remark, if a status was posted,
and what is counted and logged. -/
structure Alike (o₁ o₂ : Outcome) : Prop where
  posts : o₁.posts = o₂.posts
  markers : o₁.world.markers = o₂.world.markers
  clients : o₁.world.clients = o₂.world.clients
  trouble : o₁.trouble = o₂.trouble
  remarks : ∃ said tail₁ tail₂, o₁.remarks = said ++ tail₁ ∧ o₂.remarks = said ++ tail₂ ∧
    tail₁.length ≤ 1 ∧ tail₂.length ≤ 1 ∧ (o₁.posts = [] → tail₁ = tail₂)

theorem Alike.answeredBy (o : Outcome) (script : List Reply) : Alike o (o.answeredBy script) :=
  ⟨rfl, rfl, rfl, rfl, o.remarks, [], [], (List.append_nil _).symm, (List.append_nil _).symm, Nat.zero_le _,
    Nat.zero_le _, fun _ => rfl⟩

end Outcome

open Outcome (Alike)

/-- The trouble that an answer makes calls the work off only if the answer does. -/
theorem Reply.isCancelled_trouble? {r : Reply} {url : String} {t : Trouble} (h : r.trouble? url = some t) :
    t.isCancelled = r.isCancelled := by
  cases r with
  | answer status body =>
    simp only [Reply.trouble?] at h
    split at h
    · cases h; rfl
    · cases h
  | failure u => cases h; rfl

namespace Notifier

variable {n : Notifier} {source : Source} {build : Build} {w : World} {script : List Reply}

/-- A preparation does not look at the answers. -/
theorem prepare_answeredBy (n : Notifier) (source : Source) (build : Build) (w : World) (script : List Reply) :
    n.prepare source build (w.answeredBy script) =
      ((n.prepare source build w).1.answeredBy script, (n.prepare source build w).2) := by
  show n.prepare source build (w.replace w.markers script) = _
  rw [prepare_replace, ← (prepare_untouched n source build w).2.1]
  rfl

/-- Accepting an event does not look at the answers. -/
theorem accept_answeredBy (n : Notifier) (event : Event) (w : World) (script : List Reply) :
    n.accept event (w.answeredBy script) =
      (n.accept event w).map (Option.map fun a => (a.1, a.2.answeredBy script)) :=
  n.accept_change event w id script

/-! ## After the answer -/

/-- A status that is sent goes the same way whatever the answer to it is. -/
theorem send_answers (p : ClientPool) (script₁ script₂ : List Reply) (c : Client) (status : Status) :
    (p.send script₁ c status).1 = (p.send script₂ c status).1 ∧
      (p.send script₁ c status).2.1 = (p.send script₂ c status).2.1 := by
  cases hd : p.dryRun with
  | true => rw [ClientPool.send_dry _ _ _ hd, ClientPool.send_dry _ _ _ hd]; exact ⟨rfl, rfl⟩
  | false => rw [ClientPool.send_live _ _ _ hd, ClientPool.send_live _ _ _ hd]; exact ⟨rfl, rfl⟩

/-- Where no answer calls the work off, the trouble of a status that is sent does not. -/
theorem send_trouble {p : ClientPool} {c : Client} {status : Status} {t : Trouble} (hs : Steady script)
    (h : (p.send script c status).2.2.2 = some t) : t.isCancelled = false := by
  cases hd : p.dryRun with
  | true => rw [ClientPool.send_dry _ _ _ hd] at h; cases h
  | false =>
    rw [ClientPool.send_live _ _ _ hd] at h
    rw [Reply.isCancelled_trouble? h]
    exact hs.next

/-- The answers to come after a status was sent are among those to come before. -/
theorem send_steady {p : ClientPool} {c : Client} {status : Status} (hs : Steady script) :
    Steady (p.send script c status).2.2.1 := by
  cases hd : p.dryRun with
  | true => rw [ClientPool.send_dry _ _ _ hd]; exact hs
  | false =>
    rw [ClientPool.send_live _ _ _ hd]
    cases script with
    | nil => exact hs
    | cons _ _ => exact fun r hr => hs r (List.mem_cons_of_mem _ hr)

/-- Where no answer calls the work off, sending a status ends without trouble and adds at most one remark. -/
theorem settle_sendStatus {o : Outcome} (ht : o.trouble = none) (hs : Steady o.world.replies) (kind : EventKind)
    (build : Build) (client : Client) (status : Status) :
    ((sendStatus build client status o).settle kind build.id).trouble = none ∧
      ∃ tail, ((sendStatus build client status o).settle kind build.id).remarks = o.remarks ++ tail ∧
        tail.length ≤ 1 := by
  rcases hsend : o.world.clients.send o.world.replies client status with ⟨posts, clients, replies, _ | t⟩
  · simp only [sendStatus, hsend]
    cases build.result with
    | none =>
      simp only [Outcome.settle, Outcome.count, Option.isSome_none, Bool.false_eq_true, if_false, ht]
      exact ⟨trivial, [], (List.append_nil _).symm, Nat.zero_le _⟩
    | some result =>
      simp only [Outcome.settle, Outcome.count, Outcome.say, Option.isSome_some, if_true, ht]
      exact ⟨trivial, _, rfl, Nat.le_refl _⟩
  · have hc : t.isCancelled = false := send_trouble hs (by rw [hsend])
    simp only [sendStatus, hsend, Outcome.settle, Outcome.fail, hc, Bool.false_eq_true, if_false]
    exact ⟨trivial, _, rfl, Nat.le_refl _⟩

/-- A dry run does not look at the answers. -/
theorem sendStatus_answeredBy {o : Outcome} (hd : o.world.clients.dryRun = true) (build : Build) (client : Client)
    (status : Status) (script : List Reply) :
    sendStatus build client status (o.answeredBy script) = (sendStatus build client status o).answeredBy script := by
  have hd' : (o.answeredBy script).world.clients.dryRun = true := hd
  simp only [sendStatus, ClientPool.send_dry _ _ _ hd, ClientPool.send_dry _ _ _ hd']
  cases build.result <;> rfl

/-- Keeping trouble from going further does not look at the answers. -/
theorem settle_answeredBy (kind : EventKind) (id : String) (o : Outcome) (script : List Reply) :
    (o.answeredBy script).settle kind id = (o.settle kind id).answeredBy script :=
  settle_change kind id o (World.answeredBy script) fun posts => posts

/-! ## One event -/

/-- A status that is sent has met no trouble so far. -/
theorem prepare_trouble {s : Sending} (h : (n.prepare source build w).2 = some s) :
    (n.prepare source build w).1.trouble = none := by
  obtain ⟨hd, revision, hash, clients, records, url, state, hr, hh, ho, -⟩ := prepare_some h
  rw [prepare_eq_draft hd hr hh ho, (draft_untouched _ _ _ _ _ _ _).2.2]
  rfl

/-- Sending a status in worlds that differ in the answers to come ends alike. -/
theorem settle_sendStatus_alike {o : Outcome} (ht : o.trouble = none) (ho : Steady o.world.replies)
    (hs : Steady script) (kind : EventKind) (build : Build) (client : Client) (status : Status) :
    Alike ((sendStatus build client status o).settle kind build.id)
      ((sendStatus build client status (o.answeredBy script)).settle kind build.id) := by
  cases hd : o.world.clients.dryRun with
  | true =>
    rw [sendStatus_answeredBy hd, settle_answeredBy]
    exact .answeredBy _ _
  | false =>
    obtain ⟨ht₁, tail₁, hr₁, hl₁⟩ := settle_sendStatus ht ho kind build client status
    obtain ⟨ht₂, tail₂, hr₂, hl₂⟩ := settle_sendStatus (o := o.answeredBy script) ht hs kind build client status
    obtain ⟨hw₁, hp₁⟩ := settle_untouched kind build.id (sendStatus build client status o)
    obtain ⟨hw₂, hp₂⟩ := settle_untouched kind build.id (sendStatus build client status (o.answeredBy script))
    obtain ⟨hpost₁, hworld₁⟩ := sendStatus_eq build client status o
    obtain ⟨hpost₂, hworld₂⟩ := sendStatus_eq build client status (o.answeredBy script)
    obtain ⟨hsent, hclients⟩ := send_answers o.world.clients o.world.replies script client status
    refine ⟨?_, ?_, ?_, ht₁.trans ht₂.symm, o.remarks, tail₁, tail₂, hr₁, hr₂, hl₁, hl₂, fun h => ?_⟩
    · rw [hp₁, hp₂, hpost₁, hpost₂, hsent]; rfl
    · rw [hw₁, hw₂, hworld₁, hworld₂]; rfl
    · rw [hw₁, hw₂, hworld₁, hworld₂]; exact hclients
    · -- a status was posted, so there is nothing to show
      rw [hp₁, hpost₁, ClientPool.send_live _ _ _ hd] at h
      simp at h

/-- Reports of one build in worlds that differ in the answers to come are alike. -/
theorem notifySafely_alike (n : Notifier) (kind : EventKind) (source : Source) (build : Build) {w : World}
    (hw : Steady w.replies) (hs : Steady script) :
    Alike (n.notifySafely kind source build w) (n.notifySafely kind source build (w.answeredBy script)) ∧
      Steady (n.notifySafely kind source build w).world.replies ∧
      Steady (n.notifySafely kind source build (w.answeredBy script)).world.replies := by
  obtain ⟨-, -, hreplies, -⟩ := prepare_untouched n source build w
  have htrouble : ∀ s, (n.prepare source build w).2 = some s → (n.prepare source build w).1.trouble = none :=
    fun s h => prepare_trouble h
  simp only [notifySafely, notify, prepare_answeredBy, (settle_untouched _ _ _).1]
  generalize n.prepare source build w = prepared at hreplies htrouble ⊢
  obtain ⟨o, _ | s⟩ := prepared
  · simp only [finish, settle_answeredBy]
    exact ⟨.answeredBy _ _, hreplies ▸ hw, hs⟩
  · have ho : Steady o.world.replies := hreplies ▸ hw
    simp only [finish, (sendStatus_eq _ _ _ _).2]
    exact ⟨settle_sendStatus_alike (htrouble s rfl) ho hs kind build s.client s.status, send_steady ho, send_steady hs⟩

/-- Handling one event in worlds that differ in the answers to come ends alike. -/
theorem handle_alike (n : Notifier) (event : Event) {w : World} (hw : Steady w.replies) (hs : Steady script) :
    Alike (n.handle event w) (n.handle event (w.answeredBy script)) ∧
      Steady (n.handle event w).world.replies ∧ Steady (n.handle event (w.answeredBy script)).world.replies := by
  rw [handle_eq, handle_eq, accept_answeredBy]
  rcases ha : n.accept event w with t | _ | ⟨source, w'⟩
  · exact ⟨.answeredBy _ script, hw, hs⟩
  · exact ⟨.answeredBy _ script, hw, hs⟩
  · obtain ⟨-, -, hreplies⟩ := accept_some ha
    obtain ⟨ha, hsteady⟩ := notifySafely_alike n event.kind source event.build (hreplies ▸ hw) hs
    exact ⟨⟨ha.posts, ha.markers, ha.clients, ha.trouble, ha.remarks⟩, hsteady⟩

end Notifier

/-! ## Runs -/

namespace Web

/-- The status of an answer, if there is one. -/
def statusOf? (r : Outcome × Option Answer) : Option Nat := r.2.map Answer.status

/-- Containing what went wrong keeps outcomes alike. -/
theorem contain_alike {o₁ o₂ : Outcome} (h : Alike o₁ o₂) : Alike (contain o₁) (contain o₂) := by
  obtain ⟨hw₁, hp₁, hr₁⟩ := contain_untouched o₁
  obtain ⟨hw₂, hp₂, hr₂⟩ := contain_untouched o₂
  refine ⟨?_, ?_, ?_, ?_, ?_⟩
  · rw [hp₁, hp₂]; exact h.posts
  · rw [hw₁, hw₂]; exact h.markers
  · rw [hw₁, hw₂]; exact h.clients
  · unfold contain
    rw [← h.trouble]
    cases ht : o₁.trouble with
    | none => exact ht.trans (h.trouble ▸ ht).symm
    | some t => dsimp only; split <;> simp_all [h.trouble]
  · rw [hr₁, hr₂, hp₁]; exact h.remarks

/-- Alike outcomes are answered with one status. -/
theorem answer?_alike {o₁ o₂ : Outcome} (h : Alike o₁ o₂) :
    (answer? o₁).map Answer.status = (answer? o₂).map Answer.status := by
  unfold answer?
  rw [← h.trouble]
  cases o₁.trouble <;> rfl

/-- Handling one body in worlds that differ in the answers to come ends alike and is answered with one status. -/
theorem processEvent_alike (n : Notifier) (kind : EventKind) (body : List UInt8) {w : World} {script : List Reply}
    (hw : Steady w.replies) (hs : Steady script) :
    Alike (processEvent n kind body w).1 (processEvent n kind body (w.answeredBy script)).1 ∧
      statusOf? (processEvent n kind body w) = statusOf? (processEvent n kind body (w.answeredBy script)) ∧
      Steady (processEvent n kind body w).1.world.replies ∧
      Steady (processEvent n kind body (w.answeredBy script)).1.world.replies := by
  rw [processEvent_eq, processEvent_eq]
  unfold processEvent statusOf? handleEvent
  cases Event.read kind body with
  | error e => exact ⟨.answeredBy _ script, rfl, hw, hs⟩
  | ok event =>
    obtain ⟨ha, hsteady⟩ := n.handle_alike event hw hs
    exact ⟨contain_alike ha, answer?_alike (contain_alike ha), hsteady⟩

/-- Runs over the same bodies from worlds that differ in the answers to come go alike body by body. -/
theorem processAll_alike (n : Notifier) (markers : Markers) (clients : ClientPool) :
    ∀ (submissions : List Submission) {script₁ script₂ : List Reply}, Steady script₁ → Steady script₂ →
      List.Forall₂ (fun r₁ r₂ => Alike r₁.1 r₂.1 ∧ statusOf? r₁ = statusOf? r₂)
        (processAll n submissions ⟨markers, clients, script₁⟩) (processAll n submissions ⟨markers, clients, script₂⟩)
  | [], _, _, _, _ => .nil
  | s :: rest, script₁, script₂, h₁, h₂ => by
    obtain ⟨ha, hstatus, hs₁, hs₂⟩ :=
      processEvent_alike n s.kind s.body (w := ⟨markers, clients, script₁⟩) h₁ h₂
    refine .cons ⟨ha, hstatus⟩ ?_
    have hworld : (processEvent n s.kind s.body ⟨markers, clients, script₂⟩).1.world =
        (processEvent n s.kind s.body ⟨markers, clients, script₁⟩).1.world.answeredBy
          (processEvent n s.kind s.body ⟨markers, clients, script₂⟩).1.world.replies := by
      rw [World.answeredBy, ha.markers, ha.clients]
      rfl
    rw [hworld]
    exact processAll_alike n _ _ rest hs₁ hs₂

/-- What is seen of a body that was handled, but for remarks, counters and records: the posts, the markers and clients
afterwards, and the status of the answer. -/
def seen (r : Outcome × Option Answer) : List Post × Markers × ClientPool × Option Nat :=
  (r.1.posts, r.1.world.markers, r.1.world.clients, statusOf? r)

/-- **Bitbucket's answers do not steer the service.** Whatever is answered in two runs over the same bodies, body by
body the posts, the markers, the clients that are kept and the statuses of the answers are the same, as long as no
answer calls the work off; and the remarks are the same but for the last one on a build whose status was posted. -/
theorem seen_processAll_eq (n : Notifier) (submissions : List Submission) (markers : Markers) (clients : ClientPool)
    {script₁ script₂ : List Reply} (h₁ : Steady script₁) (h₂ : Steady script₂) :
    (processAll n submissions ⟨markers, clients, script₁⟩).map seen =
        (processAll n submissions ⟨markers, clients, script₂⟩).map seen ∧
      List.Forall₂
        (fun r₁ r₂ => ∃ said tail₁ tail₂, r₁.1.remarks = said ++ tail₁ ∧ r₂.1.remarks = said ++ tail₂ ∧
          tail₁.length ≤ 1 ∧ tail₂.length ≤ 1 ∧ (r₁.1.posts = [] → tail₁ = tail₂))
        (processAll n submissions ⟨markers, clients, script₁⟩)
        (processAll n submissions ⟨markers, clients, script₂⟩) := by
  have h := processAll_alike n markers clients submissions h₁ h₂
  refine ⟨?_, h.imp fun _ _ hr => hr.1.remarks⟩
  refine List.forall₂_eq_eq_eq ▸ List.forall₂_map_left_iff.2 (List.forall₂_map_right_iff.2 (h.imp fun r₁ r₂ hr => ?_))
  unfold seen
  rw [hr.1.posts, hr.1.markers, hr.1.clients, hr.2]

/-- A team's build is reported in the same way to a server that is busy and then cannot be reached, and to one that
takes every status. -/
theorem seen_processAll_busy :
    let n := Notifier.usual [.ofTeam "red" none] (some "https://ci.example.com/") fun _ => none
    let submissions : List Submission :=
      [.ofEvent (.checkout (.ofTeam "red") none), ⟨.completed, []⟩, .ofEvent (.completed (.ofTeam "red"))]
    let busy : List Reply := [.answer 503 "busy", .failure (.raised .connection (some "refused"))]
    Steady busy ∧ Steady [] ∧
      (processAll n submissions ⟨.empty, .empty 100 false, busy⟩).map (·.1.posts.length) = [1, 0, 1] ∧
      (processAll n submissions ⟨.empty, .empty 100 false, busy⟩).map seen =
        (processAll n submissions ⟨.empty, .empty 100 false, []⟩).map seen := by
  intro n submissions busy
  have h₁ : Steady busy := by
    intro r hr
    rcases List.mem_cons.1 hr with rfl | hr
    · rfl
    · cases List.mem_singleton.1 hr
      rfl
  have h₂ : Steady [] := by
    intro r hr
    cases hr
  exact ⟨h₁, h₂, by decide +kernel, (seen_processAll_eq n submissions .empty (.empty 100 false) h₁ h₂).1⟩

end Web

end CommitStatus
