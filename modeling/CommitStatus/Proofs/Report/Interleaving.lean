import CommitStatus.Proofs.Report.Steps
import Mathlib.Logic.Function.Basic

/-!
# Many handle events at a time

Workers share the markers and nothing else. Their calls for events come at any time and go step by step, in any order,
and the answers that they wait for are what they may be, or never come (`System.run`).

- in any order of the steps a build's checkout is reported once at most, by the call that was the first to try its
  marker, and markers stay (`reported_once`);
- this rests on an invariant (`System.Inv`) of the calls, the markers and the calls that tried each marker
  (`System.tries`): one step keeps it (`System.Inv.step`), so every run keeps it (`System.Inv.run`).
-/

namespace CommitStatus

/-- A call for an event: who handles it, with what clients, and how far it is. -/
structure Call where
  notifier : Notifier
  worker : Nat
  event : Event
  phase : Phase

/-- A call one step further. -/
def Call.next (c : Call) (w : World) : Call := { c with phase := (c.phase.next c.notifier c.event w).1 }

/-- The call is for the checkout of a build. -/
def Call.IsCheckoutOf (c : Call) (id : String) : Prop := c.event.kind = .checkout ∧ c.event.build.id = id

/-- The markers are others, also those that an outcome tells of. -/
def Call.markedAs (markers : Markers) (c : Call) : Call := { c with phase := c.phase.markedAs markers }

/-- All workers at one time: the markers that they share, the clients of each, and the calls in the order in which they
came. -/
structure System where
  markers : Markers
  clients : Nat → ClientPool
  calls : List Call

/-- What happens next: a call comes, or a call goes one step further, with the answer to its post if it waits for
one. -/
inductive Action
  | arrive (notifier : Notifier) (worker : Nat) (event : Event)
  | advance (call : Nat) (reply : Reply)

namespace System

/-- The world as a worker sees it. -/
def worldOf (σ : System) (worker : Nat) (reply : Reply) : World := ⟨σ.markers, σ.clients worker, [reply]⟩

/-- A call goes one step further. -/
def advance (σ : System) (i : Nat) (c : Call) (reply : Reply) : System :=
  let w := σ.worldOf c.worker reply
  let w' := (c.phase.next c.notifier c.event w).2
  ⟨w'.markers, Function.update σ.clients c.worker w'.clients, σ.calls.set i (c.next w)⟩

/-- One step of all workers. -/
def step (σ : System) : Action → System
  | .arrive notifier worker event => { σ with calls := σ.calls ++ [⟨notifier, worker, event, .arrived⟩] }
  | .advance i reply =>
    match σ.calls[i]? with
    | none => σ
    | some c => σ.advance i c reply

/-- Steps in any order. -/
def run (σ : System) (schedule : List Action) : System := schedule.foldl step σ

/-- The call that tries the marker of a build next. -/
def tries? (σ : System) (id : String) : Action → Option Nat
  | .arrive .. => none
  | .advance i _ =>
    match σ.calls[i]? with
    | none => none
    | some c => if c.phase.isMarking = true ∧ c.event.build.id = id then some i else none

/-- The calls that try the marker of a build, in the order in which they do. -/
def tries (id : String) : System → List Action → List Nat
  | _, [] => []
  | σ, a :: rest => (σ.tries? id a).toList ++ tries id (σ.step a) rest

/-- The markers are others. -/
def markedAs (markers : Markers) (σ : System) : System := ⟨markers, σ.clients, σ.calls.map (Call.markedAs markers)⟩

theorem run_cons (σ : System) (a : Action) (rest : List Action) : σ.run (a :: rest) = (σ.step a).run rest := rfl

end System

/-! ## Lists of calls -/

/-- A list with one more element. -/
theorem getElem?_snoc {α : Type} {l : List α} {x y : α} {i : Nat} :
    (l ++ [x])[i]? = some y ↔ l[i]? = some y ∨ (i = l.length ∧ y = x) := by
  rcases Nat.lt_trichotomy i l.length with h | rfl | h
  · rw [List.getElem?_append_left h]
    constructor
    · exact Or.inl
    · rintro (hy | ⟨rfl, -⟩)
      · exact hy
      · omega
  · simp [eq_comm]
  · have hn : l[i]? = none := List.getElem?_eq_none (by omega)
    have hs : (l ++ [x])[i]? = none := List.getElem?_eq_none (by simp; omega)
    rw [hn, hs]
    simp
    omega

/-- A list in which one element is another. -/
theorem getElem?_set_some {α : Type} {l : List α} {x x' y : α} {i j : Nat} (hx : l[i]? = some x) :
    (l.set i x')[j]? = some y ↔ (j = i ∧ y = x') ∨ (j ≠ i ∧ l[j]? = some y) := by
  obtain ⟨hi, -⟩ := List.getElem?_eq_some_iff.1 hx
  by_cases h : i = j
  · subst h
    simp [hi, eq_comm]
  · rw [List.getElem?_set_ne h]
    simp [Ne.symm h]

/-- Of the calls that tried a marker the first stays the first. -/
theorem head?_append_of_ne {α : Type} {l : List α} {i j : α} (h : j ≠ i) (o : Option α) (ho : ∀ x ∈ o, x = i) :
    (l ++ o.toList).head? = some j ↔ l.head? = some j := by
  cases l with
  | cons x l => rfl
  | nil =>
    cases o with
    | none => rfl
    | some x =>
      cases ho x rfl
      simp [Ne.symm h]

/-! ## The invariant -/

namespace System

/-- What holds of the calls, the markers and the calls that tried each marker so far, when there were some markers to
begin with. -/
structure Inv (initial : Markers) (tried : String → List Nat) (σ : System) : Prop where
  wellFormed : ∀ c ∈ σ.calls, c.phase.WellFormed c.notifier c.event
  marked : ∀ id, σ.markers.has id = true ↔ initial.has id = true ∨ tried id ≠ []
  mem_tried : ∀ id i, i ∈ tried id ↔ ∃ c, σ.calls[i]? = some c ∧ c.IsCheckoutOf id ∧ c.phase.isPast = true
  chosen : ∀ id i c, σ.calls[i]? = some c → c.IsCheckoutOf id →
    (c.phase.isChosen = true ↔ initial.has id = false ∧ (tried id).head? = some i)

section Step

variable {initial : Markers} {tried : String → List Nat} {σ : System}

/-- A call that comes keeps the invariant. -/
theorem Inv.arrive (h : Inv initial tried σ) (notifier : Notifier) (worker : Nat) (event : Event) :
    Inv initial tried (σ.step (.arrive notifier worker event)) where
  wellFormed c hc := by
    rcases List.mem_append.1 hc with hc | hc
    · exact h.wellFormed c hc
    · cases List.mem_singleton.1 hc
      exact Phase.wellFormed_arrived notifier event
  marked := h.marked
  mem_tried id i := by
    rw [h.mem_tried]
    constructor
    · rintro ⟨c, hc, hrest⟩
      exact ⟨c, getElem?_snoc.2 (.inl hc), hrest⟩
    · rintro ⟨c, hc, hid, hpast⟩
      rcases getElem?_snoc.1 hc with hc | ⟨-, rfl⟩
      · exact ⟨c, hc, hid, hpast⟩
      · cases hpast
  chosen id i c hc hid := by
    rcases getElem?_snoc.1 hc with hc | ⟨rfl, rfl⟩
    · exact h.chosen id i c hc hid
    · constructor
      · intro hchosen
        cases hchosen
      · -- the call that was the first to try came before
        rintro ⟨-, hhead⟩
        obtain ⟨c, hc, -⟩ := (h.mem_tried id _).1 (List.mem_of_head? hhead)
        obtain ⟨hlt, -⟩ := List.getElem?_eq_some_iff.1 hc
        omega

/-- A step that does not set a marker keeps the invariant. -/
theorem Inv.advance (h : Inv initial tried σ) {i : Nat} {c : Call} (hc : σ.calls[i]? = some c) (reply : Reply)
    (hm : c.phase.isMarking = false) : Inv initial tried (σ.advance i c reply) := by
  have hnext (w : World) {id : String} (hid : c.IsCheckoutOf id) :
      (c.next w).phase.isPast = c.phase.isPast ∧ (c.next w).phase.isChosen = c.phase.isChosen :=
    Phase.next_isPast_isChosen hid.1 hm
  constructor
  · intro d hd
    rcases List.mem_or_eq_of_mem_set hd with hd | rfl
    · exact h.wellFormed d hd
    · exact (h.wellFormed c (List.mem_of_getElem? hc)).next _
  · intro id
    have hmarkers : (σ.advance i c reply).markers = σ.markers := Phase.next_markers hm
    rw [hmarkers]
    exact h.marked id
  · intro id j
    rw [h.mem_tried]
    constructor
    · rintro ⟨d, hd, hid, hpast⟩
      by_cases hj : j = i
      · subst hj
        cases hc.symm.trans hd
        exact ⟨_, (getElem?_set_some hc).2 (.inl ⟨rfl, rfl⟩), hid, (hnext _ hid).1.trans hpast⟩
      · exact ⟨d, (getElem?_set_some hc).2 (.inr ⟨hj, hd⟩), hid, hpast⟩
    · rintro ⟨d, hd, hid, hpast⟩
      rcases (getElem?_set_some hc).1 hd with ⟨rfl, rfl⟩ | ⟨-, hd⟩
      · exact ⟨c, hc, hid, (hnext _ hid).1.symm.trans hpast⟩
      · exact ⟨d, hd, hid, hpast⟩
  · intro id j d hd hid
    rcases (getElem?_set_some hc).1 hd with ⟨rfl, rfl⟩ | ⟨-, hd⟩
    · rw [(hnext _ hid).2]
      exact h.chosen id j c hc hid
    · exact h.chosen id j d hd hid

/-- The step that sets a marker keeps the invariant. -/
theorem Inv.mark (h : Inv initial tried σ) {i : Nat} {c : Call} (hc : σ.calls[i]? = some c) (reply : Reply)
    (hm : c.phase.isMarking = true) :
    Inv initial (fun id => tried id ++ (if c.event.build.id = id then some i else none).toList)
      (σ.advance i c reply) := by
  have hkind : c.event.kind = .checkout := ((h.wellFormed c (List.mem_of_getElem? hc)).marking hm).1
  obtain ⟨hpast, hchosen, hmarkers⟩ := Phase.next_marking c.notifier c.event (σ.worldOf c.worker reply) hm
  -- the call has not tried its marker before
  have hnew : i ∉ tried c.event.build.id := by
    intro hi
    obtain ⟨d, hd, -, hd'⟩ := (h.mem_tried _ _).1 hi
    cases hc.symm.trans hd
    rw [Phase.isPast_of_isMarking hm] at hd'
    cases hd'
  constructor
  · intro d hd
    rcases List.mem_or_eq_of_mem_set hd with hd | rfl
    · exact h.wellFormed d hd
    · exact (h.wellFormed c (List.mem_of_getElem? hc)).next _
  · intro id
    have hadd : (σ.advance i c reply).markers = (σ.markers.add c.event.build.id).2 := hmarkers
    rw [hadd, Markers.has_add_iff, h.marked]
    by_cases hid : c.event.build.id = id
    · simp [hid]
    · simp [hid, Ne.symm hid]
  · intro id j
    rw [List.mem_append, h.mem_tried]
    constructor
    · rintro (⟨d, hd, hid, hd'⟩ | hj)
      · have hj : j ≠ i := by
          rintro rfl
          cases hc.symm.trans hd
          rw [Phase.isPast_of_isMarking hm] at hd'
          cases hd'
        exact ⟨d, (getElem?_set_some hc).2 (.inr ⟨hj, hd⟩), hid, hd'⟩
      · split at hj
        · rename_i hid
          cases List.mem_singleton.1 hj
          exact ⟨_, (getElem?_set_some hc).2 (.inl ⟨rfl, rfl⟩), ⟨hkind, hid⟩, hpast⟩
        · cases hj
    · rintro ⟨d, hd, hid, hd'⟩
      rcases (getElem?_set_some hc).1 hd with ⟨rfl, rfl⟩ | ⟨-, hd⟩
      · have hid' : c.event.build.id = id := hid.2
        rw [if_pos hid']
        exact .inr List.mem_cons_self
      · exact .inl ⟨d, hd, hid, hd'⟩
  · intro id j d hd hid
    rcases (getElem?_set_some hc).1 hd with ⟨rfl, rfl⟩ | ⟨hj, hd⟩
    · obtain ⟨-, rfl⟩ : _ ∧ c.event.build.id = id := hid
      show (c.phase.next c.notifier c.event _).1.isChosen = true ↔ _
      rw [hchosen, Bool.not_eq_true', if_pos rfl, ← Bool.not_eq_true, ← Bool.not_eq_true]
      show ¬σ.markers.has c.event.build.id = true ↔ _
      rw [h.marked, not_or, not_ne_iff]
      refine and_congr_right fun _ => ?_
      cases htried : tried c.event.build.id with
      | nil => simp
      | cons k rest =>
        -- another call was the first
        have hk : k ≠ j := by
          rintro rfl
          exact hnew (htried ▸ List.mem_cons_self)
        simp [hk]
    · rw [h.chosen id j d hd hid, head?_append_of_ne hj]
      intro x hx
      split at hx
      · cases hx
        rfl
      · cases hx

/-- One step keeps the invariant. -/
theorem Inv.step (h : Inv initial tried σ) (a : Action) :
    Inv initial (fun id => tried id ++ (σ.tries? id a).toList) (σ.step a) := by
  cases a with
  | arrive notifier worker event => simpa [System.tries?] using h.arrive notifier worker event
  | advance i reply =>
    cases hc : σ.calls[i]? with
    | none => simpa [System.tries?, System.step, hc] using h
    | some c =>
      cases hm : c.phase.isMarking with
      | true => simpa [System.tries?, System.step, hc, hm] using h.mark hc reply hm
      | false => simpa [System.tries?, System.step, hc, hm] using h.advance hc reply hm

/-- Every run keeps the invariant. -/
theorem Inv.run (schedule : List Action) :
    ∀ {tried : String → List Nat} {σ : System}, Inv initial tried σ →
      Inv initial (fun id => tried id ++ σ.tries id schedule) (σ.run schedule) := by
  induction schedule with
  | nil =>
    intro tried σ h
    simpa [System.tries, System.run] using h
  | cons a rest ih =>
    intro tried σ h
    have h := ih (h.step a)
    simpa [System.tries, System.run_cons] using h

/-- There is nothing to keep when no call has come. -/
theorem Inv.start (initial : Markers) (clients : Nat → ClientPool) :
    Inv initial (fun _ => []) ⟨initial, clients, []⟩ where
  wellFormed c hc := by cases hc
  marked id := by simp
  mem_tried id i := by simp
  chosen id i c hc := by cases hc

end Step

/-! ## Completions -/

/-- A call for a completion never tries a marker. -/
theorem Inv.isMarking_completed {initial : Markers} {tried : String → List Nat} {σ : System}
    (h : Inv initial tried σ) {i : Nat} {c : Call} (hc : σ.calls[i]? = some c) (hk : c.event.kind = .completed) :
    c.phase.isMarking = false := by
  cases hm : c.phase.isMarking with
  | false => rfl
  | true =>
    have hk' := ((h.wellFormed c (List.mem_of_getElem? hc)).marking hm).1
    rw [hk] at hk'
    cases hk'

/-- A call that goes one step further, but not to set a marker, looks at none. -/
theorem advance_markedAs (σ : System) (i : Nat) {c : Call} (reply : Reply) (markers : Markers)
    (hm : c.phase.isMarking = false) :
    (σ.markedAs markers).advance i (c.markedAs markers) reply = (σ.advance i c reply).markedAs markers := by
  have hnext : (c.phase.markedAs markers).next c.notifier c.event ((σ.worldOf c.worker reply).markedAs markers) = _ :=
    Phase.next_markedAs markers hm
  have hcall : (c.markedAs markers).next ((σ.worldOf c.worker reply).markedAs markers) =
      (c.next (σ.worldOf c.worker reply)).markedAs markers := by
    simp only [Call.next, Call.markedAs, hnext]
  show System.mk
    ((c.phase.markedAs markers).next c.notifier c.event ((σ.worldOf c.worker reply).markedAs markers)).2.markers
    (Function.update σ.clients c.worker
      ((c.phase.markedAs markers).next c.notifier c.event ((σ.worldOf c.worker reply).markedAs markers)).2.clients)
    ((σ.calls.map (Call.markedAs markers)).set i
      ((c.markedAs markers).next ((σ.worldOf c.worker reply).markedAs markers))) = _
  rw [hnext, hcall, ← List.map_set]
  rfl

/-- A step that does not set a marker looks at none. -/
theorem step_markedAs {σ : System} {i : Nat} {c : Call} (hc : σ.calls[i]? = some c)
    (hm : c.phase.isMarking = false) (reply : Reply) (markers : Markers) :
    (σ.markedAs markers).step (.advance i reply) = (σ.step (.advance i reply)).markedAs markers := by
  have hc' : (σ.markedAs markers).calls[i]? = some (c.markedAs markers) := by
    show (σ.calls.map (Call.markedAs markers))[i]? = _
    rw [List.getElem?_map, hc]
    rfl
  simp only [step, hc, hc']
  exact σ.advance_markedAs i reply markers hm

end System

/-! ## Once at most -/

/-- **A build's checkout is reported once at most, whoever handles it.** Take any calls of any workers, with any
sources, and any order of their steps.

- Two calls for the checkout of one build never both report it, not even at different times.
- A call that reports a checkout was the first to try its marker, and the build was not marked to begin with; and if it
  was not, the first call to try is chosen to report it.
- A build is marked just if it was to begin with, or if a call for its checkout, with a source and a revision, has tried
  its marker; and it stays marked, whatever becomes of the report.
- Calls for completions neither change markers nor look at them. -/
theorem reported_once (initial : Markers) (clients : Nat → ClientPool) (schedule later : List Action) :
    let start : System := ⟨initial, clients, []⟩
    let σ := start.run schedule
    let σ' := σ.run later
    (∀ id (i j : Nat) (c d : Call), σ.calls[i]? = some c → σ'.calls[j]? = some d →
      c.IsCheckoutOf id → d.IsCheckoutOf id → c.phase.isEntered = true → d.phase.isEntered = true → i = j) ∧
    (∀ id (i : Nat) (c : Call), σ.calls[i]? = some c → c.IsCheckoutOf id → c.phase.isEntered = true →
      initial.has id = false ∧ (start.tries id schedule).head? = some i) ∧
    (∀ id i, initial.has id = false → (start.tries id schedule).head? = some i →
      ∃ c, σ.calls[i]? = some c ∧ c.IsCheckoutOf id ∧ c.phase.isChosen = true) ∧
    (∀ id, σ.markers.has id = true ↔ initial.has id = true ∨
      ∃ c ∈ σ.calls, c.IsCheckoutOf id ∧ Phase.Found c.notifier c.event ∧ c.phase.isPast = true) ∧
    (∀ id, σ.markers.has id = true → σ'.markers.has id = true) ∧
    (∀ (i : Nat) (c : Call) reply, σ.calls[i]? = some c → c.event.kind = .completed →
      (σ.step (.advance i reply)).markers = σ.markers ∧
        ∀ m, (σ.markedAs m).step (.advance i reply) = (σ.step (.advance i reply)).markedAs m) := by
  intro start σ σ'
  have h : System.Inv initial (fun id => start.tries id schedule) σ := by
    simpa using (System.Inv.start initial clients).run schedule
  have h' : System.Inv initial (fun id => start.tries id schedule ++ σ.tries id later) σ' := h.run later
  refine ⟨?_, ?_, ?_, ?_, ?_, ?_⟩
  · intro id i j c d hc hd hic hid hec hed
    obtain ⟨-, hi⟩ := (h.chosen id i c hc hic).1 (Phase.isChosen_of_isEntered hec)
    obtain ⟨-, hj⟩ := (h'.chosen id j d hd hid).1 (Phase.isChosen_of_isEntered hed)
    -- the first to try stays the first
    rw [List.head?_append, hi] at hj
    exact Option.some.inj hj
  · intro id i c hc hid he
    exact (h.chosen id i c hc hid).1 (Phase.isChosen_of_isEntered he)
  · intro id i hinitial hi
    obtain ⟨c, hc, hid, -⟩ := (h.mem_tried id i).1 (List.mem_of_head? hi)
    exact ⟨c, hc, hid, (h.chosen id i c hc hid).2 ⟨hinitial, hi⟩⟩
  · intro id
    rw [h.marked]
    refine or_congr_right ?_
    constructor
    · intro htried
      obtain ⟨i, hi⟩ := List.exists_mem_of_ne_nil _ htried
      obtain ⟨c, hc, hid, hpast⟩ := (h.mem_tried id i).1 hi
      have hmem := List.mem_of_getElem? hc
      exact ⟨c, hmem, hid, (h.wellFormed c hmem).past hpast hid.1, hpast⟩
    · rintro ⟨c, hmem, hid, -, hpast⟩
      obtain ⟨i, hc⟩ := List.mem_iff_getElem?.1 hmem
      exact List.ne_nil_of_mem ((h.mem_tried id i).2 ⟨c, hc, hid, hpast⟩)
  · intro id hm
    rw [h'.marked]
    rcases (h.marked id).1 hm with hm | hm
    · exact .inl hm
    · exact .inr fun hnil => hm (List.append_eq_nil_iff.1 hnil).1
  · intro i c reply hc hk
    have hm := h.isMarking_completed hc hk
    constructor
    · simp only [System.step, hc]
      exact Phase.next_markers hm
    · intro m
      exact System.step_markedAs hc hm reply m

/-- Of two workers the one that tries the marker first reports the checkout, though its call came second. -/
example :
    let n := Notifier.usual [.ofTeam "red" none] (some "https://ci.example.com/") fun _ => none
    let event := Event.checkout (.ofTeam "red") none
    let steps := [0, 0, 1, 1, 1, 0, 1].map fun i => Action.advance i (.answer 200 "")
    let start : System := ⟨.empty, fun _ => .empty 100 false, []⟩
    (start.run (.arrive n 0 event :: .arrive n 1 event :: steps)).calls.map (·.phase.isEntered) = [false, true] := by
  decide +kernel

end CommitStatus
