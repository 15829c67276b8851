import CommitStatus.Datum.Moment
import CommitStatus.Markers

/-!
# The store of markers

A directory keeps markers, each with the moment at which it was set. Builds are marked and looked up through handles on
the directory, of which there may be any number. A handle keeps nothing of its own but whether it is open: its first use
opens it, and so does the first use after it was closed.

* `Store.add` marks a build, `Store.markedAt?` tells when that was (`markedAt?_add`);
* `Store.serve` does what is asked of a store, `SharedStore.serve` does it through a handle.
-/

namespace CommitStatus.Markers

/-- Markers, and the moment at which each of them was set. -/
structure Store where
  markers : Markers
  moments : List Moment
  dated : moments.length = markers.keys.length
  deriving DecidableEq, Repr

/-- What a store is asked for. Who marks a build brings the moment along. -/
inductive Request
  | add (id : String) (now : Moment)
  | has (id : String)
  | markedAt (id : String)
  | close
  deriving DecidableEq, Repr

/-- What comes of a request. -/
inductive Answer
  | truth (b : Bool)
  | moment (m : Option Moment)
  | done
  deriving DecidableEq, Repr

/-- The build that a request is about. -/
def Request.build? : Request → Option String
  | .add id _ => some id
  | .has id => some id
  | .markedAt id => some id
  | .close => none

namespace Store

/-- Nothing is marked. -/
def empty : Store := ⟨.empty, [], rfl⟩

/-- Whether a build is marked. -/
def has (s : Store) (id : String) : Bool := s.markers.has id

/-- Mark a build at a moment: whether it was not marked before, and the store afterwards. -/
def add (s : Store) (id : String) (now : Moment) : Bool × Store :=
  ((s.markers.add id).1, {
    markers := (s.markers.add id).2
    moments := s.moments ++ if (s.markers.add id).1 then [now] else []
    dated := by
      rw [List.length_append, length_keys_add, s.dated]
      cases (s.markers.add id).1 <;> rfl })

/-- When a build was marked. -/
def markedAt? (s : Store) (id : String) : Option Moment := (s.markers.markedAt? id).bind (s.moments[·]?)

/-- Do what is asked: the store afterwards, and the answer. Closing a handle changes nothing in the store. -/
def serve (s : Store) : Request → Store × Answer
  | .add id now => ((s.add id now).2, .truth (s.add id now).1)
  | .has id => (s, .truth (s.has id))
  | .markedAt id => (s, .moment (s.markedAt? id))
  | .close => (s, .done)

theorem fst_add (s : Store) (id : String) (now : Moment) : (s.add id now).1 = !s.has id := by
  simp only [add, has, Markers.add]
  split <;> simp_all

theorem exists_moment (s : Store) {id : String} {place : Nat} (h : s.markers.markedAt? id = some place) :
    ∃ hlt : place < s.moments.length, s.markedAt? id = some s.moments[place] := by
  have hlt : place < s.moments.length := s.dated ▸ markedAt?_lt h
  exact ⟨hlt, by rw [markedAt?, h, Option.bind_some, List.getElem?_eq_getElem hlt]⟩

/-- There is a moment for a build just if it is marked. -/
theorem has_eq_isSome (s : Store) (id : String) : s.has id = (s.markedAt? id).isSome := by
  rw [has, ← Markers.isSome_markedAt?]
  cases h : s.markers.markedAt? id with
  | none => simp [markedAt?, h]
  | some place =>
    obtain ⟨hlt, hmoment⟩ := s.exists_moment h
    simp [hmoment]

/-- The moment of a build is that of the first time that it was marked; other builds keep theirs. -/
theorem markedAt?_add (s : Store) (id : String) (now : Moment) (other : String) :
    (s.add id now).2.markedAt? other =
      if other = id then (s.markedAt? id).or (some now) else s.markedAt? other := by
  cases hm : s.markers.has id with
  | true =>
    have hsame : (s.add id now).2.markedAt? other = s.markedAt? other := by
      simp [add, markedAt?, Markers.add, hm]
    have hsome : (s.markedAt? id).isSome := by rw [← has_eq_isSome, has, hm]
    rw [hsame]
    split
    · rename_i heq
      rw [heq, Option.or_of_isSome hsome]
    · rfl
  | false =>
    have hadded : (s.add id now).2.markedAt? other =
        ((s.markers.add id).2.markedAt? other).bind ((s.moments ++ [now])[·]?) := by
      simp [add, markedAt?, Markers.add, hm]
    rw [hadded]
    split
    · rename_i heq
      have hnone : s.markedAt? id = none := by
        rw [← Option.isNone_iff_eq_none, ← Option.not_isSome, ← has_eq_isSome, has, hm]
        rfl
      rw [heq, markedAt?_add_self hm, hnone]
      simp [← s.dated]
    · rename_i hne
      rw [markedAt?_add_of_ne hne, markedAt?]
      cases hp : s.markers.markedAt? other with
      | none => rfl
      | some place =>
        obtain ⟨hlt, hmoment⟩ := s.exists_moment hp
        simp [List.getElem?_append_left hlt]

end Store

/-- A store, and the names of the handles on it that are open. -/
structure SharedStore where
  store : Store
  opened : List String
  deriving DecidableEq, Repr

namespace SharedStore

/-- Nothing is marked, and no handle is open. -/
def empty : SharedStore := ⟨.empty, []⟩

/-- The handles that are open after one was used for a request. -/
def openedAfter (opened : List String) (handle : String) (r : Request) : List String :=
  if r = .close then opened.filter (· ≠ handle)
  else if handle ∈ opened then opened
  else opened ++ [handle]

/-- Do what is asked through a handle: the store afterwards, and the answer. -/
def serve (s : SharedStore) (handle : String) (r : Request) : SharedStore × Answer :=
  (⟨(s.store.serve r).1, openedAfter s.opened handle r⟩, (s.store.serve r).2)

end SharedStore

end CommitStatus.Markers
