/-!
# Markers

A marker tells that the checkout of a build was reported. The first to set it learns so, and it is never taken back.
Markers are kept in a directory, so all who open the directory share them.

* `Markers.add` sets a marker, and no other: `has_add_iff`;
* `Markers.markedAt?` is its place: `markedAt?_add_self`, `markedAt?_add_of_ne`.
-/

namespace CommitStatus

/-- The key under which a build's marker is kept. -/
def markerKey (id : String) : String := "checkout_notified_" ++ id

/-- Builds are told apart by their marks. -/
theorem markerKey_inj {a b : String} : markerKey a = markerKey b ↔ a = b := String.append_right_inj _

/-- The keys that are set, in the order in which they were set. -/
structure Markers where
  keys : List String
  deriving DecidableEq, Repr

namespace Markers

/-- No markers. -/
def empty : Markers := ⟨[]⟩

/-- Whether a build is marked. -/
def has (m : Markers) (id : String) : Bool := m.keys.contains (markerKey id)

/-- Mark a build: whether it was not marked before, and the markers afterwards. -/
def add (m : Markers) (id : String) : Bool × Markers :=
  if m.has id then (false, m) else (true, ⟨m.keys ++ [markerKey id]⟩)

/-- When a build was marked, as its place among all that were. -/
def markedAt? (m : Markers) (id : String) : Option Nat := m.keys.idxOf? (markerKey id)

/-- What the program says when a build was marked. -/
def markedMessage (id : String) : String := "Marked " ++ id ++ " as checkout notified"

/-- After a build was marked, it is marked, and else the same builds as before. -/
theorem has_add_iff (m : Markers) (id other : String) :
    (m.add id).2.has other = true ↔ m.has other = true ∨ other = id := by
  unfold add
  split
  · rename_i h
    constructor
    · exact Or.inl
    · rintro (ho | rfl)
      · exact ho
      · exact h
  · simp only [has, List.contains_eq_mem, List.mem_append, List.mem_singleton, decide_eq_true_eq, markerKey_inj]

/-- A marker takes one place, and takes none when it is there already. -/
theorem length_keys_add (m : Markers) (id : String) :
    (m.add id).2.keys.length = m.keys.length + (m.add id).1.toNat := by
  unfold add
  split <;> simp

/-- A build has a place just if it is marked. -/
theorem isSome_markedAt? (m : Markers) (id : String) : (m.markedAt? id).isSome = m.has id := by
  rw [Bool.eq_iff_iff, Option.isSome_iff_ne_none]
  simp [markedAt?, has, List.idxOf?_eq_none_iff]

theorem markedAt?_lt {m : Markers} {id : String} {place : Nat} (h : m.markedAt? id = some place) :
    place < m.keys.length := by
  obtain ⟨hlt, -⟩ := List.findIdx?_eq_some_iff_getElem.1 h
  exact hlt

/-- A build that is marked now takes the place behind all others. -/
theorem markedAt?_add_self {m : Markers} {id : String} (h : m.has id = false) :
    (m.add id).2.markedAt? id = some m.keys.length := by
  have hnone : m.keys.idxOf? (markerKey id) = none := by
    rw [List.idxOf?_eq_none_iff]
    simpa [has] using h
  simp only [add, h, Bool.false_eq_true, if_false, markedAt?]
  simp only [List.idxOf?] at hnone ⊢
  rw [List.findIdx?_append, hnone]
  simp

theorem markedAt?_add_of_ne {m : Markers} {id other : String} (h : other ≠ id) :
    (m.add id).2.markedAt? other = m.markedAt? other := by
  have hkey : (markerKey id == markerKey other) = false := by
    rw [beq_eq_false_iff_ne, Ne, markerKey_inj]
    exact h.symm
  unfold add
  split
  · rfl
  · simp [markedAt?, List.idxOf?, List.findIdx?_append, List.findIdx?_cons, hkey]

/-- Why the markers cannot be had. -/
inductive StoreError
  /-- No directory is given. -/
  | notConfigured
  /-- The name of the directory is empty. -/
  | noDirectory
  deriving DecidableEq, Repr

/-- The name of an error. -/
def StoreError.name : StoreError → String
  | .notConfigured => "MarkerStoreNotConfigured"
  | .noDirectory => "FileNotFoundError"

/-- The wording of an error. -/
def StoreError.message : StoreError → String
  | .notConfigured => "DISKCACHE_DIR is not set, checkout markers cannot be persisted"
  | .noDirectory => "[Errno 2] Cache directory \"\" does not exist and could not be created"

/-- The directory of the markers: the one that is asked for, unless that is empty, or the configured one. -/
def directory (asked configured : Option String) : Except StoreError String :=
  match asked.filter (!·.isEmpty), configured with
  | some d, _ => .ok d
  | none, none => .error .notConfigured
  | none, some d => if d.isEmpty then .error .noDirectory else .ok d

end Markers

end CommitStatus
