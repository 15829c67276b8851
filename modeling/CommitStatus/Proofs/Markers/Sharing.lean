import CommitStatus.Markers.Store
import Mathlib.Data.List.Nodup

/-!
# Markers through many handles

A store is used through handles in any order; handles are opened and closed in between. What a use does to the moment of
a build is said in one line: the moment stays if there is one, and else is the one that the use brings along
(`markedAt?_serve`). So after any uses the moment is that of the first who marked the build (`markedAt?_after`), and
with it all answers hang on the first who did (`answer_of_first_add`). The keys in the store are those of builds, each
of them once (`Proper.add`).
-/

namespace CommitStatus.Markers

/-- The keys are those of builds, and each is there once. -/
structure Proper (m : Markers) : Prop where
  keyed : ∀ key ∈ m.keys, ∃ id, key = markerKey id
  nodup : m.keys.Nodup

theorem proper_empty : empty.Proper where
  keyed _ h := by cases h
  nodup := List.nodup_nil

/-- To mark a build keeps the keys proper. -/
theorem Proper.add {m : Markers} (h : m.Proper) (id : String) : (m.add id).2.Proper := by
  cases hm : m.has id with
  | true =>
    simpa [Markers.add, hm] using h
  | false =>
    have hnot : markerKey id ∉ m.keys := by simpa [has] using hm
    simp only [Markers.add, hm, Bool.false_eq_true, if_false]
    refine ⟨fun key hkey => ?_, ?_⟩
    · rcases List.mem_append.1 hkey with hkey | hkey
      · exact h.keyed key hkey
      · exact ⟨id, List.mem_singleton.1 hkey⟩
    · simpa [List.nodup_append] using ⟨h.nodup, fun key hkey heq => hnot (heq ▸ hkey)⟩

/-- Where the keys are those of builds, they are those of the builds that are marked. -/
theorem Proper.mem_keys_iff {m : Markers} (h : m.Proper) {key : String} :
    key ∈ m.keys ↔ ∃ id, m.has id = true ∧ key = markerKey id := by
  constructor
  · intro hkey
    obtain ⟨id, rfl⟩ := h.keyed key hkey
    exact ⟨id, by simpa [has] using hkey, rfl⟩
  · rintro ⟨id, hid, rfl⟩
    simpa [has] using hid

namespace SharedStore

/-! ## Uses -/

/-- What is asked for, and the handle through which it is. -/
structure Use where
  handle : String
  request : Request
  deriving DecidableEq, Repr

/-- The moment that a use brings along to mark a build. -/
def Use.moment? (id : String) (u : Use) : Option Moment :=
  match u.request with
  | .add other now => if other = id then some now else none
  | _ => none

/-- The moments that uses bring along to mark a build, the first one first. -/
def moments (id : String) (uses : List Use) : List Moment := uses.filterMap (Use.moment? id)

/-- The store after uses. -/
def after (s : SharedStore) (uses : List Use) : SharedStore :=
  uses.foldl (fun s u => (s.serve u.handle u.request).1) s

/-- What a use is answered. -/
def answer (s : SharedStore) (u : Use) : Answer := (s.serve u.handle u.request).2

/-! ## One use and many -/

/-- A use keeps the moment of a build, or makes it the one that it brings along. -/
theorem markedAt?_serve (s : SharedStore) (u : Use) (id : String) :
    (s.serve u.handle u.request).1.store.markedAt? id = (s.store.markedAt? id).or (u.moment? id) := by
  obtain ⟨handle, request⟩ := u
  cases request with
  | add other now =>
    simp only [serve, Store.serve, Store.markedAt?_add, Use.moment?]
    by_cases h : other = id
    · simp [h]
    · simp [h, Ne.symm h]
  | has other => simp [serve, Store.serve, Use.moment?]
  | markedAt other => simp [serve, Store.serve, Use.moment?]
  | close => simp [serve, Store.serve, Use.moment?]

/-- After uses, the moment of a build is the one that it had, or else that of the first who marked it. -/
theorem markedAt?_after (uses : List Use) (s : SharedStore) (id : String) :
    (s.after uses).store.markedAt? id = (s.store.markedAt? id).or (moments id uses).head? := by
  induction uses generalizing s with
  | nil => simp [after, moments]
  | cons u rest ih =>
    have hrest : (s.after (u :: rest)).store.markedAt? id =
        ((s.store.markedAt? id).or (u.moment? id)).or (moments id rest).head? := by
      rw [← markedAt?_serve, ← ih]
      rfl
    have hmoments : (moments id (u :: rest)).head? = (u.moment? id).or (moments id rest).head? := by
      simp only [moments, List.filterMap_cons]
      cases u.moment? id <;> rfl
    rw [hrest, hmoments, Option.or_assoc]

/-- A use keeps the keys proper. -/
theorem proper_serve {s : SharedStore} (h : s.store.markers.Proper) (u : Use) :
    (s.serve u.handle u.request).1.store.markers.Proper := by
  obtain ⟨handle, request⟩ := u
  cases request with
  | add id now => exact h.add id
  | has id => exact h
  | markedAt id => exact h
  | close => exact h

theorem proper_after (uses : List Use) {s : SharedStore} (h : s.store.markers.Proper) :
    (s.after uses).store.markers.Proper := by
  induction uses generalizing s with
  | nil => exact h
  | cons u rest ih => exact ih (proper_serve h u)

/-! ## Answers -/

/-- A build is marked just if someone has marked it. -/
theorem has_after (uses : List Use) (id : String) : (empty.after uses).store.has id = !(moments id uses).isEmpty := by
  have hmoment := markedAt?_after uses empty id
  rw [Store.has_eq_isSome, hmoment]
  cases moments id uses <;> rfl

/-- Uses for other builds bring no moments along for a build. -/
theorem moments_filter (id : String) (uses : List Use) :
    moments id (uses.filter (·.request.build? = some id)) = moments id uses := by
  rw [moments, moments, List.filterMap_filter]
  congr 1
  funext u
  obtain ⟨handle, request⟩ := u
  cases request with
  | add other now =>
    by_cases h : other = id
    · simp [Use.moment?, Request.build?, h]
    · simp [Use.moment?, h]
  | has other => simp [Use.moment?]
  | markedAt other => simp [Use.moment?]
  | close => simp [Use.moment?]

/-- **The first who marks a build wins.** Take any uses of a store in which nothing is marked at first, through any
handles, that are closed and used again at any time.

- To mark a build is answered with yes if no use before was to mark it, and with no otherwise. Whether the build is
  marked is answered with yes just if a use before was to mark it; when, with the moment that the first of these brought
  along. So all answers are the same through all handles.
- What is answered about a build is what would be answered if there had been no uses but those for the build.
- The keys in the store are those of the builds that were to be marked, each of them once. -/
theorem answer_of_first_add (earlier : List Use) :
    (∀ handle id,
      (∀ now, (empty.after earlier).answer ⟨handle, .add id now⟩ = .truth (moments id earlier).isEmpty) ∧
      (empty.after earlier).answer ⟨handle, .has id⟩ = .truth !(moments id earlier).isEmpty ∧
      (empty.after earlier).answer ⟨handle, .markedAt id⟩ = .moment (moments id earlier).head?) ∧
    (∀ (u : Use) id, u.request.build? = some id →
      (empty.after earlier).answer u = (empty.after (earlier.filter (·.request.build? = some id))).answer u) ∧
    (∀ key, key ∈ (empty.after earlier).store.markers.keys ↔ ∃ id, moments id earlier ≠ [] ∧ key = markerKey id) ∧
    (empty.after earlier).store.markers.keys.Nodup := by
  have hproper : (empty.after earlier).store.markers.Proper := proper_after earlier proper_empty
  have hmarkedAt : ∀ uses id, (empty.after uses).store.markedAt? id = (moments id uses).head? := fun uses id =>
    markedAt?_after uses empty id
  have hadd : ∀ uses id now, ((empty.after uses).store.add id now).1 = (moments id uses).isEmpty := by
    intro uses id now
    rw [Store.fst_add, has_after, Bool.not_not]
  refine ⟨fun handle id => ⟨fun now => ?_, ?_, ?_⟩, ?_, ?_, hproper.nodup⟩
  · exact congrArg Answer.truth (hadd earlier id now)
  · exact congrArg Answer.truth (has_after earlier id)
  · exact congrArg Answer.moment (hmarkedAt earlier id)
  · rintro ⟨handle, request⟩ id hid
    cases request with
    | add other now =>
      cases hid
      exact congrArg Answer.truth (by rw [hadd, hadd, moments_filter])
    | has other =>
      cases hid
      exact congrArg Answer.truth (by rw [has_after, has_after, moments_filter])
    | markedAt other =>
      cases hid
      exact congrArg Answer.moment (by rw [hmarkedAt, hmarkedAt, moments_filter])
    | close => cases hid
  · intro key
    rw [hproper.mem_keys_iff]
    refine exists_congr fun id => and_congr_left fun _ => ?_
    have hhas : (empty.after earlier).store.markers.has id = !(moments id earlier).isEmpty := has_after earlier id
    rw [hhas]
    simp

end SharedStore

end CommitStatus.Markers
