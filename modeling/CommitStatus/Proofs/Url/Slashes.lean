import CommitStatus.Url.Root
import Mathlib.Data.List.DropRight

/-!
# Slashes at the end

Slashes at the end of a URL do not count, and around a path they do not either. They are dropped (`exists_slashes`,
`trimRightBy_ne_append_slash`), so what is left is the same for texts that are the same but for these (`SameBefore`,
`SameWithin`). Where only slashes at the end are dropped, what is left is the same just if the texts are
(`sameBefore_iff`).
-/

namespace CommitStatus.Url

open Text

/-! ## What is left without them -/

/-- A text is what is left without the slashes at its end, and slashes. -/
theorem exists_slashes (s : List Char) : ∃ slashes, s = trimRightBy (· == '/') s ++ slashes ∧ ∀ c ∈ slashes, c = '/' :=
  ⟨s.rtakeWhile (· == '/'), List.rdropWhile_append_rtakeWhile.symm, fun c hc => by
    simpa using List.mem_rtakeWhile_imp hc⟩

/-- What is left has no slash at its end. -/
theorem trimRightBy_ne_append_slash (s u : List Char) : trimRightBy (· == '/') s ≠ u ++ ['/'] := by
  intro h
  have hne : s.rdropWhile (· == '/') ≠ [] := by
    rw [show s.rdropWhile (· == '/') = u ++ ['/'] from h]
    simp
  have hlast := List.rdropWhile_last_not (· == '/') s hne
  simp [show s.rdropWhile (· == '/') = u ++ ['/'] from h] at hlast

/-- What is left of a text that holds more than slashes begins with something else. -/
theorem trimBy_eq_cons {s : List Char} {c : Char} (hc : c ∈ s) (hne : c ≠ '/') :
    ∃ d rest, trimBy (· == '/') s = d :: rest ∧ d ≠ '/' ∧ d ∈ s := by
  have hkept : s.dropWhile (· == '/') ≠ [] := by
    intro hnil
    have := List.dropWhile_eq_nil_iff.1 hnil c hc
    exact hne (by simpa using this)
  obtain ⟨d, kept, hd⟩ := List.exists_cons_of_ne_nil hkept
  have hd_ne : ¬(d == '/') = true := by
    have := List.head_dropWhile_not (· == '/') hkept
    simpa [hd] using this
  have hmem : d ∈ s := (List.dropWhile_suffix _).subset (hd ▸ List.mem_cons_self)
  obtain ⟨behind, hbehind⟩ := List.rdropWhile_prefix (· == '/') (d :: kept)
  cases hleft : (d :: kept).rdropWhile (· == '/') with
  | nil =>
    have := List.rdropWhile_eq_nil_iff.1 hleft d List.mem_cons_self
    exact absurd this hd_ne
  | cons e left =>
    rw [hleft, List.cons_append, List.cons.injEq] at hbehind
    obtain ⟨rfl, -⟩ := hbehind
    refine ⟨e, left, ?_, by simpa using hd_ne, hmem⟩
    rw [trimBy, hd]
    exact hleft

/-! ## Texts that are the same but for slashes -/

/-- So many slashes. -/
def slashes (n : Nat) : List Char := List.replicate n '/'

/-- Two texts are the same but for slashes at the end. -/
def SameBefore (s t : String) : Prop := ∃ core i j, s.toList = core ++ slashes i ∧ t.toList = core ++ slashes j

/-- Two texts are the same but for slashes in front and at the end. -/
def SameWithin (s t : String) : Prop :=
  ∃ core i j k l, s.toList = slashes i ++ core ++ slashes j ∧ t.toList = slashes k ++ core ++ slashes l

theorem trimRightBy_append_slashes (s : List Char) (n : Nat) :
    trimRightBy (· == '/') (s ++ slashes n) = trimRightBy (· == '/') s := by
  simp [trimRightBy, slashes]

theorem trimBy_slashes_append (n : Nat) (s : List Char) :
    trimBy (· == '/') (slashes n ++ s) = trimBy (· == '/') s := by
  simp [trimBy, slashes]

theorem trimBy_append_slashes (s : List Char) (n : Nat) :
    trimBy (· == '/') (s ++ slashes n) = trimBy (· == '/') s := by
  by_cases hs : s.dropWhile (· == '/') = []
  · -- a text of slashes only has no end of its own
    simp [trimBy, slashes, List.dropWhile_append, hs]
  · rw [trimBy, List.dropWhile_append, if_neg (by simpa using hs), trimRightBy_append_slashes]
    rfl

section Same

variable {s t : String}

theorem SameBefore.trimRightBy_eq (h : SameBefore s t) :
    trimRightBy (· == '/') s.toList = trimRightBy (· == '/') t.toList := by
  obtain ⟨core, i, j, hs, ht⟩ := h
  rw [hs, ht, trimRightBy_append_slashes, trimRightBy_append_slashes]

theorem SameWithin.trimBy_eq (h : SameWithin s t) : trimBy (· == '/') s.toList = trimBy (· == '/') t.toList := by
  obtain ⟨core, i, j, k, l, hs, ht⟩ := h
  rw [hs, ht, trimBy_append_slashes, trimBy_append_slashes, trimBy_slashes_append, trimBy_slashes_append]

/-- Texts are the same but for slashes at the end if what is left of them is the same. -/
theorem sameBefore_iff : SameBefore s t ↔ withoutSlashes s = withoutSlashes t := by
  refine ⟨fun h => congrArg String.ofList h.trimRightBy_eq, fun h => ?_⟩
  have hleft : trimRightBy (· == '/') s.toList = trimRightBy (· == '/') t.toList := String.ofList_injective h
  obtain ⟨ends, hs, hends⟩ := exists_slashes s.toList
  obtain ⟨ends', ht, hends'⟩ := exists_slashes t.toList
  refine ⟨trimRightBy (· == '/') s.toList, ends.length, ends'.length, ?_, ?_⟩
  · rw [slashes, ← List.eq_replicate_length.2 hends]
    exact hs
  · rw [slashes, ← List.eq_replicate_length.2 hends', hleft]
    exact ht

/-- Slashes at the end are not all of a text that holds more than slashes. -/
theorem SameBefore.ne_empty (h : SameBefore s t) {c : Char} (hc : c ∈ s.toList) (hne : c ≠ '/') : t ≠ "" := by
  obtain ⟨core, i, j, hs, ht⟩ := h
  have hcore : c ∈ core := by
    rw [hs, List.mem_append] at hc
    exact hc.resolve_right fun hslash => hne (List.eq_of_mem_replicate hslash)
  rintro rfl
  obtain ⟨hnil, -⟩ : core = [] ∧ slashes j = [] := by simpa using ht.symm
  rw [hnil] at hcore
  cases hcore

end Same

end CommitStatus.Url
