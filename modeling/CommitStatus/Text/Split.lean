/-!
# Cutting text at a character

* `before c s` and `after? c s` cut a text at the first `c`, `afterLast c s` at the last, `pieces c s` at every one.
* `before_append_after`: the parts and the character between them make up the text.
* `before_append_cons`, `after?_append_cons` and `afterLast_append_cons`: a text that is put together from parts is cut
  into these again, so the parts are told by the whole (`append_cons_inj_of_notMem`).
-/

namespace CommitStatus.Text

/-- What stands before the first `c`; all of a text without one. -/
def before (c : Char) (s : List Char) : List Char := s.takeWhile (· != c)

/-- What stands behind the first `c`, if there is one. -/
def after? (c : Char) : List Char → Option (List Char)
  | [] => none
  | d :: rest => if d = c then some rest else after? c rest

/-- What stands behind the last `c`; all of a text without one. -/
def afterLast (c : Char) (s : List Char) : List Char := (s.reverse.takeWhile (· != c)).reverse

/-- The pieces of a text between the `c`s; one more than there are `c`s. -/
def pieces (c : Char) : List Char → List (List Char)
  | [] => [[]]
  | d :: rest =>
    if d = c then [] :: pieces c rest
    else match pieces c rest with
      | [] => [[d]]
      | p :: ps => (d :: p) :: ps

theorem before_append_after {c : Char} {s t : List Char} (h : after? c s = some t) : before c s ++ c :: t = s := by
  induction s with
  | nil => simp [after?] at h
  | cons d s ih =>
    by_cases hd : d = c
    · simp_all [after?, before]
    · simp only [after?, hd, if_false] at h
      have := ih h
      simp_all [before]

theorem after?_eq_none_iff {c : Char} {s : List Char} : after? c s = none ↔ c ∉ s := by
  induction s with
  | nil => simp [after?]
  | cons d s ih =>
    by_cases hd : d = c
    · simp [after?, hd]
    · simp [after?, hd, ih, Ne.symm hd]

theorem before_of_notMem {c : Char} {s : List Char} (h : c ∉ s) : before c s = s := by
  induction s with
  | nil => rfl
  | cons d s ih =>
    rw [List.mem_cons, not_or] at h
    have hd : (d != c) = true := bne_iff_ne.2 (Ne.symm h.1)
    rw [before, List.takeWhile_cons, if_pos hd]
    exact congrArg (d :: ·) (ih h.2)

/-- What is put in front of the first `c` stands before it. -/
theorem before_append_cons {c : Char} {s : List Char} (h : c ∉ s) (t : List Char) : before c (s ++ c :: t) = s := by
  have hs : ∀ d ∈ s, (d != c) = true := fun d hd => bne_iff_ne.2 fun hdc => h (hdc ▸ hd)
  rw [before, List.takeWhile_append_of_pos hs, List.takeWhile_cons_of_neg (by simp), List.append_nil]

/-- What is put behind the first `c` stands behind it. -/
theorem after?_append_cons {c : Char} {s : List Char} (h : c ∉ s) (t : List Char) :
    after? c (s ++ c :: t) = some t := by
  induction s with
  | nil => simp [after?]
  | cons d s ih =>
    rw [List.mem_cons, not_or] at h
    rw [List.cons_append, after?, if_neg (Ne.symm h.1), ih h.2]

theorem afterLast_of_notMem {c : Char} {s : List Char} (h : c ∉ s) : afterLast c s = s := by
  have hs : s.reverse.takeWhile (· != c) = s.reverse := before_of_notMem (by simpa using h)
  rw [afterLast, hs, List.reverse_reverse]

/-- What is put behind the last `c` stands behind it. -/
theorem afterLast_append_cons {c : Char} {t : List Char} (s : List Char) (h : c ∉ t) :
    afterLast c (s ++ c :: t) = t := by
  have hrev : (s ++ c :: t).reverse = t.reverse ++ c :: s.reverse := by simp
  have ht : (t.reverse ++ c :: s.reverse).takeWhile (· != c) = t.reverse :=
    before_append_cons (by simpa using h) s.reverse
  rw [afterLast, hrev, ht, List.reverse_reverse]

/-- A text is put together from two parts in one way when the character between them is not in the latter. -/
theorem append_cons_inj_of_notMem {c : Char} {s s' t t' : List Char} (h : c ∉ t) (h' : c ∉ t') :
    s ++ c :: t = s' ++ c :: t' ↔ s = s' ∧ t = t' := by
  constructor
  · intro heq
    have hlast := congrArg (afterLast c) heq
    rw [afterLast_append_cons s h, afterLast_append_cons s' h'] at hlast
    rw [hlast] at heq
    exact ⟨List.append_cancel_right heq, hlast⟩
  · rintro ⟨rfl, rfl⟩
    rfl

end CommitStatus.Text
