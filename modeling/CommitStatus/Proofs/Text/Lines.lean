import CommitStatus.Text.Lines

/-!
# How many lines a text has

A text is made of lines and what ends them (`HasLines`): a carriage return with a line feed behind it is one end, and
what stands behind the last end is a line only if it is not empty. Counting while reading comes to the number of these
lines (`hasLines_iff`): a line is passed over without being counted (`lineCountFrom_append`), and its end counts one
(`lineCountFrom_end`).
-/

namespace CommitStatus.Text

/-- The characters that end a line. -/
def lineBreaks : List Char :=
  ['\n', '\r', '\x0b', '\x0c', '\x1c', '\x1d', '\x1e', '\u0085', '\u2028', '\u2029']

/-- What ends a line: one of these characters, or a carriage return and a line feed together. -/
inductive IsLineEnd : List Char → Prop
  | one {c : Char} (h : c ∈ lineBreaks) : IsLineEnd [c]
  | pair : IsLineEnd ['\r', '\n']

/-- A text has a number of lines. Each line but the last has its end, and a carriage return alone is one only where no
line feed follows. -/
inductive HasLines : List Char → Nat → Prop
  | none : HasLines [] 0
  | last {line : List Char} (hne : line ≠ []) (hline : ∀ c ∈ line, c ∉ lineBreaks) : HasLines line 1
  | ended {line ending rest : List Char} {n : Nat} (hline : ∀ c ∈ line, c ∉ lineBreaks) (hending : IsLineEnd ending)
      (hpair : ending = ['\r'] → rest.head? ≠ some '\n') (hrest : HasLines rest n) :
      HasLines (line ++ ending ++ rest) (n + 1)

/-- The characters that end a line are found by their code points. -/
theorem isLineBreak_iff {c : Char} : isLineBreak c = true ↔ c ∈ lineBreaks := by
  constructor
  · intro h
    have hpoint : c.toNat ∈ lineBreaks.map Char.toNat := by
      simp only [isLineBreak, Bool.or_eq_true, Bool.and_eq_true, decide_eq_true_eq, beq_iff_eq] at h
      have hpoints : lineBreaks.map Char.toNat = [10, 13, 11, 12, 28, 29, 30, 0x85, 0x2028, 0x2029] := by decide
      rw [hpoints]
      simp only [List.mem_cons, List.not_mem_nil, or_false]
      omega
    obtain ⟨d, hd, hdc⟩ := List.mem_map.1 hpoint
    rwa [← Char.toNat_inj.1 hdc]
  · intro h
    simp only [lineBreaks, List.mem_cons, List.not_mem_nil, or_false] at h
    rcases h with rfl | rfl | rfl | rfl | rfl | rfl | rfl | rfl | rfl | rfl <;> decide

variable {line ending rest : List Char}

/-- A line is open once a character of it was read. -/
theorem lineCountFrom_append (hline : ∀ c ∈ line, c ∉ lineBreaks) (isOpen : Bool) (rest : List Char) :
    lineCountFrom isOpen (line ++ rest) = lineCountFrom (isOpen || !line.isEmpty) rest := by
  induction line generalizing isOpen with
  | nil => simp
  | cons c line ih =>
    have hc : c ∉ lineBreaks := hline c List.mem_cons_self
    have hbreak : isLineBreak c = false := by
      rw [← Bool.not_eq_true, isLineBreak_iff]
      exact hc
    have hreturn : ∀ more, c = '\r' → line ++ rest = '\n' :: more → False := by
      rintro _ rfl -
      exact hc (by decide)
    rw [List.cons_append, lineCountFrom.eq_3 _ _ _ hreturn, hbreak, if_neg Bool.false_ne_true,
      ih (fun d hd => hline d (List.mem_cons_of_mem _ hd))]
    simp

/-- The end of a line counts the line. -/
theorem lineCountFrom_end (hending : IsLineEnd ending) (hpair : ending = ['\r'] → rest.head? ≠ some '\n')
    (isOpen : Bool) : lineCountFrom isOpen (ending ++ rest) = lineCountFrom false rest + 1 := by
  cases hending with
  | one hc =>
    rename_i c
    have hreturn : ∀ more, c = '\r' → [] ++ rest = '\n' :: more → False := by
      rintro more rfl hrest
      apply hpair rfl
      rw [List.nil_append] at hrest
      rw [hrest, List.head?_cons]
    rw [List.cons_append, lineCountFrom.eq_3 _ _ _ hreturn, if_pos (isLineBreak_iff.2 hc), List.nil_append,
      Nat.add_comm]
  | pair =>
    rw [List.cons_append, List.cons_append, List.nil_append, lineCountFrom.eq_2, Nat.add_comm]

/-- The lines that a text is made of are counted. -/
theorem HasLines.lineCountFrom_eq {s : List Char} {n : Nat} (h : HasLines s n) : lineCountFrom false s = n := by
  induction h with
  | none => rfl
  | @last line hne hline =>
    have hcount := lineCountFrom_append hline false []
    have hempty : line.isEmpty = false := by simpa using hne
    rw [List.append_nil, hempty] at hcount
    exact hcount
  | ended hline hending hpair _ ih =>
    rw [List.append_assoc, lineCountFrom_append hline, lineCountFrom_end hending hpair, ih]

/-- A text holds no end of a line, or it has a first one. -/
theorem exists_lineEnd (s : List Char) : (∀ c ∈ s, c ∉ lineBreaks) ∨
    ∃ line ending rest, s = line ++ ending ++ rest ∧ (∀ c ∈ line, c ∉ lineBreaks) ∧ IsLineEnd ending ∧
      (ending = ['\r'] → rest.head? ≠ some '\n') := by
  induction s with
  | nil => exact .inl fun c hc => by cases hc
  | cons c s ih =>
    by_cases hc : c ∈ lineBreaks
    · right
      by_cases hpair : c = '\r' ∧ s.head? = some '\n'
      · obtain ⟨rfl, hs⟩ := hpair
        obtain ⟨rest, rfl⟩ := List.head?_eq_some_iff.1 hs
        exact ⟨[], ['\r', '\n'], rest, rfl, by simp, .pair, by simp⟩
      · refine ⟨[], [c], s, rfl, by simp, .one hc, ?_⟩
        intro hreturn hfeed
        exact hpair ⟨by simpa using hreturn, hfeed⟩
    · rcases ih with hnone | ⟨line, ending, rest, rfl, hline, hending, hpair⟩
      · left
        intro d hd
        rcases List.mem_cons.1 hd with rfl | hd
        · exact hc
        · exact hnone d hd
      · refine .inr ⟨c :: line, ending, rest, rfl, ?_, hending, hpair⟩
        intro d hd
        rcases List.mem_cons.1 hd with rfl | hd
        · exact hc
        · exact hline d hd

theorem IsLineEnd.ne_nil (h : IsLineEnd ending) : ending ≠ [] := by
  cases h <;> simp

/-- Each text is made of lines. -/
theorem exists_hasLines (s : List Char) : ∃ n, HasLines s n := by
  rcases exists_lineEnd s with hnone | ⟨line, ending, rest, rfl, hline, hending, hpair⟩
  · by_cases hs : s = []
    · exact ⟨0, hs ▸ .none⟩
    · exact ⟨1, .last hs hnone⟩
  · have hshorter : rest.length < (line ++ ending ++ rest).length := by
      have := List.length_pos_iff.2 hending.ne_nil
      simp only [List.length_append]
      omega
    obtain ⟨n, hrest⟩ := exists_hasLines rest
    exact ⟨n + 1, .ended hline hending hpair hrest⟩
  termination_by s.length

/-- **Counting while reading comes to the number of lines.** -/
theorem hasLines_iff {s : String} {n : Nat} : HasLines s.toList n ↔ lineCount s = n := by
  constructor
  · exact HasLines.lineCountFrom_eq
  · rintro rfl
    obtain ⟨n, h⟩ := exists_hasLines s.toList
    rw [lineCount, h.lineCountFrom_eq]
    exact h

/-- A carriage return with a line feed ends one line, and what ends the text opens none. -/
example : HasLines "one\r\ntwo\u2028".toList 2 := hasLines_iff.2 (by decide)

end CommitStatus.Text
