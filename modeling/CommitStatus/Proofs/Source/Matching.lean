import CommitStatus.Proofs.Source.Language
import CommitStatus.Source.Basic

/-!
# Which source is found for a job

A pattern is matched by keeping all rests of a name that its pieces so far may leave. What is left after some pieces is
what the further pieces may describe (`Glob.exists_leave` for one piece, `Glob.exists_foldl_leave` for all), so a
pattern is matched with the names of its language (`Glob.isMatch_iff`). The source of a job is the first one with a
pattern whose language has the job's full name (`findSource?_eq_first`).
-/

namespace CommitStatus.Glob

/-! ## Matching -/

theorem mem_rests {s t : List Char} : t ∈ rests s ↔ t <:+ s := by
  induction s with
  | nil => simp [rests]
  | cons c s ih => rw [rests, List.mem_cons, ih, List.suffix_cons_iff]

/-- Rests of a name of which each is a rest of those before it. -/
def Nested (open_ : List (List Char)) : Prop := open_.Pairwise fun s t => t <:+ s

theorem nested_rests : ∀ s : List Char, Nested (rests s)
  | [] => List.pairwise_singleton _ _
  | c :: s => List.pairwise_cons.2 ⟨fun _ ht => (mem_rests.1 ht).trans (List.suffix_cons c s), nested_rests s⟩

/-- What a piece for one character leaves of a text. -/
def Piece.behind? (p : Piece) : List Char → Option (List Char)
  | [] => none
  | c :: rest => if p.admits c then some rest else none

theorem behind?_eq_some_iff {p : Piece} {s t : List Char} :
    p.behind? s = some t ↔ ∃ c, s = c :: t ∧ p.admits c = true := by
  cases s with
  | nil => simp [Piece.behind?]
  | cons c s => simp [Piece.behind?, and_comm, and_assoc]

theorem leave_one {p : Piece} (hp : p ≠ .star) (open_ : List (List Char)) :
    leave open_ p = open_.filterMap p.behind? := by
  cases p with
  | star => exact absurd rfl hp
  | any | exactly | oneOf => rfl

/-- A piece leaves nested rests. -/
theorem Nested.leave {open_ : List (List Char)} (h : Nested open_) (p : Piece) : Nested (leave open_ p) := by
  by_cases hp : p = .star
  · subst hp
    cases open_ with
    | nil => exact .nil
    | cons s _ => exact nested_rests s
  · rw [leave_one hp]
    refine List.Pairwise.filterMap p.behind? (fun s s' hs t ht t' ht' => ?_) h
    obtain ⟨c, rfl, -⟩ := behind?_eq_some_iff.1 ht
    obtain ⟨d, rfl, -⟩ := behind?_eq_some_iff.1 ht'
    rcases List.suffix_cons_iff.1 hs with heq | hs
    · cases heq
      exact List.suffix_refl t
    · exact (List.suffix_cons d t').trans hs

/-- What a piece leaves is what further pieces may describe. -/
theorem exists_leave {open_ : List (List Char)} (h : Nested open_) (p : Piece) (pieces : List Piece) :
    (∃ t ∈ leave open_ p, Describes pieces t) ↔ ∃ s ∈ open_, Describes (p :: pieces) s := by
  by_cases hp : p = .star
  · subst hp
    simp only [describes_star]
    cases open_ with
    | nil => simp [Glob.leave]
    | cons s shorter =>
      constructor
      · rintro ⟨t, ht, hdescribes⟩
        obtain ⟨any, rfl⟩ := mem_rests.1 ht
        exact ⟨_, List.mem_cons_self, any, t, rfl, hdescribes⟩
      · rintro ⟨_, hs, any, t, rfl, hdescribes⟩
        -- the first rest is the longest, so a star leaves what it leaves of any
        have hlongest : any ++ t <:+ s := by
          rcases List.mem_cons.1 hs with heq | hs
          · exact heq ▸ List.suffix_refl _
          · exact List.rel_of_pairwise_cons h hs
        exact ⟨t, mem_rests.2 ((List.suffix_append any t).trans hlongest), hdescribes⟩
  · simp only [leave_one hp, List.mem_filterMap, behind?_eq_some_iff, describes_one hp]
    constructor
    · rintro ⟨t, ⟨s, hs, c, rfl, hc⟩, hdescribes⟩
      exact ⟨c :: t, hs, c, t, rfl, hc, hdescribes⟩
    · rintro ⟨_, hs, c, t, rfl, hc, hdescribes⟩
      exact ⟨t, ⟨c :: t, hs, c, rfl, hc⟩, hdescribes⟩

/-- What all pieces leave is empty where they describe what they began with. -/
theorem exists_foldl_leave : ∀ {open_ : List (List Char)} (pieces : List Piece), Nested open_ →
    ([] ∈ pieces.foldl leave open_ ↔ ∃ s ∈ open_, Describes pieces s)
  | open_, [], _ => by simp [Describes]
  | open_, p :: pieces, h => by rw [List.foldl_cons, exists_foldl_leave pieces (h.leave p), exists_leave h]

/-- Pieces are matched with the names that they describe. -/
theorem accepts_iff {pieces : List Piece} {name : List Char} : accepts pieces name = true ↔ Describes pieces name := by
  have h := @exists_foldl_leave [name] pieces (List.pairwise_singleton _ _)
  simpa [accepts] using h

/-- **A pattern is matched with the names of its language.** -/
theorem isMatch_iff {pattern name : String} :
    isMatch pattern name = true ↔ Language Class pattern.toList name.toList := by
  rw [isMatch, accepts_iff, ofText, describes_readPieces (Nat.le_refl _)]

example : isMatch "team/*/[!a-c]?" "team/web/app/x\n" = true := by decide +kernel

end CommitStatus.Glob

namespace CommitStatus

/-! ## Sources -/

/-- One of a source's patterns stands for a name. -/
def Source.Covers (s : Source) (name : String) : Prop :=
  ∃ pattern ∈ s.jobs, Glob.Language Glob.Class pattern.toList name.toList

theorem Source.matchesJob_iff {s : Source} {name : String} : s.matchesJob name = true ↔ s.Covers name := by
  simp only [matchesJob, List.any_eq_true, Glob.isMatch_iff, Covers]

/-- **The source of a job is the first one with a pattern that stands for the job's full name**, and there is none
exactly if no pattern of any source stands for it. -/
theorem findSource?_eq_first (sources : List Source) (job : Job) :
    (∀ s, findSource? sources job = some s ↔
      ∃ before after, sources = before ++ s :: after ∧ s.Covers job.fullName ∧
        ∀ t ∈ before, ¬t.Covers job.fullName) ∧
    (findSource? sources job = none ↔ ∀ s ∈ sources, ¬s.Covers job.fullName) := by
  refine ⟨fun s => ?_, ?_⟩
  · simp only [findSource?, List.find?_eq_some_iff_append, Bool.not_eq_true', ← Bool.not_eq_true,
      Source.matchesJob_iff]
    constructor
    · rintro ⟨hcovers, before, after, rfl, hbefore⟩
      exact ⟨before, after, rfl, hcovers, hbefore⟩
    · rintro ⟨before, after, rfl, hcovers, hbefore⟩
      exact ⟨hcovers, before, after, rfl, hbefore⟩
  · simp only [findSource?, List.find?_eq_none, Source.matchesJob_iff]

/-- A source with a bracket that hides a mark. -/
def hiddenMarkSource : Source := ⟨cloudUrl, "team", "shared", none, ["[b-a!x]"], .plain⟩

/-- A job by its full name. -/
def jobNamed (name : String) : Job := ⟨name, "job/" ++ name ++ "/", ⟨""⟩⟩

/-- Behind a range that runs backwards a mark is no member but negates the bracket. -/
theorem findSource?_hiddenMark :
    findSource? [hiddenMarkSource] (jobNamed "y") = some hiddenMarkSource ∧
      ¬Glob.Language Glob.PlainClass "[b-a!x]".toList "y".toList ∧
      findSource? [hiddenMarkSource] (jobNamed "x") = none ∧
      Glob.Language Glob.PlainClass "[b-a!x]".toList "x".toList := by
  have hpattern : "[b-a!x]".toList = '[' :: (['b', '-', 'a', '!', 'x'] ++ ']' :: []) := rfl
  have hbody : Glob.IsBody ['b', '-', 'a', '!', 'x'] := ⟨by simp, by decide⟩
  have hshed : Glob.shed ['b', '-', 'a', '!', 'x'] = ['!', 'x'] := rfl
  have hplain (c : Char) : Glob.PlainClass ['b', '-', 'a', '!', 'x'] c ↔ c = '!' ∨ c = 'x' := by
    rw [Glob.PlainClass.eq_2 _ _ (by simp), ← Glob.among_shed, hshed]
    simp [Glob.Among]
  rw [hpattern, Glob.language_bracket_iff hbody, Glob.language_bracket_iff hbody]
  refine ⟨by decide +kernel, ?_, by decide +kernel, ?_⟩
  · rintro ⟨c, _, ⟨⟩, hc, -⟩
    rw [hplain] at hc
    revert hc
    decide
  · exact ⟨'x', [], rfl, (hplain _).2 (.inr rfl), .nil⟩

end CommitStatus
