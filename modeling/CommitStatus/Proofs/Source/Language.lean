import CommitStatus.Source.Glob
import Mathlib.Data.List.TakeWhile

/-!
# The language of a pattern

The names that a pattern stands for are given by recursion on its text (`Glob.Language`), whatever a closed bracket
stands for. The pieces that are read of a pattern describe its language, in which a bracket stands for its class
(`Glob.describes_readPieces`).

A mark negates a bracket if it stands in front, and also if it comes to the front without the ranges that run backwards
(`Glob.Class`). A plainer class takes a mark in front only (`Glob.PlainClass`). The two differ in the brackets that hide
a mark behind such ranges, and in no others (`Glob.forall_class_iff`), so a pattern without such brackets has the same
language with either (`Glob.language_class_iff`).
-/

namespace CommitStatus.Glob

open Text

/-! ## The language of a pattern -/

/-- What a bracket may hold behind its mark, if it is closed: a closing bracket in front is a member, any other ends
it. -/
def IsSeq (seq : List Char) : Prop := seq ≠ [] ∧ ']' ∉ seq.tail

/-- What a closed bracket may hold. -/
def IsBody : List Char → Prop
  | '!' :: seq => IsSeq seq
  | seq => IsSeq seq

/-- **The names that a pattern stands for**, if it is given what a bracket stands for by what it holds. A bracket is
unclosed if the text behind it does not go on as a closed bracket does. -/
inductive Language (In : List Char → Char → Prop) : List Char → List Char → Prop
  | nil : Language In [] []
  | star {pattern name : List Char} (any : List Char) (h : Language In pattern name) :
      Language In ('*' :: pattern) (any ++ name)
  | any {pattern name : List Char} (c : Char) (h : Language In pattern name) : Language In ('?' :: pattern) (c :: name)
  | bracket {body pattern name : List Char} {c : Char} (hbody : IsBody body) (hc : In body c)
      (h : Language In pattern name) : Language In ('[' :: (body ++ ']' :: pattern)) (c :: name)
  | unclosed {pattern name : List Char} (hopen : ∀ body rest, IsBody body → pattern ≠ body ++ ']' :: rest)
      (h : Language In pattern name) : Language In ('[' :: pattern) ('[' :: name)
  | plain {pattern name : List Char} {c : Char} (hc : c ∉ ['*', '?', '[']) (h : Language In pattern name) :
      Language In (c :: pattern) (c :: name)

/-- The characters of members and ranges, read from the left: a hyphen between two characters makes a range of them. -/
def Among : List Char → Char → Prop
  | low :: '-' :: high :: rest, c => low ≤ c ∧ c ≤ high ∨ Among rest c
  | member :: rest, c => c = member ∨ Among rest c
  | [], _ => False

/-- What a bracket would stand for if only a mark in front negated it. -/
def PlainClass : List Char → Char → Prop
  | '!' :: seq, c => ¬Among seq c
  | seq, c => Among seq c

/-- Members and ranges without the ranges in front that run backwards. -/
def shed : List Char → List Char
  | low :: '-' :: high :: rest => if low ≤ high then low :: '-' :: high :: rest else shed rest
  | seq => seq

/-- What members and ranges stand for that come to the front: a mark negates them. If the mark is the low end of a
range, the hyphen and the high end are members. -/
def Front : List Char → Char → Prop
  | '!' :: '-' :: high :: rest, c => ¬(c = '-' ∨ c = high ∨ Among rest c)
  | '!' :: rest, c => ¬Among rest c
  | seq, c => Among seq c

/-- What a closed bracket stands for: a mark in front negates it, and so does a mark that comes to the front without the
ranges that run backwards. -/
def Class : List Char → Char → Prop
  | '!' :: seq, c => ¬Among seq c
  | seq, c => Front (shed seq) c

/-! ## Brackets -/

/-- A text without a mark in front. -/
def Unmarked (s : List Char) : Prop := ∀ rest, s ≠ '!' :: rest

theorem mark_or_unmarked (s : List Char) : (∃ rest, s = '!' :: rest) ∨ Unmarked s := by
  by_cases h : ∃ rest, s = '!' :: rest
  · exact .inl h
  · exact .inr fun rest hs => h ⟨rest, hs⟩

theorem unmarked_cons {c : Char} (h : c ≠ '!') (s : List Char) : Unmarked (c :: s) :=
  fun _ hs => h (List.cons.inj hs).1

section Unmarked

variable {s : List Char} {c : Char}

theorem isBody_of_unmarked (h : Unmarked s) : IsBody s ↔ IsSeq s := by rw [IsBody.eq_2 s h]

theorem plainClass_of_unmarked (h : Unmarked s) : PlainClass s c ↔ Among s c := by rw [PlainClass.eq_2 _ _ h]

theorem class_of_unmarked (h : Unmarked s) : Class s c ↔ Front (shed s) c := by rw [Class.eq_2 _ _ h]

theorem front_of_unmarked (h : Unmarked s) : Front s c ↔ Among s c := by rw [Front.eq_3 _ _ (fun _ _ => h _) h]

theorem bracket_of_unmarked (h : Unmarked s) :
    bracket s =
      match members s with
      | .one '!' :: rest => .oneOf true rest
      | .range '!' high :: rest => .oneOf true (.one '-' :: .one high :: rest)
      | all => .oneOf false all := by
  unfold bracket
  split
  · exact absurd rfl (h _)
  · rfl

/-- A character with no range behind it is a member. -/
theorem among_cons (h : ∀ high rest, s ≠ '-' :: high :: rest) (a : Char) : Among (a :: s) c ↔ c = a ∨ Among s c := by
  rw [Among.eq_2 _ _ _ h]

theorem front_mark (h : ∀ high rest, s ≠ '-' :: high :: rest) : Front ('!' :: s) c ↔ ¬Among s c := by
  rw [Front.eq_2 _ _ h]

end Unmarked

/-- The members that are read have the characters of the text. -/
theorem any_members (seq : List Char) (c : Char) : (members seq).any (·.has c) = true ↔ Among seq c := by
  fun_induction members seq with
  | case1 a b rest hab ih =>
    rw [List.any_cons, Bool.or_eq_true, ih, Among]
    simp [Member.has]
  | case2 a b rest hab ih =>
    have hnone : ¬(a ≤ c ∧ c ≤ b) := fun h => hab (Char.le_trans h.1 h.2)
    rw [ih, Among, or_iff_right hnone]
  | case3 a rest hrange ih =>
    rw [List.any_cons, Bool.or_eq_true, ih, among_cons hrange]
    simp [Member.has]
  | case4 => simp [Among]

theorem members_shed (seq : List Char) : members (shed seq) = members seq := by
  fun_induction shed seq with
  | case1 => rfl
  | case2 low high rest h ih => rw [ih, members, if_neg h]
  | case3 => rfl

/-- Ranges that run backwards have no characters. -/
theorem among_shed {seq : List Char} {c : Char} : Among (shed seq) c ↔ Among seq c := by
  rw [← any_members, ← any_members, members_shed]

/-- A range in front of what is left runs forwards. -/
theorem le_of_shed {seq rest : List Char} {low high : Char} (h : shed seq = low :: '-' :: high :: rest) :
    low ≤ high := by
  fun_induction shed seq with
  | case1 a b rest' hab =>
    cases h
    exact hab
  | case2 a b rest' hab ih => exact ih h
  | case3 seq hrange => exact absurd h (hrange low high rest)

theorem admits_oneOf_false {seq : List Char} {c : Char} :
    (Piece.oneOf false (members seq)).admits c = true ↔ Among seq c := by
  simp [Piece.admits, ← any_members]

theorem admits_oneOf_true {seq : List Char} {c : Char} :
    (Piece.oneOf true (members seq)).admits c = true ↔ ¬Among seq c := by
  simp [Piece.admits, ← any_members]

/-- A bracket admits the characters of its class. -/
theorem admits_bracket (body : List Char) (c : Char) : (bracket body).admits c = true ↔ Class body c := by
  rcases mark_or_unmarked body with ⟨seq, rfl⟩ | hbody
  · exact admits_oneOf_true
  rw [bracket_of_unmarked hbody, class_of_unmarked hbody, ← members_shed]
  have hle := @le_of_shed body
  generalize shed body = seq at hle ⊢
  fun_cases members seq with
  | case1 a b rest hab =>
    by_cases ha : a = '!'
    · subst ha
      simp [Piece.admits, Member.has, Front, ← any_members]
    · split
      · rename_i heq
        cases heq
      · rename_i heq
        cases heq
        exact absurd rfl ha
      · rw [front_of_unmarked (unmarked_cons ha _), ← admits_oneOf_false, members, if_pos hab]
  | case2 a b rest hab => exact absurd (hle rfl) hab
  | case3 a rest hrange =>
    by_cases ha : a = '!'
    · subst ha
      rw [front_mark hrange]
      exact admits_oneOf_true
    · split
      · rename_i heq
        cases heq
        exact absurd rfl ha
      · rename_i heq
        cases heq
      · rw [front_of_unmarked (unmarked_cons ha _), ← admits_oneOf_false, members.eq_2 _ _ hrange]
  | case4 => simp [Piece.admits, Front, Among]

/-! ## Closed brackets -/

/-- A text is cut at the bracket that closes a sequence of members. -/
def closedSeq? : List Char → Option (List Char × List Char)
  | ']' :: s => (after? ']' s).map fun rest => (']' :: before ']' s, rest)
  | s => (after? ']' s).map fun rest => (before ']' s, rest)

theorem closed?_mark (s : List Char) :
    closed? ('!' :: s) = (closedSeq? s).map fun cut => ('!' :: cut.1, cut.2) := by
  fun_cases closedSeq? s <;> simp [closed?, Function.comp_def]

theorem closed?_of_unmarked {s : List Char} (h : Unmarked s) : closed? s = closedSeq? s := by
  unfold Unmarked at h
  fun_cases closedSeq? s <;> simp [closed?]

theorem before_eq_iff {c : Char} {s inner rest : List Char} :
    after? c s = some rest ∧ before c s = inner ↔ c ∉ inner ∧ s = inner ++ c :: rest := by
  constructor
  · rintro ⟨h, rfl⟩
    have hnot : c ∉ before c s := fun hc => by simpa using List.mem_takeWhile_imp hc
    exact ⟨hnot, (before_append_after h).symm⟩
  · rintro ⟨hnot, rfl⟩
    exact ⟨after?_append_cons hnot rest, before_append_cons hnot rest⟩

theorem closedSeq?_eq_some_iff {s seq rest : List Char} :
    closedSeq? s = some (seq, rest) ↔ IsSeq seq ∧ s = seq ++ ']' :: rest := by
  fun_cases closedSeq? s with
  | case1 s =>
    cases seq with
    | nil => simp [IsSeq]
    | cons c inner =>
      have hinner := @before_eq_iff ']' s inner rest
      simp [IsSeq, and_left_comm, hinner]
  | case2 s hfirst =>
    have hseq : IsSeq seq ∧ s = seq ++ ']' :: rest ↔ ']' ∉ seq ∧ s = seq ++ ']' :: rest := by
      refine and_congr_left fun hs => ?_
      cases seq with
      | nil => exact absurd hs (hfirst rest)
      | cons c inner =>
        have hc : ']' ≠ c := fun hc => hfirst (inner ++ ']' :: rest) (by rw [hs, hc, List.cons_append])
        simp [IsSeq, hc]
    rw [hseq, ← before_eq_iff]
    simp

/-- A bracket is closed exactly where the text goes on as it may go on in a bracket. -/
theorem closed?_eq_some_iff {s body rest : List Char} :
    closed? s = some (body, rest) ↔ IsBody body ∧ s = body ++ ']' :: rest := by
  rcases mark_or_unmarked s with ⟨t, rfl⟩ | hs
  · rw [closed?_mark, Option.map_eq_some_iff]
    constructor
    · rintro ⟨⟨seq, _⟩, hcut, ⟨⟩⟩
      obtain ⟨hseq, rfl⟩ := closedSeq?_eq_some_iff.1 hcut
      exact ⟨hseq, rfl⟩
    · rintro ⟨hbody, heq⟩
      cases body with
      | nil => exact absurd rfl hbody.1
      | cons c seq =>
        cases heq
        exact ⟨(seq, rest), closedSeq?_eq_some_iff.2 ⟨hbody, rfl⟩, rfl⟩
  · rw [closed?_of_unmarked hs, closedSeq?_eq_some_iff]
    refine and_congr_left fun heq => (isBody_of_unmarked fun seq hbody => hs (seq ++ ']' :: rest) ?_).symm
    rw [heq, hbody, List.cons_append]

/-! ## Pieces -/

section Language

variable {In : List Char → Char → Prop} {pattern name : List Char}

theorem language_nil_iff : Language In [] name ↔ name = [] := by
  constructor
  · rintro ⟨⟩
    rfl
  · rintro rfl
    exact .nil

theorem language_star_iff :
    Language In ('*' :: pattern) name ↔ ∃ any tail, name = any ++ tail ∧ Language In pattern tail := by
  constructor
  · intro h
    cases h with
    | star any h => exact ⟨any, _, rfl, h⟩
    | plain hc => simp at hc
  · rintro ⟨any, tail, rfl, h⟩
    exact .star any h

theorem language_any_iff :
    Language In ('?' :: pattern) name ↔ ∃ c tail, name = c :: tail ∧ Language In pattern tail := by
  constructor
  · intro h
    cases h with
    | any c h => exact ⟨c, _, rfl, h⟩
    | plain hc => simp at hc
  · rintro ⟨c, tail, rfl, h⟩
    exact .any c h

/-- Where a bracket is closed is settled by the text. -/
theorem body_unique {body body' rest rest' : List Char} (hbody : IsBody body) (hbody' : IsBody body')
    (h : body ++ ']' :: rest = body' ++ ']' :: rest') : body = body' ∧ rest = rest' := by
  have hcut : closed? (body ++ ']' :: rest) = some (body, rest) := closed?_eq_some_iff.2 ⟨hbody, rfl⟩
  rw [closed?_eq_some_iff.2 ⟨hbody', h⟩] at hcut
  simpa [eq_comm] using hcut

theorem language_bracket_iff {body : List Char} (hbody : IsBody body) :
    Language In ('[' :: (body ++ ']' :: pattern)) name ↔
      ∃ c tail, name = c :: tail ∧ In body c ∧ Language In pattern tail := by
  constructor
  · intro h
    generalize htext : body ++ ']' :: pattern = text at h
    cases h with
    | bracket hbody' hc h =>
      obtain ⟨rfl, rfl⟩ := body_unique hbody hbody' htext
      exact ⟨_, _, rfl, hc, h⟩
    | unclosed hopen => exact absurd htext.symm (hopen _ _ hbody)
    | plain hc => simp at hc
  · rintro ⟨c, tail, rfl, hc, h⟩
    exact .bracket hbody hc h

theorem language_unclosed_iff (hopen : ∀ body rest, IsBody body → pattern ≠ body ++ ']' :: rest) :
    Language In ('[' :: pattern) name ↔ ∃ tail, name = '[' :: tail ∧ Language In pattern tail := by
  constructor
  · intro h
    generalize htext : pattern = text at h
    cases h with
    | bracket hbody => exact absurd htext (hopen _ _ hbody)
    | unclosed _ h => exact ⟨_, rfl, htext ▸ h⟩
    | plain hc => simp at hc
  · rintro ⟨tail, rfl, h⟩
    exact .unclosed hopen h

theorem language_plain_iff {c : Char} (hc : c ∉ ['*', '?', '[']) :
    Language In (c :: pattern) name ↔ ∃ tail, name = c :: tail ∧ Language In pattern tail := by
  constructor
  · intro h
    cases h with
    | plain _ h => exact ⟨_, rfl, h⟩
    | star | any | bracket | unclosed => simp at hc
  · rintro ⟨tail, rfl, h⟩
    exact .plain hc h

end Language

theorem describes_exactly {d : Char} {pieces : List Piece} {name : List Char} :
    Describes (.exactly d :: pieces) name ↔ ∃ tail, name = d :: tail ∧ Describes pieces tail := by
  rw [describes_one (by simp)]
  constructor
  · rintro ⟨c, tail, rfl, hc, h⟩
    obtain rfl : c = d := by simpa [Piece.admits] using hc
    exact ⟨tail, rfl, h⟩
  · rintro ⟨tail, rfl, h⟩
    exact ⟨d, tail, rfl, by simp [Piece.admits], h⟩

theorem bracket_ne_star (body : List Char) : bracket body ≠ .star := by
  unfold bracket
  split
  · simp
  · split <;> simp

/-- The pieces that are read of a pattern describe its language. -/
theorem describes_readPieces : ∀ {fuel : Nat} {pattern name : List Char}, pattern.length ≤ fuel →
    (Describes (readPieces fuel pattern) name ↔ Language Class pattern name)
  | 0, [], name, _ => by simp [readPieces, Describes, language_nil_iff]
  | 0, _ :: _, _, h => by simp at h
  | fuel + 1, [], name, _ => by simp [readPieces, Describes, language_nil_iff]
  | fuel + 1, c :: rest, name, h => by
    have hrest : rest.length ≤ fuel := Nat.le_of_succ_le_succ h
    have ih {tail : List Char} := @describes_readPieces fuel rest tail hrest
    by_cases hstar : c = '*'
    · subst hstar
      simp only [readPieces, describes_star, language_star_iff, ih]
    by_cases hany : c = '?'
    · subst hany
      simp [readPieces, describes_one, language_any_iff, ih, Piece.admits]
    by_cases hbracket : c = '['
    · subst hbracket
      cases hcut : closed? rest with
      | none =>
        have hopen : ∀ body rest', IsBody body → rest ≠ body ++ ']' :: rest' := fun body rest' hbody hrest' => by
          rw [closed?_eq_some_iff.2 ⟨hbody, hrest'⟩] at hcut
          cases hcut
        simp only [readPieces, hcut, describes_exactly, language_unclosed_iff hopen, ih]
      | some cut =>
        obtain ⟨body, rest'⟩ := cut
        obtain ⟨hbody, rfl⟩ := closed?_eq_some_iff.1 hcut
        have hrest' : rest'.length ≤ fuel := by
          rw [List.length_append, List.length_cons] at hrest
          omega
        simp only [readPieces, hcut, describes_one (bracket_ne_star body), admits_bracket, language_bracket_iff hbody,
          describes_readPieces hrest']
    · have hplain : c ∉ ['*', '?', '['] := by simp [hstar, hany, hbracket]
      rw [language_plain_iff hplain, readPieces.eq_6 _ _ _ hstar hany hbracket, describes_exactly]
      simp only [ih]

/-! ## Hidden marks -/

/-- A bracket hides a mark behind nothing but ranges that run backwards. -/
def HidesMark (body : List Char) : Prop := Unmarked body ∧ ¬Unmarked (shed body)

theorem class_iff {body : List Char} (h : ¬HidesMark body) (c : Char) : Class body c ↔ PlainClass body c := by
  rcases mark_or_unmarked body with ⟨seq, rfl⟩ | hbody
  · exact Iff.rfl
  · have hshed : Unmarked (shed body) := not_not.1 fun hshed => h ⟨hbody, hshed⟩
    rw [class_of_unmarked hbody, plainClass_of_unmarked hbody, front_of_unmarked hshed, among_shed]

/-- A bracket stands for what it would stand for if only a mark in front negated it, unless it hides a mark. -/
theorem forall_class_iff {body : List Char} : (∀ c, Class body c ↔ PlainClass body c) ↔ ¬HidesMark body := by
  refine ⟨?_, class_iff⟩
  rintro hall ⟨hbody, hshed⟩
  obtain ⟨seq, hseq⟩ := (mark_or_unmarked (shed body)).resolve_right hshed
  simp only [class_of_unmarked hbody, plainClass_of_unmarked hbody, ← @among_shed body, hseq] at hall
  by_cases hrange : ∃ high rest, seq = '-' :: high :: rest
  · -- the high end of the mark's range is among the members, and not in the class
    obtain ⟨high, rest, rfl⟩ := hrange
    have hhigh := hall high
    simp [Front, Among, le_of_shed hseq] at hhigh
  · have hone : ∀ high rest, seq ≠ '-' :: high :: rest := fun high rest h => hrange ⟨high, rest, h⟩
    have ha := hall 'a'
    simp [front_mark hone, among_cons hone] at ha

/-- A closed bracket stands in a pattern. -/
def HasBracket (pattern body : List Char) : Prop :=
  IsBody body ∧ ∃ front back, pattern = front ++ '[' :: (body ++ ']' :: back)

theorem HasBracket.append {pattern body : List Char} (h : HasBracket pattern body) (front : List Char) :
    HasBracket (front ++ pattern) body := by
  obtain ⟨hbody, inner, back, rfl⟩ := h
  exact ⟨hbody, front ++ inner, back, by rw [List.append_assoc]⟩

/-- A name stays in the language if the brackets of the pattern stand for no less. -/
theorem Language.mono {In In' : List Char → Char → Prop} {pattern name : List Char} (h : Language In pattern name)
    (hin : ∀ body, HasBracket pattern body → ∀ c, In body c → In' body c) : Language In' pattern name := by
  induction h with
  | nil => exact .nil
  | star any _ ih => exact .star any (ih fun body hbody => hin body (hbody.append ['*']))
  | any c _ ih => exact .any c (ih fun body hbody => hin body (hbody.append ['?']))
  | @bracket body pattern name c hbody hc _ ih =>
    refine .bracket hbody (hin body ⟨hbody, [], pattern, rfl⟩ c hc) (ih fun body' hbody' => hin body' ?_)
    simpa using hbody'.append ('[' :: body ++ [']'])
  | unclosed hopen _ ih => exact .unclosed hopen (ih fun body hbody => hin body (hbody.append ['[']))
  | plain hc _ ih => exact .plain hc (ih fun body hbody => hin body (hbody.append [_]))

/-- A pattern without hidden marks stands for what it would stand for if only a mark in front of a bracket negated
it. -/
theorem language_class_iff {pattern name : List Char} (h : ∀ body, HasBracket pattern body → ¬HidesMark body) :
    Language Class pattern name ↔ Language PlainClass pattern name :=
  ⟨fun hname => hname.mono fun body hbody c => (class_iff (h body hbody) c).1,
    fun hname => hname.mono fun body hbody c => (class_iff (h body hbody) c).2⟩

end CommitStatus.Glob
