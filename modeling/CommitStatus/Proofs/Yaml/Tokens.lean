import CommitStatus.Proofs.Yaml.Failures

/-!
# How the tokens of a YAML text end

A text that cannot be cut to its end breaks a rule, has an escape beyond the last code point, or has a directive with a
version that cannot be read (`Token.isOfToken_of_scan`): each step of the cutting fails in one of these ways only.
-/

namespace CommitStatus.Yaml

/-- What can go wrong where a text is cut into tokens: a rule is broken, an escape lies beyond the last code point, or
the version in a directive cannot be read. -/
inductive Failure.IsOfToken : Failure → Prop
  | malformed : IsOfToken .malformed
  | codePoint : IsOfToken .codePoint
  | codePointWidth : IsOfToken .codePointWidth
  | version (e : Decimal.Integer.Misread) : IsOfToken (.integer e)

open Failure (IsOfToken)

theorem fails_malformed {α : Type} : FailsAs IsOfToken (.error .malformed : Except Failure α) := .error .malformed

/-! ## Pending keys -/

namespace Lexer

theorem giveUp_fails (k : Option PendingKey) : FailsAs IsOfToken (giveUp k) := by
  unfold giveUp
  split
  · exact .ite fails_malformed (.ok _)
  · exact .ok _

theorem giveUpStale_fails (c : Cursor) (k : Option PendingKey) : FailsAs IsOfToken (giveUpStale c k) := by
  unfold giveUpStale
  split
  · exact .ite (giveUp_fails _) (.ok _)
  · exact .ok _

theorem dropStale_fails (l : Lexer) : FailsAs IsOfToken l.dropStale :=
  (giveUpStale_fails _ _).bind fun _ => (FailsAs.mapM (giveUpStale_fails _) _).bind fun _ => .ok _

theorem dropKey_fails (l : Lexer) : FailsAs IsOfToken l.dropKey := (giveUp_fails _).bind fun _ => .ok _

theorem saveKey_fails (l : Lexer) : FailsAs IsOfToken l.saveKey := by
  unfold saveKey
  exact .ite ((dropKey_fails _).bind fun _ => .ok _) (.ok _)

end Lexer

/-! ## Scalars -/

namespace Style

theorem codePoint_fails (n : Nat) : FailsAs IsOfToken (codePoint n) :=
  .ite (.ok _) (.ite (.error .codePoint) (.error .codePointWidth))

theorem escape_fails (c : Cursor) : FailsAs IsOfToken (escape c) := by
  unfold escape
  split
  · exact fails_malformed
  · split
    · exact .ok _
    · dsimp only
      split
      · exact .ite ((codePoint_fails _).map _) fails_malformed
      · exact fails_malformed
    · split
      · exact fails_malformed
      · split
        · exact .ok _
        · exact fails_malformed

theorem gap_fails (c : Cursor) : FailsAs IsOfToken (gap c) := by
  unfold gap
  split
  split
  · exact .ok _
  · split
    · exact .ok _
    · exact fails_malformed

theorem quotedFrom_fails (mark : Char) : ∀ (fuel : Nat) (c : Cursor) (acc : List Nat),
    FailsAs IsOfToken (quotedFrom mark fuel c acc)
  | 0, _, _ => fails_malformed
  | fuel + 1, c, acc => by
    unfold quotedFrom
    split
    · exact fails_malformed
    · refine .ite (.ite (quotedFrom_fails mark fuel _ _) (.ok _)) (.ite ?_ (.ite ?_ (quotedFrom_fails mark fuel _ _)))
      · split
        · rename_i he
          exact .error (escape_fails _ _ he)
        · exact quotedFrom_fails mark fuel _ _
      · split
        · rename_i he
          exact .error (gap_fails _ _ he)
        · exact quotedFrom_fails mark fuel _ _

theorem block_fails (folding : Bool) (outer : Int) (c : Cursor) : FailsAs IsOfToken (block folding outer c) := by
  unfold block
  split
  refine .ite fails_malformed ?_
  split
  · exact fails_malformed
  · split
    · exact .ok _
    · exact .ok _

end Style

/-! ## Tokens -/

namespace Token

theorem orMalformed_fails {α : Type} (a : Option α) : FailsAs IsOfToken (orMalformed a) := by
  cases a with
  | none => exact fails_malformed
  | some a => exact .ok a

theorem versionNumber?_fails (c : Cursor) : FailsAs IsOfToken (versionNumber? c) := by
  unfold versionNumber?
  split
  refine .ite fails_malformed ?_
  split
  · exact .ok _
  · exact .error (.version _)

theorem directiveValue_fails (name : String) (c : Cursor) : FailsAs IsOfToken (directiveValue name c) := by
  unfold directiveValue
  split
  · refine (versionNumber?_fails _).bind fun _ => ?_
    dsimp only
    split
    · exact fails_malformed
    · exact (versionNumber?_fails _).bind fun _ => .ite (.ok _) fails_malformed
  · split
    · refine (orMalformed_fails _).bind fun _ => ?_
      dsimp only
      split
      · exact fails_malformed
      · exact (orMalformed_fails _).bind fun _ => .ite (.ok _) fails_malformed
    · exact .ok _

theorem directive?_fails (c : Cursor) : FailsAs IsOfToken (directive? c) := by
  unfold directive?
  split
  dsimp only
  split
  · exact fails_malformed
  · exact (directiveValue_fails _ _).bind fun _ => (orMalformed_fails _).bind fun _ => .ok _

section Lexers

open Lexer (saveKey_fails dropKey_fails dropStale_fails)

variable (l : Lexer)

theorem openFlow_fails (t : Token) : FailsAs IsOfToken (openFlow t l) := (saveKey_fails l).bind fun _ => .ok _

theorem closeFlow_fails (t : Token) : FailsAs IsOfToken (closeFlow t l) := by
  unfold closeFlow
  split
  · exact fails_malformed
  · exact (dropKey_fails _).bind fun _ => .ok _

theorem blockMark_fails (opening t : Token) : FailsAs IsOfToken (blockMark opening t l) := by
  unfold blockMark
  exact .ite fails_malformed ((dropKey_fails _).bind fun _ => .ok _)

theorem valueMark_fails : FailsAs IsOfToken (valueMark l) := by
  unfold valueMark
  split
  · exact (blockMark_fails _ _ _).bind fun _ => .ok _
  · exact .ok _

theorem betweenDocuments_fails : FailsAs IsOfToken (betweenDocuments l) := (dropKey_fails _).bind fun _ => .ok _

theorem keyable_fails {read : Lexer → Except Failure (Token × Cursor)} (h : ∀ l, FailsAs IsOfToken (read l)) :
    FailsAs IsOfToken (keyable read l) := (saveKey_fails l).bind fun _ => (h _).bind fun _ => .ok _

theorem named_fails (make : String → Token) : FailsAs IsOfToken (named make l) :=
  keyable_fails l fun _ => (orMalformed_fails _).bind fun _ => .ok _

theorem quotedScalar_fails (mark : Char) : FailsAs IsOfToken (quotedScalar mark l) :=
  keyable_fails l fun _ => (Style.quotedFrom_fails mark _ _ _).bind fun _ => .ok _

theorem blockScalar_fails (folding : Bool) : FailsAs IsOfToken (blockScalar folding l) :=
  (dropKey_fails _).bind fun _ => (Style.block_fails _ _ _).bind fun _ => .ok _

theorem plainScalar_fails : FailsAs IsOfToken (plainScalar l) := (saveKey_fails l).bind fun _ => .ok _

theorem next_fails (ch : Char) : FailsAs IsOfToken (next ch l) := by
  unfold next
  refine .ite ((betweenDocuments_fails l).bind fun _ => (directive?_fails _).bind fun _ => .ok _) ?_
  refine .ite ((betweenDocuments_fails l).bind fun _ => .ok _) ?_
  refine .ite (openFlow_fails l _) (.ite (openFlow_fails l _) ?_)
  refine .ite (closeFlow_fails l _) (.ite (closeFlow_fails l _) ?_)
  refine .ite ((dropKey_fails l).bind fun _ => .ok _) ?_
  refine .ite ((blockMark_fails l _ _).bind fun _ => .ok _) (.ite ((blockMark_fails l _ _).bind fun _ => .ok _) ?_)
  refine .ite (valueMark_fails l) (.ite (named_fails l _) (.ite (named_fails l _) ?_))
  refine .ite (keyable_fails l fun _ => orMalformed_fails _) ?_
  refine .ite (blockScalar_fails l _) (.ite (blockScalar_fails l _) (.ite (quotedScalar_fails l _) ?_))
  exact .ite (plainScalar_fails l) fails_malformed

theorem approach_fails (lines : Nat) : FailsAs IsOfToken (approach lines l) := (dropStale_fails _).bind fun _ => .ok _

end Lexers

/-- Cutting goes on until a token fails, so what ends it is the failure of a token. -/
theorem isOfToken_of_scanFrom : ∀ {fuel : Nat} {l : Lexer} {e : Failure}, (scanFrom fuel l).2 = some e → e.IsOfToken
  | 0, _, _, h => nomatch h
  | fuel + 1, l, e, h => by
    unfold scanFrom at h
    split at h
    · rename_i he
      cases h
      exact approach_fails _ _ _ he
    · split at h
      · split at h
        · cases h
        · rename_i he
          cases h
          exact Lexer.dropKey_fails _ _ he
      · split at h
        · rename_i he
          cases h
          exact next_fails _ _ _ he
        · exact isOfToken_of_scanFrom h

/-- **What ends the tokens of a text is the failure of a token.** -/
theorem isOfToken_of_scan {s : List Char} {e : Failure} (h : (scan s).2 = some e) : e.IsOfToken := by
  unfold scan at h
  split at h
  · cases h
    exact .malformed
  · exact isOfToken_of_scanFrom h

end Token

end CommitStatus.Yaml
