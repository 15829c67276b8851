import CommitStatus.Yaml.Node

/-!
# How the document of a YAML text fails

The steps of the reader fail in one of a few ways, and so do steps that follow one another (`FailsAs`). A node that is
not there breaks a rule, unless the tokens end before it: then the document fails as they do
(`Document.ofTokens_fails`).
-/

namespace CommitStatus.Yaml

/-- All failures of a step are of a kind. -/
def FailsAs {α : Type} (P : Failure → Prop) (x : Except Failure α) : Prop := ∀ e, x = .error e → P e

namespace FailsAs

variable {α β : Type} {P : Failure → Prop}

theorem ok (a : α) : FailsAs P (.ok a : Except Failure α) := nofun

theorem error {e : Failure} (h : P e) : FailsAs P (.error e : Except Failure α) := by
  rintro _ ⟨⟩
  exact h

theorem bind {x : Except Failure α} {f : α → Except Failure β} (hx : FailsAs P x) (hf : ∀ a, FailsAs P (f a)) :
    FailsAs P (x >>= f) := by
  intro e he
  cases hres : x with
  | error e' =>
    rw [hres] at he
    cases he
    exact hx e hres
  | ok a =>
    rw [hres] at he
    exact hf a e he

theorem map {x : Except Failure α} (hx : FailsAs P x) (f : α → β) : FailsAs P (x.map f) := by
  cases x with
  | error e => exact error (hx e rfl)
  | ok a => exact ok _

theorem ite {c : Prop} [Decidable c] {x y : Except Failure α} (hx : FailsAs P x) (hy : FailsAs P y) :
    FailsAs P (if c then x else y) := by
  split
  · exact hx
  · exact hy

theorem mapM {f : α → Except Failure β} (hf : ∀ a, FailsAs P (f a)) : ∀ l : List α, FailsAs P (l.mapM f)
  | [] => ok _
  | a :: l => by
    rw [List.mapM_cons]
    exact (hf a).bind fun b => (mapM hf l).bind fun bs => ok _

end FailsAs

/-! ## Nodes -/

namespace Node

/-- A rule is broken, or the tokens end in this failure. -/
def IsOfEnd (s : Setting) (e : Failure) : Prop := e = .malformed ∨ s.ending = some e

variable {s : Setting}

theorem fails_malformed {α : Type} : FailsAs (IsOfEnd s) (.error .malformed : Except Failure α) := .error (.inl rfl)

theorem isOfEnd_unexpected (tokens : List Token) : IsOfEnd s (unexpected s tokens) := by
  cases tokens with
  | nil =>
    cases hend : s.ending with
    | none => exact .inl (by rw [unexpected, hend]; rfl)
    | some e => exact .inr (by rw [unexpected, hend]; rfl)
  | cons => exact .inl rfl

theorem tagName_fails (handle : Option String) (suffix : String) : FailsAs (IsOfEnd s) (tagName s handle suffix) := by
  unfold tagName
  split
  · exact .ok _
  · split
    · exact .ok _
    · exact fails_malformed

theorem properties_fails (tokens : List Token) : FailsAs (IsOfEnd s) (properties s tokens) := by
  unfold properties
  split
  · exact (tagName_fails _ _).bind fun _ => .ok _
  · exact (tagName_fails _ _).bind fun _ => .ok _
  · exact .ok _
  · exact (tagName_fails _ _).bind fun _ => .ok _
  · exact .ok _

theorem empty_fails (tag : Option String) (anchored : Bool) (r : Rest) : FailsAs (IsOfEnd s) (empty s tag anchored r) :=
  .ite (.ok _) (.error (isOfEnd_unexpected _))

theorem afterComma_fails (first : Bool) (tokens : List Token) : FailsAs (IsOfEnd s) (afterComma s first tokens) := by
  unfold afterComma
  refine .ite (.ok _) ?_
  split
  · exact .ok _
  · exact .error (isOfEnd_unexpected _)

/-- With so much fuel, nodes and the parts of nodes fail as they should. -/
structure FailsWithin (s : Setting) (fuel : Nat) : Prop where
  read : ∀ block bare r, FailsAs (IsOfEnd s) (Node.read s block bare fuel r)
  content : ∀ block bare tag anchored r, FailsAs (IsOfEnd s) (Node.content s block bare tag anchored fuel r)
  blockItems : ∀ acc r, FailsAs (IsOfEnd s) (Node.blockItems s acc fuel r)
  bareItems : ∀ acc r, FailsAs (IsOfEnd s) (Node.bareItems s acc fuel r)
  blockPart : ∀ r, FailsAs (IsOfEnd s) (Node.blockPart s fuel r)
  blockEntries : ∀ acc r, FailsAs (IsOfEnd s) (Node.blockEntries s acc fuel r)
  flowPart : ∀ r, FailsAs (IsOfEnd s) (Node.flowPart s fuel r)
  flowPair : ∀ r, FailsAs (IsOfEnd s) (Node.flowPair s fuel r)
  flowItems : ∀ first acc r, FailsAs (IsOfEnd s) (Node.flowItems s first acc fuel r)
  flowEntries : ∀ first acc r, FailsAs (IsOfEnd s) (Node.flowEntries s first acc fuel r)

section Succ

variable {fuel : Nat} (h : FailsWithin s fuel)
include h

theorem FailsWithin.read_succ (block bare : Bool) (r : Rest) :
    FailsAs (IsOfEnd s) (Node.read s block bare (fuel + 1) r) := by
  unfold Node.read
  split
  · exact .ite (.ok _) fails_malformed
  · refine (properties_fails _).bind fun ⟨anchor, tag, tokens⟩ => ?_
    dsimp only
    split
    · exact h.content _ _ _ _ _
    · split
      · exact fails_malformed
      · exact (h.content _ _ _ _ _).bind fun _ => .ok _

theorem FailsWithin.content_succ (block bare : Bool) (tag : Option String) (anchored : Bool) (r : Rest) :
    FailsAs (IsOfEnd s) (Node.content s block bare tag anchored (fuel + 1) r) := by
  unfold Node.content
  split
  · exact .ok _
  · exact (h.flowItems _ _ _).bind fun _ => .ok _
  · exact (h.flowEntries _ _ _).bind fun _ => .ok _
  · exact .ite ((h.bareItems _ _).bind fun _ => .ok _) (empty_fails _ _ _)
  · exact .ite ((h.blockItems _ _).bind fun _ => .ok _) (empty_fails _ _ _)
  · exact .ite ((h.blockEntries _ _).bind fun _ => .ok _) (empty_fails _ _ _)
  · exact empty_fails _ _ _

theorem FailsWithin.blockItems_succ (acc : List Node) (r : Rest) :
    FailsAs (IsOfEnd s) (Node.blockItems s acc (fuel + 1) r) := by
  unfold Node.blockItems
  split
  · exact .ok _
  · exact h.blockItems _ _
  · exact h.blockItems _ _
  · exact (h.read _ _ _).bind fun _ => h.blockItems _ _
  · exact .error (isOfEnd_unexpected _)

theorem FailsWithin.bareItems_succ (acc : List Node) (r : Rest) :
    FailsAs (IsOfEnd s) (Node.bareItems s acc (fuel + 1) r) := by
  unfold Node.bareItems
  split
  · split
    · exact h.bareItems _ _
    · exact h.bareItems _ _
    · exact h.bareItems _ _
    · exact h.bareItems _ _
    · exact (h.read _ _ _).bind fun _ => h.bareItems _ _
  · exact .ok _

theorem FailsWithin.blockPart_succ (r : Rest) : FailsAs (IsOfEnd s) (Node.blockPart s (fuel + 1) r) := by
  unfold Node.blockPart
  split
  · exact .ok _
  · exact .ok _
  · exact .ok _
  · exact h.read _ _ _

theorem FailsWithin.blockEntries_succ (acc : List (Node × Node)) (r : Rest) :
    FailsAs (IsOfEnd s) (Node.blockEntries s acc (fuel + 1) r) := by
  unfold Node.blockEntries
  split
  · exact .ok _
  · refine (h.blockPart _).bind fun ⟨key, r⟩ => ?_
    dsimp only
    split
    · exact (h.blockPart _).bind fun _ => h.blockEntries _ _
    · exact h.blockEntries _ _
  · exact .error (isOfEnd_unexpected _)

theorem FailsWithin.flowPart_succ (r : Rest) : FailsAs (IsOfEnd s) (Node.flowPart s (fuel + 1) r) := by
  unfold Node.flowPart
  split
  · exact .ok _
  · exact .ok _
  · exact .ok _
  · exact .ok _
  · exact h.read _ _ _

theorem FailsWithin.flowPair_succ (r : Rest) : FailsAs (IsOfEnd s) (Node.flowPair s (fuel + 1) r) := by
  unfold Node.flowPair
  refine (h.flowPart _).bind fun ⟨key, r⟩ => ?_
  dsimp only
  split
  · exact (h.flowPart _).bind fun _ => .ok _
  · exact .ok _

theorem FailsWithin.flowItems_succ (first : Bool) (acc : List Node) (r : Rest) :
    FailsAs (IsOfEnd s) (Node.flowItems s first acc (fuel + 1) r) := by
  unfold Node.flowItems
  split
  · exact .ok _
  · split
    · rename_i he
      exact .error (afterComma_fails _ _ _ he)
    · exact .ok _
    · exact (h.flowPair _).bind fun _ => h.flowItems _ _ _
    · exact (h.read _ _ _).bind fun _ => h.flowItems _ _ _

theorem FailsWithin.flowEntries_succ (first : Bool) (acc : List (Node × Node)) (r : Rest) :
    FailsAs (IsOfEnd s) (Node.flowEntries s first acc (fuel + 1) r) := by
  unfold Node.flowEntries
  split
  · exact .ok _
  · split
    · rename_i he
      exact .error (afterComma_fails _ _ _ he)
    · exact .ok _
    · exact (h.flowPair _).bind fun _ => h.flowEntries _ _ _
    · exact (h.read _ _ _).bind fun _ => h.flowEntries _ _ _

end Succ

/-- Whatever the fuel, a node fails with a broken rule or as the tokens end. -/
theorem failsWithin (s : Setting) : ∀ fuel, FailsWithin s fuel
  | 0 => by
    constructor <;> intros <;> exact fails_malformed
  | fuel + 1 =>
    have h := failsWithin s fuel
    ⟨h.read_succ, h.content_succ, h.blockItems_succ, h.bareItems_succ, h.blockPart_succ, h.blockEntries_succ,
      h.flowPart_succ, h.flowPair_succ, h.flowItems_succ, h.flowEntries_succ⟩

theorem directives_fails : ∀ (tokens : List Token) (versioned : Bool) (handles : List (String × String)),
    FailsAs (IsOfEnd s) (directives versioned handles tokens) := by
  intro tokens
  induction tokens with
  | nil => exact fun _ _ => .ok _
  | cons t tokens ih =>
    intro versioned handles
    unfold directives
    split
    · rename_i heq
      cases heq
      exact .ite fails_malformed (ih _ _)
    · rename_i heq
      cases heq
      exact .ite fails_malformed (ih _ _)
    · rename_i heq
      cases heq
      exact ih _ _
    · exact .ok _

theorem documentFrom_fails (tokens : List Token) : FailsAs (IsOfEnd s) (documentFrom s tokens) := by
  unfold documentFrom
  split
  · exact .ok _
  · exact .ok _
  · exact .ok _
  · exact .ok _
  · exact ((failsWithin s _).read _ _ _).bind fun _ => .ok _

/-- A rule is broken, or the tokens end in a failure. -/
theorem firstDocument_fails (ending : Option Failure) (tokens : List Token) :
    FailsAs (fun e => e = .malformed ∨ ending = some e) (firstDocument ending tokens) := by
  unfold firstDocument
  split
  case h_1 => exact .ok _
  -- directives, or the mark itself
  case h_2 | h_3 =>
    refine (directives_fails (s := ⟨[], ending⟩) _ _ _).bind fun r => ?_
    obtain ⟨handles, rest⟩ := r
    dsimp only
    split
    · exact (documentFrom_fails (s := ⟨handles ++ usualHandles, ending⟩) _).bind fun _ => .ok _
    · exact .error (isOfEnd_unexpected (s := ⟨[], ending⟩) _)
  case h_4 => exact ((failsWithin ⟨usualHandles, ending⟩ _).read _ _ _).bind fun _ => .ok _

end Node

/-- **A document fails with a broken rule, or as its tokens end.** -/
theorem Document.ofTokens_fails (tokens : List Token) (ending : Option Failure) :
    FailsAs (fun e => e = .malformed ∨ ending = some e) (ofTokens tokens ending) := by
  unfold ofTokens
  refine (Node.firstDocument_fails _ _).bind fun ⟨d, rest⟩ => ?_
  dsimp only
  split
  · exact .error (.inl rfl)
  · cases ending with
    | none => exact .ok _
    | some e => exact .error (.inr rfl)

end CommitStatus.Yaml
