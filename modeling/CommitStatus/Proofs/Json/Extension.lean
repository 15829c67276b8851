import CommitStatus.Json.Check
import Mathlib.Data.List.Perm.Basic
import Mathlib.Logic.Relation

/-!
# Documents with more in them

A document is extended when members with names that nobody asks for come into its objects, wherever these lie, and is
rearranged when the members of an object come in another order (`Value.Varies` for one place, `Value.Varied` for any
number of places). What has no parts stays as it is; an object stays one in which each name that is asked for has as
its value what it had, with more in it at most (`Value.Varied.alike`).

So a check that sees objects through `member?` only comes to the same (`Check.Ignores`): those of single values, and
those that are put together from checks of members.
-/

namespace CommitStatus.Json

variable {known : List String}

/-- A value is extended or rearranged in one place: in an object whose names are distinct the order of the members is
another, a member comes in under a name that is not known, or this happens within a member or an item. -/
inductive Value.Varies (known : List String) : Value → Value → Prop
  | extend {before after : Members} {name : String} {v : Value} (h : name ∉ known) :
      Varies known (.object (before ++ after)) (.object (before ++ (name, v) :: after))
  | rearrange {m m' : Members} (hdistinct : (m.map Prod.fst).Nodup) (h : m.Perm m') :
      Varies known (.object m) (.object m')
  | member {before after : Members} {name : String} {v w : Value} (h : Varies known v w) :
      Varies known (.object (before ++ (name, v) :: after)) (.object (before ++ (name, w) :: after))
  | item {before after : List Value} {v w : Value} (h : Varies known v w) :
      Varies known (.array (before ++ v :: after)) (.array (before ++ w :: after))

/-- A value is extended and rearranged in any number of places, one after the other. -/
abbrev Value.Varied (known : List String) : Value → Value → Prop := Relation.ReflTransGen (Value.Varies known)

/-- Members that give the known names the same values, with more in them at most. -/
def MembersAlike (known : List String) (m m' : Members) : Prop :=
  ∀ name ∈ known, Option.Rel (Value.Varied known) (member? name m) (member? name m')

/-- What a value and what it is varied to have in common. -/
inductive Value.Alike (known : List String) : Value → Value → Prop
  | same (v : Value) : Alike known v v
  | array (items items' : List Value) : Alike known (.array items) (.array items')
  | object {m m' : Members} (h : MembersAlike known m m') : Alike known (.object m) (.object m')

/-- Within a member a value may be varied in any number of places. -/
theorem Value.Varied.member {v w : Value} (h : v.Varied known w) (before after : Members) (name : String) :
    (Value.object (before ++ (name, v) :: after)).Varied known (.object (before ++ (name, w) :: after)) := by
  induction h with
  | refl => exact .refl
  | tail _ hstep ih => exact ih.tail (.member hstep)

/-! ## What names have as their values -/

theorem member?_cons (name key : String) (value : Value) (rest : Members) :
    member? name ((key, value) :: rest) = (member? name rest).or (if key = name then some value else none) := by
  simp only [member?]
  cases member? name rest <;> rfl

/-- The order of members with distinct names does not matter. -/
theorem member?_perm {m m' : Members} (h : m.Perm m') (hdistinct : (m.map Prod.fst).Nodup) (name : String) :
    member? name m = member? name m' := by
  induction h with
  | nil => rfl
  | @cons x m m' _ ih =>
    rw [List.map_cons, List.nodup_cons] at hdistinct
    rw [member?_cons, member?_cons, ih hdistinct.2]
  | swap x y m =>
    simp only [List.map_cons, List.nodup_cons, List.mem_cons, not_or] at hdistinct
    obtain ⟨⟨hne, -⟩, -⟩ := hdistinct
    obtain ⟨kx, vx⟩ := x
    obtain ⟨ky, vy⟩ := y
    simp only [member?_cons, Option.or_assoc]
    congr 1
    by_cases hx : kx = name
    · have hy : ky ≠ name := fun hy => hne (hy.trans hx.symm)
      simp [hx, hy]
    · simp [hx]
  | trans h₁ _ ih₁ ih₂ => exact (ih₁ hdistinct).trans (ih₂ ((h₁.map Prod.fst).nodup_iff.1 hdistinct))

/-- A member under another name does not matter. -/
theorem member?_insert {name key : String} (h : key ≠ name) (before after : Members) (v : Value) :
    member? name (before ++ (key, v) :: after) = member? name (before ++ after) := by
  rw [member?_append, member?_append, member?_cons_of_ne h]

theorem MembersAlike.refl (m : Members) : MembersAlike known m m := by
  intro name _
  cases member? name m with
  | none => exact .none
  | some v => exact .some .refl

theorem MembersAlike.trans {m m' m'' : Members} (h : MembersAlike known m m') (h' : MembersAlike known m' m'') :
    MembersAlike known m m'' := by
  intro name hname
  have hleft := h name hname
  have hright := h' name hname
  generalize member? name m = first at hleft ⊢
  generalize member? name m' = second at hleft hright
  generalize member? name m'' = third at hright ⊢
  cases hleft with
  | none => exact hright
  | some hvw =>
    cases hright with
    | some hwu => exact .some (hvw.trans hwu)

/-- The members with one of their values varied. -/
theorem MembersAlike.replace {key : String} {v w : Value} (h : v.Varied known w) (before after : Members) :
    MembersAlike known (before ++ (key, v) :: after) (before ++ (key, w) :: after) := by
  intro name hname
  rw [member?_append, member?_append, member?_cons, member?_cons]
  cases member? name after with
  | some found => exact .some .refl
  | none =>
    by_cases hkey : key = name
    · simp only [hkey, if_true, Option.none_or, Option.some_or]
      exact .some h
    · simp only [hkey, if_false, Option.none_or]
      exact MembersAlike.refl before name hname

/-! ## What stays -/

theorem Value.Varies.alike {v w : Value} (h : v.Varies known w) : v.Alike known w := by
  cases h with
  | extend hname =>
    refine .object fun name hmem => ?_
    rw [member?_insert (ne_of_mem_of_not_mem hmem hname).symm]
    exact MembersAlike.refl _ name hmem
  | rearrange hdistinct hperm =>
    refine .object fun name hmem => ?_
    rw [← member?_perm hperm hdistinct]
    exact MembersAlike.refl _ name hmem
  | member h => exact .object (MembersAlike.replace (.single h) _ _)
  | item h => exact .array _ _

/-- **What stays of a value that is varied**: a value without parts as it is, an array as an array, and of an object the
values of the known names, varied. -/
theorem Value.Varied.alike {v w : Value} (h : v.Varied known w) : v.Alike known w := by
  induction h with
  | refl => exact .same v
  | tail _ hstep ih =>
    cases ih with
    | same => exact hstep.alike
    | array items items' => cases hstep.alike <;> exact .array _ _
    | object h =>
      cases hstep.alike with
      | same => exact .object h
      | object h' => exact .object (h.trans h')

/-! ## Checks -/

namespace Check

variable {α : Type}

/-- A check that comes to the same when a value is varied. -/
def Ignores (known : List String) (check : Value → Checked α) : Prop := ∀ {v w}, v.Varied known w → check v = check w

/-- A check that refuses all arrays alike and all objects alike. -/
theorem ignores_of_flat {check : Value → Checked α}
    (harray : ∀ items items', check (.array items) = check (.array items'))
    (hobject : ∀ m m', check (.object m) = check (.object m')) : Ignores known check := by
  intro v w h
  cases h.alike with
  | same => rfl
  | array items items' => exact harray items items'
  | object h => exact hobject _ _

theorem ignores_text : Ignores known text := ignores_of_flat (fun _ _ => rfl) fun _ _ => rfl

theorem ignores_listed (words : List String) (ofWord? : String → Option α) : Ignores known (listed words ofWord?) :=
  ignores_of_flat (fun _ _ => rfl) fun _ _ => rfl

/-- A check of an object that comes to the same for members that are alike. -/
theorem ignores_object {check : Members → Checked α} (h : ∀ {m m'}, MembersAlike known m m' → check m = check m') :
    Ignores known (object check) := by
  intro v w hvw
  cases hvw.alike with
  | same => rfl
  | array items items' => rfl
  | object hmm => exact h hmm

theorem required_congr {name : String} {check : Value → Checked α} {m m' : Members} (hm : MembersAlike known m m')
    (hname : name ∈ known) (hcheck : Ignores known check) : required name check m = required name check m' := by
  have hvalues := hm name hname
  unfold required
  generalize member? name m = found at hvalues ⊢
  generalize member? name m' = found' at hvalues ⊢
  cases hvalues with
  | none => rfl
  | some h => simp only [hcheck h]

theorem optional_congr {name : String} {check : Value → Checked α} {m m' : Members} (hm : MembersAlike known m m')
    (hname : name ∈ known) (hcheck : Ignores known check) : optional name check m = optional name check m' := by
  have hvalues := hm name hname
  unfold optional
  generalize member? name m = found at hvalues ⊢
  generalize member? name m' = found' at hvalues ⊢
  cases hvalues with
  | none => rfl
  | some h =>
    have heq := hcheck h
    -- only a value without parts can be null, and this stays as it is
    cases h.alike with
    | same => rfl
    | array => simp only [heq]
    | object => simp only [heq]

end Check

end CommitStatus.Json
