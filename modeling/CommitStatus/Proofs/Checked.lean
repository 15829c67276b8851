import CommitStatus.Fault
import Mathlib.Data.List.Forall2

/-!
# What a check comes to

A value that is valid comes from valid parts (`Checked.map_eq_valid_iff`, `Checked.ap_eq_valid_iff`), and the faults of
all parts are faults of the whole (`Checked.faults_ap`, `Checked.mem_faults_each`).

A check keeps what another gives if it is valid wherever the other is, with the same value (`Checked.Keeps`). Two checks
agree if they have the same value, or faults that agree one by one (`Checked.Agrees`). Both hold if they hold of the
parts.
-/

namespace CommitStatus

/-- A fault of a part, as a fault of the whole in which the part lies behind a path. -/
def Fault.behind (path : List Step) (f : Fault) : Fault := { f with path := path ++ f.path }

theorem Fault.behind_append (path more : List Step) (f : Fault) :
    f.behind (path ++ more) = (f.behind more).behind path := by
  simp [Fault.behind]

namespace Checked

variable {α β : Type}

theorem map_eq_valid_iff {f : α → β} {c : Checked α} {b : β} : c.map f = .valid b ↔ ∃ a, c = .valid a ∧ f a = b := by
  cases c <;> simp [map]

theorem ap_eq_valid_iff {c : Checked (α → β)} {d : Checked α} {b : β} :
    c.ap d = .valid b ↔ ∃ f a, c = .valid f ∧ d = .valid a ∧ f a = b := by
  cases c <;> cases d <;> simp [ap]

theorem under_eq_valid_iff {step : Step} {c : Checked α} {a : α} : c.under step = .valid a ↔ c = .valid a := by
  cases c <;> simp [under]

theorem titled_eq_ok_iff {title : String} {c : Checked α} {a : α} : c.titled title = .ok a ↔ c = .valid a := by
  cases c <;> simp [titled]

/-- A check that is valid wherever another is, with the same value. -/
def Keeps (c d : Checked α) : Prop := ∀ a, c = .valid a → d = .valid a

theorem Keeps.map {c d : Checked α} (h : c.Keeps d) (f : α → β) : (c.map f).Keeps (d.map f) := by
  intro b hb
  obtain ⟨a, ha, rfl⟩ := map_eq_valid_iff.1 hb
  exact map_eq_valid_iff.2 ⟨a, h a ha, rfl⟩

theorem Keeps.ap {f g : Checked (α → β)} {c d : Checked α} (hf : f.Keeps g) (h : c.Keeps d) :
    (f.ap c).Keeps (g.ap d) := by
  intro b hb
  obtain ⟨k, a, hk, ha, rfl⟩ := ap_eq_valid_iff.1 hb
  exact ap_eq_valid_iff.2 ⟨k, a, hf k hk, h a ha, rfl⟩

@[simp] theorem faults_map (f : α → β) (c : Checked α) : (c.map f).faults = c.faults := by
  cases c <;> rfl

@[simp] theorem faults_ap (c : Checked (α → β)) (d : Checked α) : (c.ap d).faults = c.faults ++ d.faults := by
  cases c <;> cases d <;> simp [ap, faults]

theorem faults_under (step : Step) (c : Checked α) : (c.under step).faults = c.faults.map (.behind [step]) := by
  cases c <;> rfl

/-- The faults of an item lie behind its index. -/
theorem mem_faults_each {check : α → Checked β} {f : Fault} {a : α} (hf : f ∈ (check a).faults) :
    ∀ {items : List α} {i : Nat} (start : Nat), items[i]? = some a →
      f.behind [.item ↑(start + i)] ∈ (each check start items).faults
  | b :: items, 0, start, h => by
    cases h
    rw [each, faults_ap, faults_map, faults_under]
    exact List.mem_append_left _ (List.mem_map_of_mem hf)
  | b :: items, i + 1, start, h => by
    rw [each, faults_ap, faults_map, show start + (i + 1) = start + 1 + i by omega]
    exact List.mem_append_right _ (mem_faults_each hf (start + 1) h)

/-- The same value, or faults that agree one by one. -/
inductive Agrees (R : Fault → Fault → Prop) : Checked α → Checked α → Prop
  | valid (a : α) : Agrees R (.valid a) (.valid a)
  | invalid {faults faults' : List Fault} (h : List.Forall₂ R faults faults') :
      Agrees R (.invalid faults) (.invalid faults')

namespace Agrees

variable {R : Fault → Fault → Prop}

theorem refl (hR : ∀ f, R f f) (c : Checked α) : c.Agrees R c := by
  cases c with
  | valid a => exact .valid a
  | invalid faults => exact .invalid (List.forall₂_same.2 fun f _ => hR f)

theorem map {c d : Checked α} (h : c.Agrees R d) (f : α → β) : (c.map f).Agrees R (d.map f) := by
  cases h with
  | valid a => exact .valid (f a)
  | invalid h => exact .invalid h

theorem ap {f g : Checked (α → β)} {c d : Checked α} (hf : f.Agrees R g) (h : c.Agrees R d) :
    (f.ap c).Agrees R (g.ap d) := by
  cases hf with
  | valid k => cases h with
    | valid a => exact .valid (k a)
    | invalid h => exact .invalid h
  | invalid hf => cases h with
    | valid a => exact .invalid hf
    | invalid h => exact .invalid (List.rel_append hf h)

theorem under {R' : Fault → Fault → Prop} {c d : Checked α} (h : c.Agrees R d) (step : Step)
    (hR : ∀ {f g}, R f g → R' (f.behind [step]) (g.behind [step])) : (c.under step).Agrees R' (d.under step) := by
  cases h with
  | valid a => exact .valid a
  | invalid h => exact .invalid (List.forall₂_map_left_iff.2 (List.forall₂_map_right_iff.2 (h.imp fun _ _ => hR)))

/-- Checks that agree in every fault come to the same. -/
theorem eq {c d : Checked α} (h : c.Agrees R d) (hR : ∀ {f g}, R f g → f = g) : c = d := by
  cases h with
  | valid a => rfl
  | invalid h =>
    have heq : List.Forall₂ Eq _ _ := h.imp fun _ _ => hR
    rw [List.forall₂_eq_eq_eq] at heq
    rw [heq]

end Agrees

end Checked

end CommitStatus
