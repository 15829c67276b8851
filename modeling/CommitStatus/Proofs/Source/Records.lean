import CommitStatus.Proofs.Checked
import CommitStatus.Source.Reader

/-!
# Records and the spellings of their settings

A record is accepted only if each of its keys gives a setting (`strayKeys_eq_nil_iff`), so no setting is given under two
spellings (`eq_of_strayKeys`). Where a key of such a record is spelled in another way (`Record.Respelt`), the keys still
give all settings, with the values that they had (`Respelt.sameValues`).
-/

namespace CommitStatus

namespace Datum

variable {name : String}

theorem member?_append (a b : Entries) : member? name (a ++ b) = (member? name a).or (member? name b) := by
  induction a with
  | nil => rfl
  | cons e a ih =>
    obtain ⟨key, v⟩ := e
    cases key with
    | text s =>
      simp only [List.cons_append, member?, ih]
      split <;> simp
    | _ => simpa [member?] using ih

theorem member?_cons_self (v : Datum) (rest : Entries) : member? name ((.text name, v) :: rest) = some v := by
  simp [member?]

theorem member?_cons_of_ne {key : Datum} (h : key ≠ .text name) (v : Datum) (rest : Entries) :
    member? name ((key, v) :: rest) = member? name rest := by
  cases key with
  | text s =>
    have hs : s ≠ name := fun hs => h (hs ▸ rfl)
    simp [member?, hs]
  | _ => rfl

/-- An entry does not count for the texts that are not its key. -/
theorem member?_between_of_ne {key : Datum} (h : key ≠ .text name) (pre post : Entries) (v : Datum) :
    member? name (pre ++ (key, v) :: post) = member? name (pre ++ post) := by
  rw [member?_append, member?_append, member?_cons_of_ne h]

/-- The value of a key that stands in a mapping once. -/
theorem member?_between {pre post : Entries} (h : member? name (pre ++ post) = none) (v : Datum) :
    member? name (pre ++ (.text name, v) :: post) = some v := by
  rw [member?_append, Option.or_eq_none_iff] at h
  rw [member?_append, h.1, member?_cons_self]
  rfl

/-- A text has no value in a mapping in which it is no key. -/
theorem member?_eq_none_iff {m : Entries} : member? name m = none ↔ ∀ e ∈ m, e.1 ≠ .text name := by
  induction m with
  | nil => simp [member?]
  | cons e m ih =>
    obtain ⟨key, v⟩ := e
    by_cases hkey : key = .text name
    · subst hkey
      simp [member?_cons_self]
    · rw [member?_cons_of_ne hkey, ih]
      simp [hkey]

end Datum

namespace Record

open Datum (Entries member?)

variable {α : Type} {known : List Spellings} {spellings : Spellings} {m m' : Entries}

/-! ## What is given -/

theorem mem_of_given? {name : String} {v : Datum} (h : given? spellings m = some (name, v)) :
    name ∈ spellings ∧ member? name m = some v := by
  obtain ⟨c, hc, hv⟩ := List.exists_of_findSome?_eq_some h
  obtain ⟨w, hw, hpair⟩ := Option.map_eq_some_iff.1 hv
  cases hpair
  exact ⟨hc, hw⟩

theorem given?_congr (h : ∀ c ∈ spellings, member? c m' = member? c m) : given? spellings m' = given? spellings m := by
  unfold given?
  induction spellings with
  | nil => rfl
  | cons c spellings ih =>
    rw [List.findSome?_cons, List.findSome?_cons, h c List.mem_cons_self,
      ih fun d hd => h d (List.mem_cons_of_mem _ hd)]

/-- A setting that is given under one spelling only has the value that it has there. -/
theorem given?_of_only {a : String} {v : Datum} (ha : a ∈ spellings) (hv : member? a m = some v)
    (honly : ∀ c ∈ spellings, c ≠ a → member? c m = none) : given? spellings m = some (a, v) := by
  unfold given?
  induction spellings with
  | nil => cases ha
  | cons c spellings ih =>
    by_cases hc : c = a
    · subst hc
      rw [List.findSome?_cons, hv]
      rfl
    · rw [List.findSome?_cons, honly c List.mem_cons_self hc]
      exact ih ((List.mem_cons.1 ha).resolve_left (Ne.symm hc)) fun d hd => honly d (List.mem_cons_of_mem _ hd)

/-- A setting is valid if its value is, or, when it is left out, if its default is. -/
theorem setting_eq_valid_iff {default : Checked α} {check : Datum → Checked α} {a : α} :
    setting spellings default check m = .valid a ↔
      (((given? spellings m).map Prod.snd).elim default check) = .valid a := by
  unfold setting
  cases given? spellings m with
  | none => rfl
  | some e => exact Checked.under_eq_valid_iff

/-- A setting that is changed once it is read may be changed along with its default. -/
theorem setting_map {β : Type} (f : α → β) (spellings : Spellings) (default : Checked α) (check : Datum → Checked α)
    (m : Entries) :
    setting spellings (default.map f) (fun v => (check v).map f) m = (setting spellings default check m).map f := by
  unfold setting
  cases given? spellings m with
  | none => rfl
  | some e =>
    dsimp only
    cases check e.2 <;> rfl

/-- Two mappings give a setting with the same value, under whichever spelling. -/
def SameValue (spellings : Spellings) (m m' : Entries) : Prop :=
  (given? spellings m').map Prod.snd = (given? spellings m).map Prod.snd

theorem SameValue.keeps (h : SameValue spellings m m') (default : Checked α) (check : Datum → Checked α) :
    (setting spellings default check m).Keeps (setting spellings default check m') := by
  intro a ha
  rw [setting_eq_valid_iff] at ha ⊢
  rw [h]
  exact ha

/-! ## Keys -/

/-- The keys of a record give its settings if each is the spelling under which one of them is given. -/
theorem strayKeys_eq_nil_iff :
    strayKeys known m = [] ↔
      ∀ e ∈ m, ∃ name, e.1 = .text name ∧ ∃ spellings ∈ known, (given? spellings m).map Prod.fst = some name := by
  have hfault : ∀ (used : List String) key, keyFault? used key = none ↔ ∃ name, key = .text name ∧ name ∈ used := by
    intro used key
    cases key <;> simp [keyFault?]
  simp only [strayKeys, List.filterMap_eq_nil_iff, hfault, List.mem_filterMap]

/-- A mapping that is read as a record has no keys but those of settings. -/
theorem settings_eq_valid_iff {model : String} {check : Entries → Checked α} {v : Datum} {a : α} :
    settings model known check v = .valid a ↔ ∃ m, v = .mapping m ∧ strayKeys known m = [] ∧ check m = .valid a := by
  cases v with
  | mapping m =>
    simp only [settings, Datum.mapping.injEq, exists_eq_left']
    cases strayKeys known m <;> simp
  | _ => simp [settings, Checked.fault]

/-- Each spelling belongs to one setting. -/
def Unambiguous (known : List Spellings) : Prop :=
  ∀ spellings ∈ known, ∀ others ∈ known, ∀ name ∈ spellings, name ∈ others → others = spellings

/-- The spelling of a key of an accepted record is the one under which its setting is given. -/
theorem given?_of_strayKeys (hknown : Unambiguous known) (hstray : strayKeys known m = [])
    (hspellings : spellings ∈ known) {a : String} (ha : a ∈ spellings) (hm : member? a m ≠ none) :
    (given? spellings m).map Prod.fst = some a := by
  have hkey : ∃ e ∈ m, e.1 = .text a := by
    simpa [Datum.member?_eq_none_iff] using hm
  obtain ⟨e, he, hea⟩ := hkey
  obtain ⟨name, hname, others, hothers, hgiven⟩ := strayKeys_eq_nil_iff.1 hstray e he
  obtain rfl : a = name := by simpa [hea] using hname
  obtain ⟨⟨_, v⟩, hsome, rfl⟩ := Option.map_eq_some_iff.1 hgiven
  obtain rfl := hknown _ hspellings _ hothers _ ha (mem_of_given? hsome).1
  exact hgiven

/-- No setting of an accepted record is given under two spellings. -/
theorem eq_of_strayKeys (hknown : Unambiguous known) (hstray : strayKeys known m = [])
    (hspellings : spellings ∈ known) {a b : String} (ha : a ∈ spellings) (hb : b ∈ spellings)
    (hma : member? a m ≠ none) (hmb : member? b m ≠ none) : a = b :=
  Option.some.inj ((given?_of_strayKeys hknown hstray hspellings ha hma).symm.trans
    (given?_of_strayKeys hknown hstray hspellings hb hmb))

/-! ## Other spellings -/

/-- A mapping and the one in which one of its keys is replaced by another spelling of the same setting. As in any
mapping, the key stands there once. -/
inductive Respelt (known : List Spellings) : Datum → Datum → Prop
  | key {pre post : Entries} {spellings : Spellings} {a b : String} {v : Datum} (hspellings : spellings ∈ known)
      (ha : a ∈ spellings) (hb : b ∈ spellings) (honce : ∀ e ∈ pre ++ post, e.1 ≠ .text a) :
      Respelt known (.mapping (pre ++ (.text a, v) :: post)) (.mapping (pre ++ (.text b, v) :: post))

theorem Respelt.exists_mapping {w : Datum} (h : Respelt known (.mapping m) w) : ∃ m', w = .mapping m' := by
  generalize Datum.mapping m = v at h
  cases h
  exact ⟨_, rfl⟩

section Between

variable {pre post : Entries} {a : String} {v : Datum}

theorem mem_between {e x : Datum × Datum} : e ∈ pre ++ x :: post ↔ e = x ∨ e ∈ pre ++ post := by
  simp only [List.mem_append, List.mem_cons]
  exact or_left_comm

theorem text_ne {c d : String} (h : c ≠ d) : Datum.text c ≠ .text d := fun heq => h (Datum.text.inj heq)

/-- A setting whose spellings stand in one place only is given there. -/
theorem given?_between (ha : a ∈ spellings) (hrest : ∀ c ∈ spellings, member? c (pre ++ post) = none) :
    given? spellings (pre ++ (.text a, v) :: post) = some (a, v) :=
  given?_of_only ha (Datum.member?_between (hrest a ha) v) fun c hc hne => by
    rw [Datum.member?_between_of_ne (text_ne (Ne.symm hne)), hrest c hc]

/-- An entry does not count for the settings that it does not spell. -/
theorem given?_between_of_notMem (ha : a ∉ spellings) :
    given? spellings (pre ++ (.text a, v) :: post) = given? spellings (pre ++ post) :=
  given?_congr fun c hc => by
    have hne : a ≠ c := by
      rintro rfl
      exact ha hc
    rw [Datum.member?_between_of_ne (text_ne hne)]

/-- In an accepted record no other spelling stands beside the one under which a setting is given. -/
theorem member?_rest_of_strayKeys (hknown : Unambiguous known)
    (hstray : strayKeys known (pre ++ (.text a, v) :: post) = []) (hspellings : spellings ∈ known) (ha : a ∈ spellings)
    (honce : ∀ e ∈ pre ++ post, e.1 ≠ .text a) : ∀ c ∈ spellings, member? c (pre ++ post) = none := by
  intro c hc
  have hrest : member? a (pre ++ post) = none := Datum.member?_eq_none_iff.2 honce
  by_cases hca : c = a
  · rw [hca, hrest]
  · refine Option.eq_none_iff_forall_ne_some.2 fun w hw => hca ?_
    refine eq_of_strayKeys hknown hstray hspellings hc ha ?_ ?_
    · rw [Datum.member?_between_of_ne (text_ne (Ne.symm hca)), hw]
      simp
    · rw [Datum.member?_between hrest]
      simp

end Between

/-- What the replacement leaves as it was: the keys still give all settings, and with the same values. -/
theorem Respelt.sameValues (hknown : Unambiguous known) (hstray : strayKeys known m = [])
    (h : Respelt known (.mapping m) (.mapping m')) :
    strayKeys known m' = [] ∧ ∀ spellings ∈ known, SameValue spellings m m' := by
  cases h with
  | @key pre post spellings a b v hspellings ha hb honce =>
    have hrest := member?_rest_of_strayKeys hknown hstray hspellings ha honce
    have hgiven : given? spellings (pre ++ (.text a, v) :: post) = some (a, v) := given?_between ha hrest
    have hgiven' : given? spellings (pre ++ (.text b, v) :: post) = some (b, v) := given?_between hb hrest
    have hothers : ∀ others ∈ known, others ≠ spellings →
        given? others (pre ++ (.text b, v) :: post) = given? others (pre ++ (.text a, v) :: post) := by
      intro others hothers hne
      have hforeign : ∀ c ∈ spellings, c ∉ others := fun c hc hco => hne (hknown _ hspellings _ hothers c hc hco)
      rw [given?_between_of_notMem (hforeign a ha), given?_between_of_notMem (hforeign b hb)]
    refine ⟨strayKeys_eq_nil_iff.2 fun e he => ?_, fun others hmem => ?_⟩
    · rcases mem_between.1 he with rfl | hold
      · exact ⟨b, rfl, spellings, hspellings, by rw [hgiven']; rfl⟩
      · -- a key that stays gives another setting, as it did before
        obtain ⟨name, hname, others, hmem, hfst⟩ := strayKeys_eq_nil_iff.1 hstray e (mem_between.2 (.inr hold))
        have hne : others ≠ spellings := by
          rintro rfl
          rw [hgiven] at hfst
          cases hfst
          exact honce e hold hname
        exact ⟨name, hname, others, hmem, by rw [hothers others hmem hne, hfst]⟩
    · by_cases hsame : others = spellings
      · subst hsame
        rw [SameValue, hgiven, hgiven']
        rfl
      · rw [SameValue, hothers others hmem hsame]

/-! ## Other values -/

section Values

variable {pre post : Entries} {name : String} {v w : Datum}

/-- Where a setting is given does not depend on the values. -/
theorem given?_fst (m : Entries) :
    (given? spellings m).map Prod.fst = spellings.find? fun c => (member? c m).isSome := by
  unfold given?
  induction spellings with
  | nil => rfl
  | cons c spellings ih =>
    rw [List.findSome?_cons, List.find?_cons]
    cases member? c m with
    | none => exact ih
    | some v => rfl

theorem given?_between_fst : (given? spellings (pre ++ (.text name, w) :: post)).map Prod.fst =
    (given? spellings (pre ++ (.text name, v) :: post)).map Prod.fst := by
  have hsome : ∀ c, (member? c (pre ++ (.text name, w) :: post)).isSome =
      (member? c (pre ++ (.text name, v) :: post)).isSome := by
    intro c
    by_cases hc : c = name
    · subst hc
      simp [Datum.member?_append, Datum.member?_cons_self]
    · rw [Datum.member?_between_of_ne (text_ne (Ne.symm hc)), Datum.member?_between_of_ne (text_ne (Ne.symm hc))]
  rw [given?_fst, given?_fst]
  exact congrArg (spellings.find? ·) (funext hsome)

/-- With another value for a key, the keys still give all settings. -/
theorem strayKeys_between (h : strayKeys known (pre ++ (.text name, v) :: post) = []) :
    strayKeys known (pre ++ (.text name, w) :: post) = [] := by
  rw [strayKeys_eq_nil_iff] at h ⊢
  intro e he
  have hold : ∃ e' ∈ pre ++ (.text name, v) :: post, e'.1 = e.1 := by
    rcases mem_between.1 he with rfl | hrest
    · exact ⟨_, mem_between.2 (.inl rfl), rfl⟩
    · exact ⟨e, mem_between.2 (.inr hrest), rfl⟩
  obtain ⟨e', he', hkey⟩ := hold
  obtain ⟨c, hc, spellings, hmem, hfst⟩ := h e' he'
  exact ⟨c, hkey ▸ hc, spellings, hmem, by rw [given?_between_fst, hfst]⟩

/-- With another value for its only key, a setting is kept if the value is. -/
theorem keeps_between {default : Checked α} {check : Datum → Checked α} (h : (check v).Keeps (check w)) :
    (setting [name] default check (pre ++ (.text name, v) :: post)).Keeps
      (setting [name] default check (pre ++ (.text name, w) :: post)) := by
  intro a ha
  rw [setting_eq_valid_iff] at ha ⊢
  simp only [given?, List.findSome?_cons, List.findSome?_nil, Datum.member?_append, Datum.member?_cons_self] at ha ⊢
  cases hpre : member? name pre with
  | none =>
    rw [hpre] at ha
    exact h a ha
  | some u =>
    rw [hpre] at ha
    exact ha

end Values

end Record

end CommitStatus
