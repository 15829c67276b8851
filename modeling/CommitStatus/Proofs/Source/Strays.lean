import CommitStatus.Proofs.Source.Spelling

/-!
# No key of the sources is lost

The data of sources hold records within each other: the file, its sources, and the credentials and traits of these
(`Source.Holds`). What is wrong with a record is reported of the whole, behind the path to the record
(`Source.Holds.mem_faults`), whatever else is wrong. So each key that gives no setting of its record is reported at its
place, and the data are accepted only if there is none (`Source.checkAll_keys`).
-/

namespace CommitStatus

open Record Datum

/-! ## Keys of a record -/

namespace Record

variable {α : Type} {model : String} {known : List Spellings} {check : Entries → Checked α} {m : Entries}
  {spellings : Spellings} {name : String}

/-- A record has the faults of its settings and those of its keys. -/
theorem faults_settings :
    (settings model known check (.mapping m)).faults = (check m).faults ++ strayKeys known m := by
  simp only [settings]
  cases strayKeys known m with
  | nil => simp
  | cons f faults => rfl

/-- A stray key is one of the faults of its record. -/
theorem mem_faults_settings {f : Fault} (h : f ∈ strayKeys known m) :
    f ∈ (settings model known check (.mapping m)).faults := by
  rw [faults_settings]
  exact List.mem_append_right _ h

/-- The faults of a setting lie behind the spelling under which it is given. -/
theorem mem_faults_setting (default : Checked α) {check : Datum → Checked α} {f : Fault} {v : Datum}
    (hgiven : given? spellings m = some (name, v)) (hf : f ∈ (check v).faults) :
    f.behind [.member name] ∈ (setting spellings default check m).faults := by
  rw [setting, hgiven]
  dsimp only
  rw [Checked.faults_under]
  exact List.mem_map_of_mem hf

/-- A setting with one spelling is given under it. -/
theorem given?_singleton {v : Datum} (h : member? name m = some v) : given? [name] m = some (name, v) :=
  given?_of_only List.mem_cons_self h fun _ hc hne => absurd (List.mem_singleton.1 hc) hne

/-- A key that gives none of the settings is reported. -/
theorem mem_strayKeys (hkey : .text name ∈ m.map Prod.fst)
    (hnone : ∀ spellings ∈ known, (given? spellings m).map Prod.fst ≠ some name) :
    ⟨[.member name], .unknownKey⟩ ∈ strayKeys known m := by
  obtain ⟨e, he, hname⟩ := List.mem_map.1 hkey
  refine List.mem_filterMap.2 ⟨e, he, ?_⟩
  have hunused : name ∉ known.filterMap fun spellings => (given? spellings m).map (·.1) := by
    intro hused
    obtain ⟨spellings, hspellings, hgiven⟩ := List.mem_filterMap.1 hused
    exact hnone spellings hspellings hgiven
  simp [hname, keyFault?, hunused]

/-- A key that spells no setting is reported. -/
theorem mem_strayKeys_of_unknown (hkey : .text name ∈ m.map Prod.fst)
    (hunknown : ∀ spellings ∈ known, name ∉ spellings) : ⟨[.member name], .unknownKey⟩ ∈ strayKeys known m := by
  refine mem_strayKeys hkey fun spellings hspellings hgiven => ?_
  obtain ⟨⟨c, v⟩, hsome, rfl⟩ := Option.map_eq_some_iff.1 hgiven
  exact hunknown spellings hspellings (mem_of_given? hsome).1

/-- Of two keys that spell one setting the second spelling is reported. -/
theorem mem_strayKeys_of_twice {first : String} (hknown : Unambiguous known) (hspellings : [first, name] ∈ known)
    (hne : first ≠ name) (hfirst : .text first ∈ m.map Prod.fst) (hkey : .text name ∈ m.map Prod.fst) :
    ⟨[.member name], .unknownKey⟩ ∈ strayKeys known m := by
  refine mem_strayKeys hkey fun others hothers hgiven => ?_
  obtain ⟨⟨c, w⟩, hsome, rfl⟩ := Option.map_eq_some_iff.1 hgiven
  obtain rfl : others = [first, c] :=
    hknown _ hspellings _ hothers _ (by simp) (mem_of_given? hsome).1
  -- the first spelling is there, so the setting is given under it
  cases hv : member? first m with
  | none =>
    obtain ⟨e, he, hname⟩ := List.mem_map.1 hfirst
    exact absurd hname (member?_eq_none_iff.1 hv e he)
  | some v =>
    simp only [given?, List.findSome?_cons, hv, Option.map_some, Option.some.injEq, Prod.mk.injEq] at hsome
    exact hne hsome.1

end Record

/-! ## The records within the data -/

/-- The kinds of records that the data of sources hold. -/
inductive RecordKind
  | file
  | source
  | credentials
  | traits
  deriving DecidableEq, Repr

namespace RecordKind

/-- The settings that a record of a kind may give, each with its spellings. -/
def known : RecordKind → List Spellings
  | .file => [["sources"]]
  | .source => Source.known
  | .credentials => Credentials.known
  | .traits => Traits.known

theorem unambiguous_known (kind : RecordKind) : Unambiguous kind.known := by
  cases kind with
  | file => unfold Unambiguous; decide
  | source => exact Source.unambiguous_known
  | credentials => exact Credentials.unambiguous_known
  | traits => exact Traits.unambiguous_known

/-- The two spellings of a setting differ. -/
theorem ne_of_mem_known {kind : RecordKind} {first second : String} (h : [first, second] ∈ kind.known) :
    first ≠ second := by
  have hdistinct : ∀ spellings ∈ kind.known, spellings.Nodup := by cases kind <;> decide +kernel
  exact List.pairwise_pair.1 (hdistinct _ h)

/-- What is wrong with a record of a kind. -/
def faults : RecordKind → Entries → List Fault
  | .file, m => (Source.checkAll (.mapping m)).faults
  | .source, m => (Source.check (.mapping m)).faults
  | .credentials, m => (Credentials.check (.mapping m)).faults
  | .traits, m => (Traits.check (.mapping m)).faults

/-- A stray key is wrong with its record. -/
theorem mem_faults_of_stray {kind : RecordKind} {m : Entries} {f : Fault} (h : f ∈ strayKeys kind.known m) :
    f ∈ kind.faults m := by
  cases kind <;> exact mem_faults_settings h

end RecordKind

/-- The items of a list. -/
def Datum.items : Datum → List Datum
  | .sequence items => items
  | .set items => items
  | _ => []

namespace Source

/-- The records that the data of sources hold, and where they lie. -/
inductive Holds (v : Datum) : RecordKind → List Step → Entries → Prop
  | file {m : Entries} (whole : v = .mapping m) : Holds v .file [] m
  | source {m s : Entries} {list : Datum} {i : Nat} (file : Holds v .file [] m)
      (value : member? "sources" m = some list) (item : list.items[i]? = some (.mapping s)) :
      Holds v .source [.member "sources", .item i] s
  | credentials {path : List Step} {s c : Entries} (source : Holds v .source path s)
      (value : member? "credentials" s = some (.mapping c)) : Holds v .credentials (path ++ [.member "credentials"]) c
  | traits {path : List Step} {s t : Entries} (source : Holds v .source path s)
      (value : member? "traits" s = some (.mapping t)) : Holds v .traits (path ++ [.member "traits"]) t

variable {v : Datum} {m : Entries} {f : Fault}

/-- What is wrong with a source is wrong with the file, behind the index of the source. -/
theorem mem_faults_file {s : Entries} {list : Datum} {i : Nat} (hlist : member? "sources" m = some list)
    (hitem : list.items[i]? = some (.mapping s)) (hf : f ∈ RecordKind.source.faults s) :
    f.behind [.member "sources", .item i] ∈ RecordKind.file.faults m := by
  have heach : f.behind [.item i] ∈ (checkList check list).faults := by
    have hmem := Checked.mem_faults_each hf 0 hitem
    rw [Nat.zero_add] at hmem
    cases list with
    | sequence items => exact hmem
    | set items => exact hmem
    | _ => cases hitem
  rw [RecordKind.faults, checkAll, faults_settings]
  exact List.mem_append_left _ (mem_faults_setting _ (given?_singleton hlist) heach)

/-- What is wrong with the credentials of a source is wrong with the source. -/
theorem mem_faults_credentials {c : Entries} (hvalue : member? "credentials" m = some (.mapping c))
    (hf : f ∈ RecordKind.credentials.faults c) : f.behind [.member "credentials"] ∈ RecordKind.source.faults m := by
  have hoptional : f ∈ (Credentials.checkOptional (.mapping c)).faults := by
    show f ∈ ((Credentials.check (.mapping c)).map some).faults
    rw [Checked.faults_map]
    exact hf
  have hsetting := mem_faults_setting (.valid none) (given?_singleton hvalue) hoptional
  rw [RecordKind.faults, check, faults_settings]
  simp only [Checked.faults_ap, List.mem_append]
  exact .inl (.inl (.inl (.inr hsetting)))

/-- What is wrong with the traits of a source is wrong with the source. -/
theorem mem_faults_traits {t : Entries} (hvalue : member? "traits" m = some (.mapping t))
    (hf : f ∈ RecordKind.traits.faults t) : f.behind [.member "traits"] ∈ RecordKind.source.faults m := by
  have hsetting := mem_faults_setting (.valid .plain) (given?_singleton hvalue) hf
  rw [RecordKind.faults, check, faults_settings]
  simp only [Checked.faults_ap, List.mem_append]
  exact .inl (.inr hsetting)

/-- **What is wrong with a record is wrong with the whole**, behind the path to the record. -/
theorem Holds.mem_faults {kind : RecordKind} {path : List Step} (h : Holds v kind path m) :
    ∀ {f}, f ∈ kind.faults m → f.behind path ∈ (checkAll v).faults := by
  induction h with
  | file whole =>
    intro f hf
    rw [whole]
    exact hf
  | source file value item ih => exact fun hf => ih (mem_faults_file value item hf)
  | credentials source value ih =>
    intro f hf
    rw [Fault.behind_append]
    exact ih (mem_faults_credentials value hf)
  | traits source value ih =>
    intro f hf
    rw [Fault.behind_append]
    exact ih (mem_faults_traits value hf)

/-- A record is refused at a key: the whole is refused, and one of its faults is that the key is not allowed there. -/
def RefusedAt (v : Datum) (path : List Step) (name : String) : Prop :=
  ∃ faults, checkAll v = .invalid faults ∧ ⟨path ++ [.member name], .unknownKey⟩ ∈ faults

/-- A stray key has the whole refused at its place. -/
theorem Holds.refusedAt {kind : RecordKind} {path : List Step} {name : String} (h : Holds v kind path m)
    (hstray : ⟨[.member name], .unknownKey⟩ ∈ strayKeys kind.known m) : RefusedAt v path name := by
  have hmem := h.mem_faults (RecordKind.mem_faults_of_stray hstray)
  unfold RefusedAt
  cases hv : checkAll v with
  | valid sources => rw [hv] at hmem; cases hmem
  | invalid faults =>
    rw [hv] at hmem
    exact ⟨faults, rfl, hmem⟩

/-- An accepted whole holds no record with a stray key. -/
theorem Holds.strayKeys_eq_nil {kind : RecordKind} {path : List Step} {sources : List Source} (h : Holds v kind path m)
    (hv : checkAll v = .valid sources) : strayKeys kind.known m = [] := by
  refine List.eq_nil_iff_forall_not_mem.2 fun f hf => ?_
  have hmem := h.mem_faults (RecordKind.mem_faults_of_stray hf)
  rw [hv] at hmem
  cases hmem

/-- **No key is lost.** Take the data of any sources and any record that they hold: the file, a source, or the
credentials or traits of one. If the data are accepted, each key of the record is a spelling of one of its settings, and
no setting is given under two spellings. A key that spells no setting has the data refused with the fault that this very
key is not allowed, and so has the second spelling of a setting that is given under both, whatever else is wrong.

Keys are texts of characters. Half of a pair of code points, which an escape in a file can write, is none of these. -/
theorem checkAll_keys {kind : RecordKind} {path : List Step} (h : Holds v kind path m) :
    (∀ sources, checkAll v = .valid sources →
      (∀ key ∈ m.map Prod.fst, ∃ name, key = .text name ∧ ∃ spellings ∈ kind.known, name ∈ spellings) ∧
        ∀ spellings ∈ kind.known, ∀ a ∈ spellings, ∀ b ∈ spellings, .text a ∈ m.map Prod.fst →
          .text b ∈ m.map Prod.fst → a = b) ∧
    (∀ name, .text name ∈ m.map Prod.fst → (∀ spellings ∈ kind.known, name ∉ spellings) → RefusedAt v path name) ∧
    ∀ first second, [first, second] ∈ kind.known → .text first ∈ m.map Prod.fst → .text second ∈ m.map Prod.fst →
      RefusedAt v path second := by
  have hmember {name : String} (hkey : .text name ∈ m.map Prod.fst) : member? name m ≠ none := by
    obtain ⟨e, he, hname⟩ := List.mem_map.1 hkey
    exact fun hnone => member?_eq_none_iff.1 hnone e he hname
  refine ⟨fun sources hv => ⟨fun key hkey => ?_, fun spellings hspellings a ha b hb hkeyA hkeyB => ?_⟩, ?_, ?_⟩
  · obtain ⟨e, he, rfl⟩ := List.mem_map.1 hkey
    obtain ⟨name, hname, spellings, hspellings, hgiven⟩ := strayKeys_eq_nil_iff.1 (h.strayKeys_eq_nil hv) e he
    obtain ⟨⟨_, w⟩, hsome, rfl⟩ := Option.map_eq_some_iff.1 hgiven
    exact ⟨_, hname, spellings, hspellings, (mem_of_given? hsome).1⟩
  · exact eq_of_strayKeys kind.unambiguous_known (h.strayKeys_eq_nil hv) hspellings ha hb (hmember hkeyA)
      (hmember hkeyB)
  · exact fun name hkey hunknown => h.refusedAt (mem_strayKeys_of_unknown hkey hunknown)
  · exact fun first second hspellings hfirst hsecond => h.refusedAt
      (mem_strayKeys_of_twice kind.unambiguous_known hspellings (RecordKind.ne_of_mem_known hspellings) hfirst hsecond)

/-- Traits of which one is misspelt. -/
def misspeltTraits : Entries := [(.text "send-success-for-unstabel", .bool true)]

/-- A source with these traits, a setting in both spellings, and a number in place of its jobs. -/
def misspeltSource : Entries :=
  [(.text "repo-owner", .text "team"), (.text "repo_owner", .text "team"), (.text "jobs", .int 3),
    (.text "traits", .mapping misspeltTraits)]

/-- A file of sources. -/
def fileData (sources : List Datum) : Datum := .mapping [(.text "sources", .sequence sources)]

/-- The misspelt source is refused at its keys, behind a source that is in order. That source alone is accepted, and all
its keys are spellings of its settings. -/
theorem checkAll_keys_misspelt :
    let sources := [mixedData "token-env", .mapping misspeltSource]
    let path : List Step := [.member "sources", .item 1]
    (Holds (fileData sources) .source path misspeltSource ∧ RefusedAt (fileData sources) path "repo_owner") ∧
      (Holds (fileData sources) .traits (path ++ [.member "traits"]) misspeltTraits ∧
        RefusedAt (fileData sources) (path ++ [.member "traits"]) "send-success-for-unstabel") ∧
      checkAll (fileData [mixedData "token-env"]) = .valid [mixedSource] ∧
        ∃ m, Holds (fileData [mixedData "token-env"]) .source [.member "sources", .item 0] m ∧
          ∀ key ∈ m.map Prod.fst, ∃ name, key = .text name ∧ ∃ spellings ∈ known, name ∈ spellings := by
  intro sources path
  have hsource : Holds (fileData sources) .source path misspeltSource := .source (.file rfl) rfl rfl
  have htraits : Holds (fileData sources) .traits (path ++ [.member "traits"]) misspeltTraits := .traits hsource rfl
  have hvalid : checkAll (fileData [mixedData "token-env"]) = .valid [mixedSource] := by decide +kernel
  have hfine : Holds (fileData [mixedData "token-env"]) .source [.member "sources", .item 0] _ :=
    .source (.file rfl) rfl rfl
  refine ⟨⟨hsource, ?_⟩, ⟨htraits, ?_⟩, hvalid, _, hfine, ((checkAll_keys hfine).1 _ hvalid).1⟩
  · exact (checkAll_keys hsource).2.2 "repo-owner" "repo_owner" (by decide +kernel) (by simp [misspeltSource])
      (by simp [misspeltSource])
  · exact (checkAll_keys htraits).2.1 _ (by simp [misspeltTraits]) (by decide +kernel)

end Source

end CommitStatus
