import CommitStatus.Proofs.Source.Records
import CommitStatus.Source.Writer
import Mathlib.Data.List.DropRight

/-!
# Sources in either spelling

What is written of a source is read back as the source, in either spelling (`Source.check_toJson`). The keys of the data
that a source is read from may be spelled in the other way one by one, its own, those of its credentials and those of
its traits (`Source.Respelt`): the source stays the same (`Source.check_keeps`).
-/

namespace CommitStatus

open Record Datum

/-! ## Other spellings -/

theorem Traits.unambiguous_known : Unambiguous Traits.known := by
  unfold Unambiguous
  decide

theorem Credentials.unambiguous_known : Unambiguous Credentials.known := by
  unfold Unambiguous
  decide

theorem Source.unambiguous_known : Unambiguous Source.known := by
  unfold Unambiguous
  decide +kernel

/-- The settings that a source is read from. -/
structure Source.ReadFrom (s : Source) (m : Entries) : Prop where
  serverUrl : setting (spelt ["server", "url"]) (.valid cloudUrl) checkServerUrl m = .valid s.serverUrl
  repoOwner : setting (spelt ["repo", "owner"]) (missing (spelt ["repo", "owner"])) checkText m = .valid s.repoOwner
  repository : setting ["repository"] (missing ["repository"]) checkText m = .valid s.repository
  credentials : setting ["credentials"] (.valid none) Credentials.checkOptional m = .valid s.credentials
  jobs : setting ["jobs"] (.valid []) (checkList checkText) m = .valid s.jobs
  traits : setting ["traits"] (.valid .plain) Traits.check m = .valid s.traits

/-- A source is read from a mapping of its settings that has no other keys. -/
theorem Source.check_eq_valid_iff {v : Datum} {s : Source} :
    check v = .valid s ↔ ∃ m, v = .mapping m ∧ strayKeys known m = [] ∧ s.ReadFrom m := by
  unfold check
  rw [settings_eq_valid_iff]
  refine exists_congr fun m => and_congr_right fun _ => and_congr_right fun _ => ⟨fun h => ?_, fun h => ?_⟩
  · simp only [Checked.ap_eq_valid_iff, Checked.map_eq_valid_iff] at h
    obtain ⟨_, _, ⟨_, _, ⟨_, _, ⟨_, _, ⟨_, _, ⟨_, hurl, rfl⟩, howner, rfl⟩, hrepository, rfl⟩, hcredentials, rfl⟩,
      hjobs, rfl⟩, htraits, rfl⟩ := h
    exact ⟨hurl, howner, hrepository, hcredentials, hjobs, htraits⟩
  · simp only [h.serverUrl, h.repoOwner, h.repository, h.credentials, h.jobs, h.traits, Checked.map, Checked.ap]

section Respelling

variable {v w : Datum}

/-- A record of settings is kept when one of its keys is spelled in another way. -/
theorem Record.Respelt.keeps {α : Type} {known : List Spellings} {model : String} {check : Entries → Checked α}
    (h : Respelt known v w) (hknown : Unambiguous known)
    (hcheck : ∀ {m m'}, (∀ spellings ∈ known, SameValue spellings m m') → (check m).Keeps (check m')) :
    (settings model known check v).Keeps (settings model known check w) := by
  intro a ha
  obtain ⟨m, rfl, hstray, hm⟩ := settings_eq_valid_iff.1 ha
  obtain ⟨m', rfl⟩ := h.exists_mapping
  obtain ⟨hstray', hsame⟩ := h.sameValues hknown hstray
  exact settings_eq_valid_iff.2 ⟨m', rfl, hstray', hcheck hsame a hm⟩

theorem Traits.check_keeps (h : Respelt Traits.known v w) : (check v).Keeps (check w) :=
  h.keeps unambiguous_known fun hsame =>
    ((((hsame _ (by simp [known])).keeps _ _).map _
      |>.ap ((hsame _ (by simp [known])).keeps _ _))
      |>.ap ((hsame _ (by simp [known])).keeps _ _))
      |>.ap ((hsame _ (by simp [known])).keeps _ _)

theorem Credentials.check_keeps (h : Respelt Credentials.known v w) : (check v).Keeps (check w) :=
  h.keeps unambiguous_known fun hsame =>
    ((hsame _ (by simp [known])).keeps _ _).map _ |>.ap ((hsame _ (by simp [known])).keeps _ _)

theorem Credentials.checkOptional_keeps (h : Respelt Credentials.known v w) :
    (checkOptional v).Keeps (checkOptional w) := by
  have hcheck := (check_keeps h).map some
  cases h
  exact hcheck

/-- The data of a source, and the data in which one key is spelled in another way: one of its own, one of its
credentials, or one of its traits. -/
inductive Source.Respelt : Datum → Datum → Prop
  | own {v w : Datum} (h : Record.Respelt Source.known v w) : Respelt v w
  | credentials {pre post : Entries} {v w : Datum} (h : Record.Respelt Credentials.known v w) :
      Respelt (.mapping (pre ++ (.text "credentials", v) :: post)) (.mapping (pre ++ (.text "credentials", w) :: post))
  | traits {pre post : Entries} {v w : Datum} (h : Record.Respelt Traits.known v w) :
      Respelt (.mapping (pre ++ (.text "traits", v) :: post)) (.mapping (pre ++ (.text "traits", w) :: post))

/-- A source is kept if its settings are. -/
theorem Source.ReadFrom.keeps {s : Source} {m m' : Entries} (h : s.ReadFrom m)
    (hsame : ∀ spellings ∈ known, "credentials" ∉ spellings → "traits" ∉ spellings → SameValue spellings m m')
    (hcredentials : (setting ["credentials"] (.valid none) Credentials.checkOptional m).Keeps
      (setting ["credentials"] (.valid none) Credentials.checkOptional m'))
    (htraits : (setting ["traits"] (.valid .plain) Traits.check m).Keeps
      (setting ["traits"] (.valid .plain) Traits.check m')) : s.ReadFrom m' where
  serverUrl := (hsame _ (by simp [known]) (by decide) (by decide)).keeps _ _ _ h.serverUrl
  repoOwner := (hsame _ (by simp [known]) (by decide) (by decide)).keeps _ _ _ h.repoOwner
  repository := (hsame _ (by simp [known]) (by decide) (by decide)).keeps _ _ _ h.repository
  credentials := hcredentials _ h.credentials
  jobs := (hsame _ (by simp [known]) (by decide) (by decide)).keeps _ _ _ h.jobs
  traits := htraits _ h.traits

/-- **A source is kept when one of its keys is spelled in another way.** -/
theorem Source.check_keeps (h : Source.Respelt v w) : (check v).Keeps (check w) := by
  intro s hs
  obtain ⟨m, rfl, hstray, hread⟩ := check_eq_valid_iff.1 hs
  generalize hv : Datum.mapping m = v at h
  cases h with
  | own h =>
    subst hv
    obtain ⟨m', rfl⟩ := h.exists_mapping
    obtain ⟨hstray', hsame⟩ := h.sameValues unambiguous_known hstray
    refine check_eq_valid_iff.2 ⟨m', rfl, hstray', hread.keeps (fun _ hmem _ _ => hsame _ hmem) ?_ ?_⟩
    · exact (hsame _ (by simp [known])).keeps _ _
    · exact (hsame _ (by simp [known])).keeps _ _
  | @credentials pre post v w h =>
    cases hv
    have hsame : ∀ spellings, "credentials" ∉ spellings →
        SameValue spellings (pre ++ (.text "credentials", v) :: post) (pre ++ (.text "credentials", w) :: post) := by
      intro spellings hc
      rw [SameValue, given?_between_of_notMem hc, given?_between_of_notMem hc]
    refine check_eq_valid_iff.2 ⟨_, rfl, strayKeys_between hstray, hread.keeps (fun _ _ hc _ => hsame _ hc) ?_ ?_⟩
    · exact keeps_between (Credentials.checkOptional_keeps h)
    · exact (hsame ["traits"] (by decide)).keeps _ _
  | @traits pre post v w h =>
    cases hv
    have hsame : ∀ spellings, "traits" ∉ spellings →
        SameValue spellings (pre ++ (.text "traits", v) :: post) (pre ++ (.text "traits", w) :: post) := by
      intro spellings ht
      rw [SameValue, given?_between_of_notMem ht, given?_between_of_notMem ht]
    refine check_eq_valid_iff.2 ⟨_, rfl, strayKeys_between hstray, hread.keeps (fun _ _ _ ht => hsame _ ht) ?_ ?_⟩
    · exact (hsame ["credentials"] (by decide)).keeps _ _
    · exact keeps_between (Traits.check_keeps h)

end Respelling

/-! ## Written and read -/

/-- A URL without slashes at its end. -/
def Trimmed (url : String) : Prop := Text.trimRightBy (· == '/') url.toList = url.toList

theorem trimmed_cloudUrl : Trimmed cloudUrl := by
  unfold Trimmed
  decide +kernel

theorem Source.trimmed_of_checkServerUrl {v : Datum} {url : String} (h : checkServerUrl v = .valid url) :
    Trimmed url := by
  obtain ⟨s, -, rfl⟩ := Checked.map_eq_valid_iff.1 h
  rw [Trimmed, String.toList_ofList]
  exact List.rdropWhile_idempotent _ _

/-- The URL of a source that was read has no slash at its end. -/
theorem Source.trimmed_serverUrl {v : Datum} {s : Source} (h : check v = .valid s) : Trimmed s.serverUrl := by
  obtain ⟨m, -, -, hread⟩ := check_eq_valid_iff.1 h
  have hurl := setting_eq_valid_iff.1 hread.serverUrl
  cases hgiven : (given? (spelt ["server", "url"]) m).map Prod.snd with
  | none =>
    rw [hgiven, Option.elim_none, Checked.valid.injEq] at hurl
    rw [← hurl]
    exact trimmed_cloudUrl
  | some u =>
    rw [hgiven] at hurl
    exact trimmed_of_checkServerUrl hurl

theorem Traits.check_toJson (sp : Spelling) (t : Traits) : check (ofJson (t.toJson sp)) = .valid t := by
  cases sp <;> rfl

theorem Credentials.checkOptional_toJson (sp : Spelling) (c : Option Credentials) :
    checkOptional (ofJson ((c.map (Credentials.toJson sp)).getD .null)) = .valid c := by
  cases c with
  | none => rfl
  | some c => cases sp <;> rfl

theorem checkList_toJson (texts : List String) :
    checkList checkText (ofJson (.array (texts.map .string))) = .valid texts := by
  have heach : ∀ start, Checked.each checkText start (ofJsonItems (texts.map .string)) = .valid texts := by
    induction texts with
    | nil => exact fun _ => rfl
    | cons t texts ih =>
      intro start
      simp only [List.map_cons, ofJsonItems, Checked.each, ih]
      rfl
  exact heach 0

/-- What is written of a source is read back, in either spelling. -/
theorem Source.check_toJson {s : Source} (hurl : Trimmed s.serverUrl) (sp : Spelling) :
    check (ofJson (s.toJson sp)) = .valid s := by
  have hserver : checkServerUrl (.text s.serverUrl) = .valid s.serverUrl := by
    simp only [checkServerUrl, checkText, Checked.map, show _ = _ from hurl, String.ofList_toList]
  have hcredentials := Credentials.checkOptional_toJson sp s.credentials
  have hjobs := checkList_toJson s.jobs
  have htraits := Traits.check_toJson sp s.traits
  cases sp <;>
  · refine check_eq_valid_iff.2 ⟨_, rfl, rfl, ?_⟩
    exact ⟨setting_eq_valid_iff.2 hserver, rfl, rfl, setting_eq_valid_iff.2 hcredentials, setting_eq_valid_iff.2 hjobs,
      setting_eq_valid_iff.2 htraits⟩

/-- **Sources survive being written and read.** A source that was read from data is read back from what is written of it
in either spelling, and it is read as well from the data in which one key is spelled in the other way: one of the
source's own, of its credentials, or of its traits. -/
theorem Source.check_written_or_respelt {v : Datum} {s : Source} (h : check v = .valid s) :
    (∀ sp, check (ofJson (s.toJson sp)) = .valid s) ∧ ∀ w, Source.Respelt v w → check w = .valid s :=
  ⟨check_toJson (trimmed_serverUrl h), fun _ hrespelt => check_keeps hrespelt s h⟩

/-- A source with keys in either spelling, the setting of a trait among them. -/
def mixedData (tokenKey : String) : Datum :=
  .mapping [(.text "repo_owner", .text "team"), (.text "repository", .text "shared"),
    (.text "server-url", .text "https://bitbucket.example.com/"),
    (.text "credentials", .mapping [(.text "username", .text "ci"), (.text tokenKey, .text "TOKEN")]),
    (.text "traits", .mapping [(.text "exclude_origin_pr_branches", .text "yes")])]

/-- The source that `mixedData` is read as. -/
def mixedSource : Source :=
  ⟨"https://bitbucket.example.com", "team", "shared", some ⟨"ci", "TOKEN"⟩, [], ⟨false, false, false, true⟩⟩

theorem mixedData_respelt : Source.Respelt (mixedData "token-env") (mixedData "token_env") := by
  have hkey := @Record.Respelt.key Credentials.known [(.text "username", .text "ci")] [] (spelt ["token", "env"])
    "token-env" "token_env" (.text "TOKEN") (by decide) (by decide) (by decide) (by simp)
  exact @Source.Respelt.credentials [_, _, _] [_] _ _ hkey

theorem Source.check_written_or_respelt_mixedData :
    check (mixedData "token-env") = .valid mixedSource ∧
      Source.Respelt (mixedData "token-env") (mixedData "token_env") ∧
      (∀ sp, check (ofJson (mixedSource.toJson sp)) = .valid mixedSource) ∧
      ∀ w, Source.Respelt (mixedData "token-env") w → check w = .valid mixedSource := by
  have hcheck : check (mixedData "token-env") = .valid mixedSource := by decide +kernel
  exact ⟨hcheck, mixedData_respelt, check_written_or_respelt hcheck⟩

end CommitStatus
