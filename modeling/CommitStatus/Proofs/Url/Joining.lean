import CommitStatus.Proofs.Url.Reading
import CommitStatus.Proofs.Url.Slashes

/-!
# A root URL and the path of a build

The URL of a build is the root URL without the slashes at its end, and the path of the build behind a slash. Neither
moves the end of the authority: what stands behind the authority may be continued (`Spells.append`), and what slashes or
a path were put behind has its authority already (`Spells.of_append_slashes`, `Spells.of_append_path`). So the host and
port of a build's URL are those of the root, and the one is accepted just if the other is (`check_ofBuild`).
-/

namespace CommitStatus.Url

open Text

variable {s t u scheme authority rest : List Char}

/-! ## What is read of a text that is continued -/

/-- A tab, or a character of the end of a line: these are not read. -/
def isDropped (c : Char) : Bool := c == '\t' || c == '\n' || c == '\r'

theorem clean_eq (s : List Char) : clean s = (s.dropWhile (·.toNat ≤ 0x20)).filter (!isDropped ·) := rfl

/-- A text that does not begin with what is not read in front is read behind another as it is alone. -/
theorem clean_append (s : List Char) (ht : ∀ c ∈ t.head?, ¬c.toNat ≤ 0x20) :
    clean (s ++ t) = clean s ++ t.filter (!isDropped ·) := by
  induction s with
  | nil =>
    cases t with
    | nil => rfl
    | cons c t => simp only [List.nil_append, clean_eq, List.dropWhile_cons, ht c rfl, decide_false]; rfl
  | cons c s ih =>
    by_cases hc : c.toNat ≤ 0x20
    · simpa [clean_eq, hc] using ih
    · simp only [clean_eq, List.cons_append, List.dropWhile_cons, hc, decide_false, Bool.false_eq_true, if_false]
      rw [← List.cons_append, List.filter_append]

/-- Slashes behind a text are read behind it. -/
theorem clean_append_slashes (s : List Char) (ht : ∀ c ∈ t, c = '/') :
    clean (s ++ t) = clean s ++ t.filter (!isDropped ·) :=
  clean_append s fun c hc => by
    rw [ht c (List.mem_of_mem_head? hc)]
    decide

/-- A text is read as it is but for what stands in front, unless it holds a character that is not read. -/
theorem exists_append_clean (h : ∀ c ∈ s, isDropped c = false) : ∃ front, s = front ++ clean s := by
  have hkept : clean s = s.dropWhile (·.toNat ≤ 0x20) := by
    rw [clean_eq, List.filter_eq_self]
    intro c hc
    rw [h c ((List.dropWhile_suffix _).subset hc), Bool.not_false]
  exact ⟨s.takeWhile (·.toNat ≤ 0x20), by rw [hkept, List.takeWhile_append_dropWhile]⟩

/-! ## The authority of a text that is continued -/

/-- What is put behind a URL, be it a path, belongs to its rest. -/
theorem Spells.append (h : Spells s scheme authority rest) (ht : ∀ c ∈ t.head?, endsAuthority c = true) :
    Spells (s ++ t) scheme authority (rest ++ t) := by
  refine ⟨by rw [h.text]; simp, h.scheme, h.authority, ?_⟩
  cases rest with
  | nil => exact ht
  | cons c rest => exact h.rest

/-- The scheme, the colon and the first slash hold no other slash, and there is none behind the second one. -/
theorem Spells.slash_notMem (h : Spells s scheme authority rest) : '/' ∉ scheme ++ [':'] ∧ '/' ∉ authority := by
  obtain ⟨_, _, -, -, hscheme⟩ := h.scheme
  refine ⟨fun hmem => ?_, fun hmem => absurd (h.authority _ hmem) (by decide)⟩
  rcases List.mem_append.1 hmem with hmem | hmem
  · exact absurd (hscheme _ hmem) (by decide)
  · exact absurd hmem (by decide)

/-- Where a text is put behind another, the authority ends within the first or behind it. -/
theorem Spells.exists_cut (h : Spells (s ++ t) scheme authority rest) :
    (∃ rest', Spells s scheme authority rest') ∨
      ∃ c inner, scheme ++ ':' :: '/' :: '/' :: authority = s ++ c :: inner ∧ t = c :: inner ++ rest := by
  have htext : s ++ t = (scheme ++ ':' :: '/' :: '/' :: authority) ++ rest := by rw [h.text]; simp
  rcases List.append_eq_append_iff.1 htext with ⟨inner, hs, ht⟩ | ⟨rest', hs, hrest⟩
  · cases inner with
    | nil =>
      refine .inl ⟨[], ?_, h.scheme, h.authority, by simp⟩
      rw [List.append_nil] at hs ⊢
      exact hs.symm
    | cons c inner => exact .inr ⟨c, inner, hs, ht⟩
  · refine .inl ⟨rest', by rw [hs]; simp, h.scheme, h.authority, ?_⟩
    cases rest' with
    | nil => simp
    | cons c rest' =>
      rw [hrest] at h
      exact h.rest

/-- What slashes were put behind has its authority already. -/
theorem Spells.of_append_slashes (h : Spells (s ++ t) scheme authority rest) (hne : authority ≠ [])
    (ht : ∀ c ∈ t, c = '/') : ∃ rest', Spells s scheme authority rest' := by
  rcases h.exists_cut with hs | ⟨c, inner, hcut, rfl⟩
  · exact hs
  · -- the authority would end with a slash
    exfalso
    have hlast := congrArg List.getLast? hcut
    rw [List.getLast?_append_of_ne_nil _ (by simp), List.getLast?_append_of_ne_nil _ (by simp)] at hlast
    obtain ⟨d, hd⟩ := Option.ne_none_iff_exists'.1 (mt List.getLast?_eq_none_iff.1 hne)
    have hd' : (':' :: '/' :: '/' :: authority).getLast? = some d := by
      simp [List.getLast?_cons, hd]
    rw [hd'] at hlast
    obtain rfl := ht d (List.mem_append_left _ (List.mem_of_getLast? hlast.symm))
    exact h.slash_notMem.2 (List.mem_of_getLast? hd)

/-- What a path was put behind has its authority already, unless a slash stands before it or two slashes do. -/
theorem Spells.of_append_path (h : Spells (s ++ '/' :: t) scheme authority rest) (hs : ∀ u, s ≠ u ++ ['/'])
    (ht : t.head? ≠ some '/') : ∃ rest', Spells s scheme authority rest' := by
  rcases h.exists_cut with hwithin | ⟨c, inner, hcut, hpath⟩
  · exact hwithin
  · exfalso
    obtain ⟨rfl, rfl⟩ : '/' = c ∧ t = inner ++ rest := by simpa using hpath
    obtain ⟨hscheme, hauthority⟩ := h.slash_notMem
    have htext : (scheme ++ [':']) ++ '/' :: '/' :: authority = s ++ '/' :: inner := by simpa using hcut
    rcases notMem_or_exists_cut '/' s with hnot | ⟨front, behind, rfl, hfront⟩
    · -- the slash before the path is the first of all, so the path begins with the second
      have hafter := after?_append_cons hscheme ('/' :: authority)
      rw [htext, after?_append_cons hnot, Option.some.injEq] at hafter
      rw [hafter] at ht
      exact ht rfl
    · -- the first slash lies before, so that before the path is the second or stands in the authority
      have hafter := after?_append_cons hscheme ('/' :: authority)
      rw [htext, List.append_assoc, List.cons_append, after?_append_cons hfront, Option.some.injEq] at hafter
      cases behind with
      | nil => exact hs front rfl
      | cons d behind =>
        obtain ⟨-, hmem⟩ : d = '/' ∧ behind ++ '/' :: inner = authority := by simpa using hafter
        exact hauthority (by rw [← hmem]; simp)

/-! ## Roots -/

/-- The authority decides on the host and the port of a URL. -/
theorem place?_of_spells {url : String} (h : Spells (clean url.toList) scheme authority rest) :
    place? url = (Authority.read? authority).bind fun place => if portFits place.port then some place else none := by
  unfold place?
  rw [scheme?_eq_some_iff.2 ⟨h.scheme, h.text⟩]
  simp only [Option.bind_eq_bind, Option.bind_some]
  rw [authority?_eq_some_iff.2 ⟨rest, rfl, h.authority, h.rest⟩, Option.getD_some]

theorem place?_congr {url url' : String} {rest' : List Char} (h : Spells (clean url.toList) scheme authority rest)
    (h' : Spells (clean url'.toList) scheme authority rest') : place? url = place? url' := by
  rw [place?_of_spells h, place?_of_spells h']

/-- A URL in which a host is found has a scheme, and an authority that is not empty. -/
theorem spells_of_place? {url : String} {place : Authority} (h : place? url = some place) (hhost : place.host ≠ []) :
    ∃ scheme authority rest, Spells (clean url.toList) scheme authority rest ∧ authority ≠ [] := by
  obtain ⟨scheme, -, -, authority, rest, hspells, -⟩ := exists_reads h hhost
  refine ⟨scheme, authority, rest, hspells, ?_⟩
  rintro rfl
  -- the host of an empty authority is empty
  rw [place?_of_spells hspells] at h
  obtain ⟨place', hread, hplace⟩ := Option.bind_eq_some_iff.1 h
  obtain ⟨-, -, rfl⟩ := Authority.read?_eq_some_iff.1 hread
  split at hplace
  · cases hplace
    exact hhost rfl
  · cases hplace

/-- A URL that is accepted has a scheme, and an authority that is not empty. -/
theorem spells_of_check {cloud : Bool} {url : String} (h : check cloud url = .ok ()) :
    ∃ scheme authority rest, Spells (clean url.toList) scheme authority rest ∧ authority ≠ [] := by
  unfold check at h
  cases hplace : place? url with
  | none => simp [hplace] at h
  | some place =>
    simp only [hplace] at h
    exact spells_of_place? hplace (checkHost_eq_ok_iff.1 h).1

/-- URLs with one scheme and one authority are accepted alike. -/
theorem check_congr {url url' : String} {rest' : List Char} (h : Spells (clean url.toList) scheme authority rest)
    (h' : Spells (clean url'.toList) scheme authority rest') (cloud : Bool) : check cloud url = check cloud url' := by
  rw [check, check, place?_congr h h']

/-- The URL of a build that brings none along: the root URL, and the path of the build behind a slash. -/
theorem exists_ofBuild {root : String} {build : Build} (hroot : root ≠ "") (hurl : build.url = none) :
    ∃ url, ofBuild (some root) build = .ok url ∧
      url.toList = trimRightBy (· == '/') root.toList ++ '/' ::
        (trimBy (· == '/') build.job.url.toList ++ '/' :: (build.numberText.toList ++ ['/'])) := by
  have hempty : root.isEmpty = false := by simpa using hroot
  simp [ofBuild, hempty, hurl, withoutSlashes]

section Root

variable {root url : String} {path : List Char}

/-- The authority of a root is that of the URLs under it. -/
theorem exists_spells_under (h : Spells (clean root.toList) scheme authority rest) (hne : authority ≠ [])
    (htext : url.toList = trimRightBy (· == '/') root.toList ++ '/' :: path) :
    ∃ rest', Spells (clean url.toList) scheme authority rest' := by
  obtain ⟨slashes, hroot, hslashes⟩ := exists_slashes root.toList
  rw [hroot, clean_append_slashes _ hslashes] at h
  obtain ⟨rest', hbase⟩ := h.of_append_slashes hne fun c hc => hslashes c (List.mem_of_mem_filter hc)
  rw [htext, clean_append _ (by simp)]
  exact ⟨_, hbase.append (by simp [isDropped, endsAuthority])⟩

/-- The authority of a URL under a root is that of the root, where the path begins with something that is read and is no
slash, and all of the root is read. -/
theorem exists_spells_over {c : Char} (h : Spells (clean url.toList) scheme authority rest)
    (htext : url.toList = trimRightBy (· == '/') root.toList ++ '/' :: c :: path) (hc : c ≠ '/')
    (hread : isDropped c = false) (hroot : ∀ d ∈ root.toList, isDropped d = false) :
    ∃ rest', Spells (clean root.toList) scheme authority rest' := by
  obtain ⟨slashes, hslashed, hslashes⟩ := exists_slashes root.toList
  rw [htext, clean_append _ (by simp)] at h
  have hpath : ('/' :: c :: path).filter (!isDropped ·) = '/' :: c :: path.filter (!isDropped ·) := by
    rw [List.filter_cons_of_pos (by decide), List.filter_cons_of_pos (by simp [hread])]
  rw [hpath] at h
  have hbase : ∃ rest', Spells (clean (trimRightBy (· == '/') root.toList)) scheme authority rest' := by
    refine h.of_append_path (fun u hu => ?_) (by simpa using hc)
    -- what is read of the root ends as the root does
    obtain ⟨front, hfront⟩ := exists_append_clean (s := trimRightBy (· == '/') root.toList) fun d hd =>
      hroot d (hslashed ▸ List.mem_append_left _ hd)
    rw [hu, ← List.append_assoc] at hfront
    exact trimRightBy_ne_append_slash _ _ hfront
  obtain ⟨rest', hbase⟩ := hbase
  rw [hslashed, clean_append_slashes _ hslashes]
  refine ⟨_, hbase.append fun d hd => ?_⟩
  rw [hslashes d (List.mem_of_mem_filter (List.mem_of_mem_head? hd))]
  rfl

end Root

/-- **The check of a root URL tells whether builds can be linked to.** Take any root URL and any build that brings no
URL of its own along. If the root is accepted, there is a URL of the build, it is accepted, and its host and port are
those of the root. If the root is empty or refused, there is no URL of the build or it is refused, where the root and
the job's URL hold no tabs and ends of lines, which are not read, and the job's URL holds more than slashes. -/
theorem check_ofBuild {root : String} {build : Build} (hurl : build.url = none) (cloud : Bool) :
    (check cloud root = .ok () →
      ∃ url place, ofBuild (some root) build = .ok url ∧ check cloud url = .ok () ∧ place? root = some place ∧
        place? url = some place) ∧
    ((root = "" ∨ ∃ e, check cloud root = .error e) →
      (∀ c ∈ root.toList ++ build.job.url.toList, isDropped c = false) → (∃ c ∈ build.job.url.toList, c ≠ '/') →
      ofBuild (some root) build = .error .notConfigured ∨
        ∃ url e, ofBuild (some root) build = .ok url ∧ check cloud url = .error e) := by
  constructor
  · intro hcheck
    obtain ⟨scheme, authority, rest, hspells, hne⟩ := spells_of_check hcheck
    have hroot : root ≠ "" := by
      rintro rfl
      simpa [clean] using hspells.text
    obtain ⟨url, hof, htext⟩ := exists_ofBuild hroot hurl
    obtain ⟨rest', hunder⟩ := exists_spells_under hspells hne htext
    have hplace : ∃ place, place? root = some place := by
      cases h : place? root with
      | none => simp [check, h] at hcheck
      | some place => exact ⟨place, rfl⟩
    obtain ⟨place, hplace⟩ := hplace
    exact ⟨url, place, hof, check_congr hspells hunder cloud ▸ hcheck, hplace, place?_congr hspells hunder ▸ hplace⟩
  · intro hrefused hread hjob
    by_cases hroot : root = ""
    · exact .inl (by simp [ofBuild, hroot])
    · right
      obtain ⟨e, he⟩ := hrefused.resolve_left hroot
      obtain ⟨url, hof, htext⟩ := exists_ofBuild hroot hurl
      cases hcheck : check cloud url with
      | error e => exact ⟨url, e, hof, hcheck⟩
      | ok _ =>
        -- the root would be accepted as well
        exfalso
        obtain ⟨c, hc, hne⟩ := hjob
        obtain ⟨d, kept, htrim, hd, hmem⟩ := trimBy_eq_cons hc hne
        rw [htrim] at htext
        obtain ⟨scheme, authority, rest, hspells, -⟩ := spells_of_check hcheck
        obtain ⟨rest', hover⟩ := exists_spells_over hspells htext hd
          (hread d (List.mem_append_right _ hmem)) fun c hc => hread c (List.mem_append_left _ hc)
        rw [check_congr hover hspells, hcheck] at he
        cases he

/-- A root with a host and a port, and one that lacks the second slash before its host: builds have links under the
first only. -/
theorem check_ofBuild_secondSlash :
    let build : Build := ⟨7, "app #7", none, none, ⟨"app", "/ci.example.com/job/app/", ⟨""⟩⟩, none, none⟩
    let place : Authority := ⟨"ci.example.com".toList, "8443".toList⟩
    build.url = none ∧
      (check true "https://user@CI.example.com:8443//" = .ok () ∧
        place? "https://user@CI.example.com:8443//" = some place ∧
        ∃ url, ofBuild (some "https://user@CI.example.com:8443//") build = .ok url ∧ check true url = .ok () ∧
          place? url = some place) ∧
      check true "https:/" = .error .malformed ∧
        ∃ url e, ofBuild (some "https:/") build = .ok url ∧ check true url = .error e := by
  intro build place
  have haccepted : check true "https://user@CI.example.com:8443//" = .ok () := by decide +kernel
  have hplace : place? "https://user@CI.example.com:8443//" = some place := by decide +kernel
  have hrefused : check true "https:/" = .error .malformed := by decide +kernel
  have hnone : build.url = none := rfl
  obtain ⟨url, place', hof, hcheck, hplace', hurl⟩ := (check_ofBuild hnone true).1 haccepted
  obtain rfl : place' = place := Option.some.inj (hplace'.symm.trans hplace)
  refine ⟨rfl, ⟨haccepted, hplace, url, hof, hcheck, hurl⟩, hrefused, ?_⟩
  have hroot : "https:/" ≠ "" := by decide
  have hnot : ofBuild (some "https:/") build ≠ .error .notConfigured := by
    obtain ⟨url, hof, -⟩ := exists_ofBuild hroot hnone
    simp [hof]
  have hread : ∀ c ∈ "https:/".toList ++ build.job.url.toList, isDropped c = false := by
    have hany : ("https:/".toList ++ build.job.url.toList).any isDropped = false := by decide +kernel
    simpa only [List.any_eq_false, Bool.not_eq_true] using hany
  have hjob : 'j' ∈ build.job.url.toList := by decide +kernel
  exact ((check_ofBuild hnone true).2 (.inr ⟨_, hrefused⟩) hread ⟨'j', hjob, by decide⟩).resolve_left hnot

end CommitStatus.Url
