import CommitStatus.Decimal.Integer
import CommitStatus.Proofs.Text.LowerCase
import CommitStatus.Url.Root

/-!
# How a URL is read

A URL is put together from a scheme, an authority and a rest (`Url.Reads`); an authority from a user, if it has one, and
a place (`AuthorityReads`); a place from a host and a port (`PlaceReads`). The readers take these parts out again
(`ofText_of_reads`, `place?_of_reads`), and what they read was put together so (`exists_authorityReads`,
`exists_reads`).

A URL that passes the check can be linked to: however it is read, its host and its port are in order
(`linkable_of_check`).
-/

namespace CommitStatus.Url

open Text

variable {url : String} {scheme host authority place rest : List Char} {port : Option (List Char)}

/-! ## The parts of a URL -/

/-- A scheme is a letter, and letters, digits and a few marks behind it. -/
def IsScheme (scheme : List Char) : Prop :=
  ∃ c cs, scheme = c :: cs ∧ c.isAlpha = true ∧ ∀ d ∈ scheme, isSchemeChar d = true

/-- A port as it stands behind its host. -/
def portText : Option (List Char) → List Char
  | none => []
  | some port => ':' :: port

/-- A place is a host and a port. A host ends at the first colon, or it stands in brackets, the closing one of which may
be left out. -/
inductive PlaceReads : List Char → List Char → Option (List Char) → Prop
  | plain {host : List Char} {port : Option (List Char)} (colon : ':' ∉ host) (bracket : '[' ∉ host ++ portText port) :
      PlaceReads (host ++ portText port) host port
  | bracketed {host : List Char} (port : Option (List Char)) (bracket : ']' ∉ host) :
      PlaceReads ('[' :: (host ++ ']' :: portText port)) host port
  | unclosed {host : List Char} (bracket : ']' ∉ host) : PlaceReads ('[' :: host) host none

/-- An authority is a place, or a place with a user and an at sign in front of it. -/
inductive AuthorityReads : List Char → List Char → Option (List Char) → Prop
  | anonymous {place host : List Char} {port : Option (List Char)} (at_ : '@' ∉ place)
      (reads : PlaceReads place host port) : AuthorityReads place host port
  | withUser {place host : List Char} {port : Option (List Char)} (user : List Char) (at_ : '@' ∉ place)
      (reads : PlaceReads place host port) : AuthorityReads (user ++ '@' :: place) host port

/-- A text is `scheme://authority` with something behind it that does not belong to the authority. -/
structure Spells (s scheme authority rest : List Char) : Prop where
  text : s = scheme ++ ':' :: '/' :: '/' :: (authority ++ rest)
  scheme : IsScheme scheme
  authority : ∀ c ∈ authority, endsAuthority c = false
  rest : ∀ c ∈ rest.head?, endsAuthority c = true

/-- A URL has a scheme, a host and perhaps a port. -/
def Reads (url : String) (scheme host : List Char) (port : Option (List Char)) : Prop :=
  ∃ authority rest, Spells (clean url.toList) scheme authority rest ∧ AuthorityReads authority host port

/-! ## Reading takes the parts out -/

theorem scheme?_eq_some_iff {s : List Char} :
    scheme? s = some (scheme, rest) ↔ IsScheme scheme ∧ s = scheme ++ ':' :: rest := by
  constructor
  · intro h
    cases s with
    | nil => simp [scheme?] at h
    | cons c cs =>
      cases hrest : after? ':' (c :: cs) with
      | none => simp [scheme?, hrest] at h
      | some rest' =>
        simp only [scheme?, hrest] at h
        split at h
        · rename_i hletters
          simp only [Bool.and_eq_true, List.all_eq_true] at hletters
          simp only [Option.some.injEq, Prod.mk.injEq] at h
          obtain ⟨rfl, rfl⟩ := h
          have hc : (c != ':') = true := bne_iff_ne.2 (by rintro rfl; exact absurd hletters.1 (by decide))
          refine ⟨⟨c, before ':' cs, ?_, hletters⟩, (before_append_after hrest).symm⟩
          rw [before, List.takeWhile_cons, if_pos hc, before]
        · cases h
  · rintro ⟨⟨c, cs, rfl, hc, hall⟩, rfl⟩
    have hcolon : ':' ∉ c :: cs := fun h => absurd (hall _ h) (by decide)
    have hbefore := before_append_cons hcolon rest
    have hafter := after?_append_cons hcolon rest
    have hletters : (c :: cs).all isSchemeChar = true := List.all_eq_true.2 hall
    rw [List.cons_append] at hbefore hafter ⊢
    simp only [scheme?, hafter, hbefore, hc, hletters, Bool.and_self, if_true]

theorem authority?_eq_some_iff {s : List Char} :
    authority? s = some authority ↔
      ∃ rest, s = '/' :: '/' :: (authority ++ rest) ∧ (∀ c ∈ authority, endsAuthority c = false) ∧
        ∀ c ∈ rest.head?, endsAuthority c = true := by
  constructor
  · intro h
    unfold authority? at h
    split at h
    · rename_i s
      cases h
      refine ⟨s.dropWhile fun c => !endsAuthority c, by rw [List.takeWhile_append_dropWhile], ?_, ?_⟩
      · intro c hc
        simpa using List.all_eq_true.1 List.all_takeWhile c hc
      · intro c hc
        have hnot := List.head?_dropWhile_not (fun c => !endsAuthority c) s
        rw [Option.mem_def.1 hc] at hnot
        simpa using hnot
    · cases h
  · rintro ⟨rest, rfl, hauthority, hrest⟩
    have hpos : ∀ c ∈ authority, (!endsAuthority c) = true := fun c hc => by simp [hauthority c hc]
    have hnil : rest.takeWhile (fun c => !endsAuthority c) = [] := by
      cases rest with
      | nil => rfl
      | cons c rest => simp [hrest c rfl]
    simp only [authority?, List.takeWhile_append_of_pos hpos, hnil, List.append_nil]

/-- The place of an authority stands behind its last at sign. -/
theorem AuthorityReads.exists_place (h : AuthorityReads authority host port) :
    ∃ place, afterLast '@' authority = place ∧ PlaceReads place host port := by
  cases h with
  | anonymous at_ reads => exact ⟨_, afterLast_of_notMem at_, reads⟩
  | withUser user at_ reads => exact ⟨_, afterLast_append_cons user at_, reads⟩

/-- The host and the port are read from an authority that is put together from them. -/
theorem ofText_of_reads (h : AuthorityReads authority host port) :
    Authority.ofText authority = ⟨lowerHost host, port.getD []⟩ := by
  obtain ⟨place, hplace, reads⟩ := h.exists_place
  unfold Authority.ofText
  rw [hplace]
  dsimp only
  cases reads with
  | plain colon bracket =>
    rw [after?_eq_none_iff.2 bracket]
    dsimp only
    cases port with
    | none => rw [portText, List.append_nil, before_of_notMem colon, after?_eq_none_iff.2 colon]
    | some port => rw [portText, before_append_cons colon, after?_append_cons colon]
  | bracketed port bracket =>
    rw [show after? '[' ('[' :: (host ++ ']' :: portText port)) = some (host ++ ']' :: portText port) by simp [after?]]
    dsimp only
    rw [before_append_cons bracket, after?_append_cons bracket]
    cases port <;> simp [portText, after?]
  | unclosed bracket =>
    rw [show after? '[' ('[' :: host) = some host by simp [after?]]
    dsimp only
    rw [before_of_notMem bracket, after?_eq_none_iff.2 bracket]
    rfl

/-! ## What is read was put together -/

/-- A text without a character, or with a first one. -/
theorem notMem_or_exists_cut (c : Char) (s : List Char) : c ∉ s ∨ ∃ u t, s = u ++ c :: t ∧ c ∉ u := by
  by_cases h : c ∈ s
  · exact .inr (List.eq_append_cons_of_mem h)
  · exact .inl h

/-- An authority whose brackets are in place is put together from a host and a port. -/
theorem exists_placeReads {place : List Char}
    (h : ∀ inside, after? '[' place = some inside → before '[' place = [] ∧
      ((after? ']' inside).getD [] = [] ∨ ((after? ']' inside).getD []).head? = some ':')) :
    ∃ host port, PlaceReads place host port := by
  rcases notMem_or_exists_cut '[' place with hopen | ⟨u, inside, rfl, hopen⟩
  · rcases notMem_or_exists_cut ':' place with hcolon | ⟨host, port, rfl, hcolon⟩
    · refine ⟨place, none, ?_⟩
      have := @PlaceReads.plain place none hcolon (by simpa [portText] using hopen)
      simpa [portText] using this
    · exact ⟨host, some port, @PlaceReads.plain host (some port) hcolon hopen⟩
  · obtain ⟨hu, hbehind⟩ := h inside (after?_append_cons hopen inside)
    rw [before_append_cons hopen] at hu
    subst hu
    rcases notMem_or_exists_cut ']' inside with hclose | ⟨host, behind, rfl, hclose⟩
    · exact ⟨inside, none, .unclosed hclose⟩
    · rw [after?_append_cons hclose, Option.getD_some] at hbehind
      cases behind with
      | nil => exact ⟨host, none, .bracketed none hclose⟩
      | cons c port =>
        rcases hbehind with hnil | hcolon
        · cases hnil
        · cases hcolon
          exact ⟨host, some port, .bracketed (some port) hclose⟩

/-- A text without a character, or with a last one. -/
theorem notMem_or_exists_lastCut (c : Char) (s : List Char) : c ∉ s ∨ ∃ u t, s = u ++ c :: t ∧ c ∉ t := by
  rcases notMem_or_exists_cut c s.reverse with h | ⟨u, t, h, hu⟩
  · exact .inl (by simpa using h)
  · refine .inr ⟨t.reverse, u.reverse, ?_, by simpa using hu⟩
    rw [← List.reverse_reverse s, h]
    simp

/-- Where brackets are in place, the host in them is all that stands in front of the port. -/
theorem of_bracketsFit (h : bracketsFit authority = true) (inside : List Char)
    (hinside : after? '[' (afterLast '@' authority) = some inside) :
    before '[' (afterLast '@' authority) = [] ∧
      ((after? ']' inside).getD [] = [] ∨ ((after? ']' inside).getD []).head? = some ':') := by
  have hplace : '[' ∈ afterLast '@' authority := by
    rw [← before_append_after hinside]
    simp
  have hopened : authority.contains '[' = true := by
    rw [List.contains_iff_mem, ← List.mem_reverse]
    exact (List.takeWhile_sublist _).subset (List.mem_reverse.1 hplace)
  unfold bracketsFit at h
  dsimp only at h
  split at h
  · cases h
  · rw [hopened, hinside] at h
    simp only [Bool.not_true, Bool.false_eq_true, if_false, Bool.and_eq_true, List.isEmpty_iff, Bool.or_eq_true,
      beq_iff_eq] at h
    exact h.1

/-- An authority whose brackets are in place is put together from a host and a port. -/
theorem exists_authorityReads (h : bracketsFit authority = true) : ∃ host port, AuthorityReads authority host port := by
  rcases notMem_or_exists_lastCut '@' authority with hat | ⟨user, place, rfl, hat⟩
  · have hplace := of_bracketsFit h
    rw [afterLast_of_notMem hat] at hplace
    obtain ⟨host, port, hreads⟩ := exists_placeReads hplace
    exact ⟨host, port, .anonymous hat hreads⟩
  · have hplace := of_bracketsFit h
    rw [afterLast_append_cons user hat] at hplace
    obtain ⟨host, port, hreads⟩ := exists_placeReads hplace
    exact ⟨host, port, .withUser user hat hreads⟩

/-! ## Links -/

theorem place?_eq_some_iff {place : Authority} :
    place? url = some place ↔ ∃ scheme rest, scheme? (clean url.toList) = some (scheme, rest) ∧
      Authority.read? ((authority? rest).getD []) = some place ∧ portFits place.port = true := by
  unfold place?
  rcases scheme? (clean url.toList) with _ | ⟨scheme, rest⟩
  · simp
  · rcases hread : Authority.read? ((authority? rest).getD []) with _ | place'
    · simp [hread]
    · simp only [Option.bind_eq_bind, Option.bind_some, hread, Option.some.injEq, Prod.mk.injEq]
      constructor
      · intro h
        split at h
        · cases h
          exact ⟨scheme, rest, ⟨rfl, rfl⟩, hread, ‹_›⟩
        · cases h
      · rintro ⟨_, _, ⟨rfl, rfl⟩, h, hport⟩
        rw [hread, Option.some.injEq] at h
        subst h
        rw [if_pos hport]

theorem Authority.read?_eq_some_iff {place : Authority} :
    Authority.read? authority = some place ↔
      bracketsFit authority = true ∧ (∀ c ∈ authority, c.toNat ∉ hiddenMarks) ∧ Authority.ofText authority = place := by
  unfold Authority.read?
  cases bracketsFit authority <;> simp

/-- The host and the port of a URL are those that it is put together from. -/
theorem place?_of_reads (h : Reads url scheme host port) {place : Authority} (hplace : place? url = some place) :
    place = ⟨lowerHost host, port.getD []⟩ := by
  obtain ⟨authority, rest, hspells, hreads⟩ := h
  obtain ⟨scheme', rest', hscheme, hread, -⟩ := place?_eq_some_iff.1 hplace
  rw [scheme?_eq_some_iff.2 ⟨hspells.scheme, hspells.text⟩, Option.some.injEq, Prod.mk.injEq] at hscheme
  obtain ⟨rfl, rfl⟩ := hscheme
  rw [authority?_eq_some_iff.2 ⟨rest, rfl, hspells.authority, hspells.rest⟩, Option.getD_some] at hread
  rw [← (Authority.read?_eq_some_iff.1 hread).2.2, ofText_of_reads hreads]

/-- A URL in which a host is found is put together from a scheme, a host and a port. -/
theorem exists_reads {place : Authority} (h : place? url = some place) (hhost : place.host ≠ []) :
    ∃ scheme host port, Reads url scheme host port := by
  obtain ⟨scheme, behind, hscheme, hread, -⟩ := place?_eq_some_iff.1 h
  obtain ⟨hletters, htext⟩ := scheme?_eq_some_iff.1 hscheme
  obtain ⟨hbrackets, -, rfl⟩ := Authority.read?_eq_some_iff.1 hread
  cases hauthority : authority? behind with
  | none =>
    -- without an authority the host is empty
    rw [hauthority] at hhost
    exact absurd rfl hhost
  | some authority =>
    rw [hauthority, Option.getD_some] at hbrackets
    obtain ⟨rest, rfl, hin, hout⟩ := authority?_eq_some_iff.1 hauthority
    obtain ⟨host, port, hreads⟩ := exists_authorityReads hbrackets
    exact ⟨scheme, host, port, authority, rest, ⟨htext, hletters, hin, hout⟩, hreads⟩

/-- The number of a port. -/
def portNumber (port : List Char) : Nat := Decimal.Integer.ofDigits 10 (port.map fun c => c.toNat - '0'.toNat)

/-- A host that can be linked to: there is one, it is neither this machine nor the placeholder of an unconfigured
server, however its letters are written, and for Bitbucket Cloud it has a point in it. -/
structure HostFits (cloud : Bool) (host : List Char) : Prop where
  nonempty : host ≠ []
  notLocal : lower host ≠ "localhost".toList
  notPlaceholder : lower host ≠ placeholderHost.toList
  qualified : cloud = true → '.' ∈ host

/-- A port is left out or empty, or it is a number of at most 65535. -/
def PortFits (port : Option (List Char)) : Prop :=
  ∀ digits, port = some digits → digits = [] ∨ ((∀ c ∈ digits, c.isDigit = true) ∧ portNumber digits ≤ 65535)

/-- A URL that can be linked to has a scheme and a host, and its host and its port are in order. -/
structure Linkable (cloud : Bool) (url : String) : Prop where
  reads : ∃ scheme host port, Reads url scheme host port
  fits : ∀ scheme host port, Reads url scheme host port → HostFits cloud host ∧ PortFits port

theorem checkHost_eq_ok_iff {cloud : Bool} :
    checkHost cloud host = .ok () ↔ host ≠ [] ∧ host ≠ "localhost".toList ∧ host ≠ placeholderHost.toList ∧
      (cloud = true → '.' ∈ host) := by
  unfold checkHost
  generalize "localhost".toList = localhost
  generalize placeholderHost.toList = placeholder
  by_cases hnil : host = []
  · simp [hnil]
  by_cases hlocal : host = localhost
  · subst hlocal
    simp [hnil]
  by_cases hplaceholder : host = placeholder
  · subst hplaceholder
    simp [hnil, hlocal]
  · cases cloud <;> simp [hnil, hlocal, hplaceholder]

/-- The zone of a host apart, it is in lower case. -/
theorem lowerHost_eq (host : List Char) :
    '%' ∉ host ∧ lowerHost host = lower host ∨
      ∃ name zone, host = name ++ '%' :: zone ∧ lowerHost host = lower name ++ '%' :: zone := by
  rcases notMem_or_exists_cut '%' host with h | ⟨name, zone, rfl, h⟩
  · refine .inl ⟨h, ?_⟩
    simp only [lowerHost, after?_eq_none_iff.2 h]
  · refine .inr ⟨name, zone, rfl, ?_⟩
    simp only [lowerHost, after?_append_cons h, before_append_cons h]

/-- A host is in order if it is so in lower case. -/
theorem hostFits_of_checkHost {cloud : Bool} (h : checkHost cloud (lowerHost host) = .ok ()) : HostFits cloud host := by
  obtain ⟨hnonempty, hlocal, hplaceholder, hqualified⟩ := checkHost_eq_ok_iff.1 h
  rcases lowerHost_eq host with ⟨-, hlower⟩ | ⟨name, zone, rfl, hlower⟩
  · rw [hlower] at hnonempty hlocal hplaceholder hqualified
    refine ⟨fun hnil => hnonempty ((lower_eq_nil_iff host).2 hnil), hlocal, hplaceholder, fun hcloud => ?_⟩
    exact (mem_lower_iff (by decide) (by decide) host).1 (hqualified hcloud)
  · -- a host with a zone holds a percent sign, which the names that are refused do not
    have hzone : '%' ∈ lower (name ++ '%' :: zone) := (mem_lower_iff (by decide) (by decide) _).2 (by simp)
    refine ⟨by simp, ?_, ?_, fun hcloud => ?_⟩
    · intro hname
      rw [hname] at hzone
      exact absurd hzone (by decide)
    · intro hname
      rw [hname] at hzone
      exact absurd hzone (by decide)
    · have hpoint := hqualified hcloud
      rw [hlower, List.mem_append] at hpoint
      exact List.mem_append.2 (hpoint.imp_left (mem_lower_iff (by decide) (by decide) name).1)

/-- **A URL that passes the check can be linked to.** -/
theorem linkable_of_check {cloud : Bool} (h : check cloud url = .ok ()) : Linkable cloud url := by
  unfold check at h
  cases hplace : place? url with
  | none => simp [hplace] at h
  | some place =>
    simp only [hplace] at h
    refine ⟨exists_reads hplace (checkHost_eq_ok_iff.1 h).1, fun scheme host port hreads => ?_⟩
    obtain ⟨-, -, -, -, hport⟩ := place?_eq_some_iff.1 hplace
    rw [place?_of_reads hreads hplace] at h hport
    refine ⟨hostFits_of_checkHost h, ?_⟩
    rintro digits rfl
    simp only [portFits, Option.getD_some, Bool.and_eq_true, decide_eq_true_eq, List.all_eq_true] at hport
    refine .inr ⟨hport.1.1, ?_⟩
    rw [portNumber, Decimal.Integer.ofDigits, List.foldl_map]
    exact hport.2

end CommitStatus.Url
