import CommitStatus.Proofs.Decimal.Integer
import CommitStatus.Proofs.Url.Joining
import CommitStatus.Url.Root

/-!
# The URLs that are accepted

A URL in plain parts (`Plain`) has a scheme, perhaps a user, a host of letters, digits and three marks, perhaps a port,
and a rest. Its parts are read as they were put in (`Plain.place?_url`), so it is accepted as it stands unless its port
or its host breaks a rule, and the first rule that it breaks is the error (`Plain.accept_url`).

A text in which no scheme with two slashes and an authority comes first is malformed (`accept_of_not_spells`).
-/

namespace CommitStatus.Url

open Text

/-! ## Plain parts -/

/-- A character of a user or a port: it is printed, and it parts no URL. -/
def isPartChar (c : Char) : Bool :=
  0x20 < c.toNat && c.toNat < 0x7F && !(['/', '?', '#', '[', ']', '@'].contains c)

/-- A character of a plain host. -/
def isHostChar (c : Char) : Bool := c.isAlphanum || c == '.' || c == '-' || c == '_'

/-- The text of a port is empty, or a number of at most 4300 digits that is at most 65535. -/
def PortReads (port : List Char) : Prop :=
  port = [] ∨ port.all Char.isDigit = true ∧ port.length ≤ 4300 ∧ portNumber port ≤ 65535

instance : DecidablePred PortReads := fun _ => inferInstanceAs (Decidable (_ ∨ _))

/-- A user as it stands in front of its host. -/
def userText : Option (List Char) → List Char
  | none => []
  | some user => user ++ ['@']

/-- A URL in plain parts. -/
structure Plain where
  scheme : List Char
  user : Option (List Char)
  host : List Char
  port : Option (List Char)
  rest : List Char
  isScheme : IsScheme scheme
  userPlain : ∀ u, user = some u → ∀ c ∈ u, isPartChar c = true
  hostNonempty : host ≠ []
  hostPlain : ∀ c ∈ host, isHostChar c = true
  portPlain : ∀ p, port = some p → ∀ c ∈ p, isPartChar c = true
  restApart : ∀ c ∈ rest.head?, endsAuthority c = true

namespace Plain

/-- The authority: the user, the host and the port. -/
def authority (f : Plain) : List Char := userText f.user ++ (f.host ++ portText f.port)

/-- The URL: `scheme://`, the authority and the rest. -/
def url (f : Plain) : String := String.ofList (f.scheme ++ ':' :: '/' :: '/' :: (f.authority ++ f.rest))

/-- The first rule that the parts break. -/
def objection? (cloud : Bool) (f : Plain) : Option UrlError :=
  if ¬∀ port ∈ f.port, PortReads port then some .malformed
  else if lower f.host = "localhost".toList then some .localhost
  else if lower f.host = "unconfigured-jenkins-location".toList then some .placeholder
  else if cloud = true ∧ '.' ∉ f.host then some .notQualified
  else none

end Plain

/-! ## The characters of an authority -/

/-- Letters and digits are printed. -/
theorem printed_of_isAlphanum {c : Char} (h : c.isAlphanum = true) : 0x20 < c.toNat ∧ c.toNat < 0x7F := by
  change ((c.isUpper || c.isLower) || c.isDigit) = true at h
  simp only [Bool.or_eq_true] at h
  rcases h with (h | h) | h
  · have hc : 'A'.val ≤ c.val ∧ c.val ≤ 'Z'.val := of_decide_eq_true h
    have hlow : 65 ≤ c.toNat := UInt32.le_iff_toNat_le.1 hc.1
    have hhigh : c.toNat ≤ 90 := UInt32.le_iff_toNat_le.1 hc.2
    omega
  · have hc := (Bool.and_eq_true _ _).mp h
    have hlow : 97 ≤ c.toNat := UInt32.le_iff_toNat_le.1 (of_decide_eq_true hc.1)
    have hhigh : c.toNat ≤ 122 := UInt32.le_iff_toNat_le.1 (of_decide_eq_true hc.2)
    omega
  · have hc := Decimal.Integer.toNat_of_isDigit h
    omega

theorem printed_of_isSchemeChar {c : Char} (h : isSchemeChar c = true) : 0x20 < c.toNat := by
  simp only [isSchemeChar, Bool.or_eq_true, beq_iff_eq] at h
  rcases h with ((h | rfl) | rfl) | rfl
  · exact (printed_of_isAlphanum h).1
  all_goals decide

theorem isPartChar_of_isHostChar {c : Char} (h : isHostChar c = true) : isPartChar c = true := by
  have hmark : c ∉ ['/', '?', '#', '[', ']', '@'] := by
    intro hc
    simp only [List.mem_cons, List.not_mem_nil, or_false] at hc
    rcases hc with rfl | rfl | rfl | rfl | rfl | rfl <;> exact absurd h (by decide)
  have hprinted : 0x20 < c.toNat ∧ c.toNat < 0x7F := by
    simp only [isHostChar, Bool.or_eq_true, beq_iff_eq] at h
    rcases h with ((h | rfl) | rfl) | rfl
    · exact printed_of_isAlphanum h
    all_goals decide
  simp [isPartChar, hprinted, hmark]

/-- What is dropped is not printed. -/
theorem isDropped_of_printed {c : Char} (h : 0x20 < c.toNat) : isDropped c = false := by
  simp only [isDropped, Bool.or_eq_false_iff, beq_eq_false_iff_ne]
  refine ⟨⟨?_, ?_⟩, ?_⟩ <;> rintro rfl <;> exact absurd h (by decide)

namespace Plain

variable (f : Plain)

/-- The host and the port are made of characters of parts. -/
theorem isPartChar_of_mem_place {c : Char} (h : c ∈ f.host ++ portText f.port) : isPartChar c = true := by
  rcases List.mem_append.1 h with h | h
  · exact isPartChar_of_isHostChar (f.hostPlain c h)
  · cases hport : f.port with
    | none =>
      rw [hport] at h
      cases h
    | some port =>
      rw [hport, portText, List.mem_cons] at h
      rcases h with rfl | h
      · decide
      · exact f.portPlain port hport c h

/-- But for the sign behind the user, so is the authority. -/
theorem isPartChar_of_mem_authority {c : Char} (h : c ∈ f.authority) : isPartChar c = true ∨ c = '@' := by
  rcases List.mem_append.1 h with h | h
  · cases huser : f.user with
    | none =>
      rw [huser] at h
      cases h
    | some user =>
      rw [huser, userText, List.mem_append, List.mem_singleton] at h
      exact h.imp_left (f.userPlain user huser c)
  · exact .inl (f.isPartChar_of_mem_place h)

/-- An authority in plain parts holds none of the other marks. -/
theorem notMem_authority {d : Char} (hpart : isPartChar d = false) (hat : d ≠ '@') : d ∉ f.authority := by
  intro h
  rcases f.isPartChar_of_mem_authority h with hd | hd
  · rw [hpart] at hd
    cases hd
  · exact hat hd

/-- The characters of an authority are printed. -/
theorem printed_of_mem_authority {c : Char} (h : c ∈ f.authority) : 0x20 < c.toNat ∧ c.toNat < 0x7F := by
  rcases f.isPartChar_of_mem_authority h with hc | rfl
  · simp only [isPartChar, Bool.and_eq_true, decide_eq_true_eq] at hc
    exact hc.1
  · decide

/-! ## The parts are read as they were put in -/

/-- All that stands in front of the rest is printed. -/
theorem printed_of_mem_front {c : Char} (h : c ∈ f.scheme ++ ':' :: '/' :: '/' :: f.authority) : 0x20 < c.toNat := by
  obtain ⟨_, _, -, -, hscheme⟩ := f.isScheme
  simp only [List.mem_append, List.mem_cons] at h
  rcases h with h | rfl | rfl | rfl | h
  · exact printed_of_isSchemeChar (hscheme c h)
  · decide
  · decide
  · decide
  · exact (f.printed_of_mem_authority h).1

/-- The URL is read as it stands, but for tabs and ends of lines in its rest. -/
theorem spells : Spells (clean f.url.toList) f.scheme f.authority (f.rest.filter (!isDropped ·)) := by
  have htext : f.url.toList = (f.scheme ++ ':' :: '/' :: '/' :: f.authority) ++ f.rest := by
    simp [url]
  have hkept : clean f.url.toList =
      (f.scheme ++ ':' :: '/' :: '/' :: f.authority) ++ f.rest.filter (!isDropped ·) := by
    rw [htext, ← List.nil_append ((f.scheme ++ ':' :: '/' :: '/' :: f.authority) ++ f.rest), clean_append,
      List.filter_append, List.filter_eq_self.2]
    · rfl
    · intro c hc
      rw [isDropped_of_printed (f.printed_of_mem_front hc), Bool.not_false]
    · obtain ⟨c, cs, hscheme, -⟩ := f.isScheme
      intro d hd
      have hfirst : c = d := by simpa [hscheme] using hd
      have hprinted := f.printed_of_mem_front (c := d) (by simp [hscheme, hfirst])
      omega
  refine ⟨by rw [hkept]; simp, f.isScheme, ?_, ?_⟩
  · intro c hc
    simp only [endsAuthority, Bool.or_eq_false_iff, beq_eq_false_iff_ne]
    refine ⟨⟨?_, ?_⟩, ?_⟩ <;> rintro rfl <;> exact f.notMem_authority (by decide) (by decide) hc
  · have hrest := f.restApart
    cases h : f.rest with
    | nil => simp
    | cons c rest =>
      -- the mark that ends the authority is not dropped
      have hc : endsAuthority c = true := hrest c (by rw [h]; rfl)
      have hkeep : isDropped c = false := by
        simp only [endsAuthority, Bool.or_eq_true, beq_iff_eq] at hc
        rcases hc with (rfl | rfl) | rfl <;> decide
      simp [hkeep, hc]

/-- The authority is read as the user, the host and the port. -/
theorem authorityReads : AuthorityReads f.authority f.host f.port := by
  have hat : '@' ∉ f.host ++ portText f.port := fun h => absurd (f.isPartChar_of_mem_place h) (by decide)
  have hopen : '[' ∉ f.host ++ portText f.port := fun h => absurd (f.isPartChar_of_mem_place h) (by decide)
  have hcolon : ':' ∉ f.host := fun h => absurd (f.hostPlain _ h) (by decide)
  unfold authority
  cases f.user with
  | none => exact .anonymous hat (.plain hcolon hopen)
  | some user =>
    rw [userText, List.append_assoc, List.singleton_append]
    exact .withUser user hat (.plain hcolon hopen)

/-- There is nothing in the authority for which it would not be read. -/
theorem read?_authority : Authority.read? f.authority = some ⟨lower f.host, f.port.getD []⟩ := by
  have hbrackets : bracketsFit f.authority = true := by
    have hopen : f.authority.contains '[' = false := by
      simpa using f.notMem_authority (d := '[') (by decide) (by decide)
    have hclose : f.authority.contains ']' = false := by
      simpa using f.notMem_authority (d := ']') (by decide) (by decide)
    simp only [bracketsFit, hopen, hclose]
    rfl
  have hmarks : ∀ c ∈ f.authority, c.toNat ∉ hiddenMarks := by
    intro c hc hhidden
    have hprinted := (f.printed_of_mem_authority hc).2
    have hfar : ∀ n ∈ hiddenMarks, 0x7F ≤ n := by decide
    exact absurd (hfar _ hhidden) (by omega)
  have hzone : '%' ∉ f.host := fun h => absurd (f.hostPlain _ h) (by decide)
  rw [Authority.read?_eq_some_iff, ofText_of_reads f.authorityReads]
  refine ⟨hbrackets, hmarks, ?_⟩
  rcases lowerHost_eq f.host with ⟨-, hlower⟩ | ⟨name, zone, hhost, -⟩
  · rw [hlower]
  · rw [hhost] at hzone
    simp at hzone

/-- The text of a port is read if it is empty or a number that fits. -/
theorem portFits_iff {port : List Char} : portFits port = true ↔ PortReads port := by
  have hvalue : port.foldl (fun n c => n * 10 + (c.toNat - 48)) 0 = portNumber port := by
    rw [portNumber, Decimal.Integer.ofDigits, List.foldl_map]
    rfl
  simp only [portFits, hvalue, Bool.and_eq_true, decide_eq_true_eq, PortReads]
  constructor
  · rintro ⟨⟨hdigits, hlength⟩, hnumber⟩
    exact .inr ⟨hdigits, hlength, hnumber⟩
  · rintro (rfl | ⟨hdigits, hlength, hnumber⟩)
    · decide
    · exact ⟨⟨hdigits, hlength⟩, hnumber⟩

/-- The host is found in lower case with the port, unless the port cannot be read. -/
theorem place?_url : place? f.url =
    if ∀ port ∈ f.port, PortReads port then some ⟨lower f.host, f.port.getD []⟩ else none := by
  have hport : portFits (f.port.getD []) = true ↔ ∀ port ∈ f.port, PortReads port := by
    rw [portFits_iff]
    cases f.port with
    | none => simp [PortReads]
    | some port => simp
  rw [place?_of_spells f.spells, read?_authority, Option.bind_some]
  by_cases h : ∀ port ∈ f.port, PortReads port
  · rw [if_pos (hport.2 h), if_pos h]
  · rw [if_neg (fun hfits => h (hport.1 hfits)), if_neg h]

/-- The first rule that the parts break decides whether the URL is accepted. -/
theorem accept_url (cloud : Bool) :
    accept cloud f.url = match f.objection? cloud with
      | none => .ok f.url
      | some e => .error e := by
  have hhost : lower f.host ≠ [] := fun h => f.hostNonempty ((lower_eq_nil_iff f.host).1 h)
  have hpoint : (lower f.host).contains '.' = decide ('.' ∈ f.host) := by
    rw [Bool.eq_iff_iff, List.contains_iff_mem, decide_eq_true_eq]
    exact mem_lower_iff (by decide) (by decide) f.host
  unfold accept check objection?
  rw [place?_url]
  by_cases hport : ∀ port ∈ f.port, PortReads port
  · rw [if_pos hport, if_neg (not_not.2 hport)]
    unfold checkHost placeholderHost
    dsimp only
    rw [hpoint, if_neg (by simpa using hhost)]
    generalize "localhost".toList = localhost
    generalize "unconfigured-jenkins-location".toList = placeholder
    by_cases hlocal : lower f.host = localhost
    · rw [if_pos hlocal, if_pos hlocal]
      rfl
    by_cases hplaceholder : lower f.host = placeholder
    · rw [if_neg hlocal, if_neg hlocal, if_pos hplaceholder, if_pos hplaceholder]
      rfl
    rw [if_neg hlocal, if_neg hlocal, if_neg hplaceholder, if_neg hplaceholder]
    by_cases hqualified : cloud = true ∧ '.' ∉ f.host
    · rw [if_pos hqualified, if_pos (by simpa using hqualified)]
      rfl
    · rw [if_neg hqualified, if_neg (by simpa using hqualified)]
      rfl
  · rw [if_neg hport, if_pos hport]
    rfl

/-- There is no such rule just if the port and the host are in order. -/
theorem objection?_eq_none_iff (cloud : Bool) :
    f.objection? cloud = none ↔ (∀ port ∈ f.port, PortReads port) ∧ lower f.host ≠ "localhost".toList ∧
      lower f.host ≠ "unconfigured-jenkins-location".toList ∧ (cloud = true → '.' ∈ f.host) := by
  unfold objection?
  generalize "localhost".toList = localhost
  generalize "unconfigured-jenkins-location".toList = placeholder
  by_cases hport : ∀ port ∈ f.port, PortReads port
  · rw [if_neg (not_not.2 hport)]
    by_cases hlocal : lower f.host = localhost
    · simp [hlocal]
    by_cases hplaceholder : lower f.host = placeholder
    · subst hplaceholder
      simp [hlocal]
    · simpa [hlocal, hplaceholder] using fun _ => hport
  · rw [if_pos hport]
    exact iff_of_false (Option.some_ne_none _) fun h => hport h.1

end Plain

/-- A URL without a host is malformed. -/
theorem accept_of_not_spells (cloud : Bool) {url : String}
    (h : ¬∃ scheme authority rest, Spells (clean url.toList) scheme authority rest ∧ authority ≠ []) :
    accept cloud url = .error .malformed := by
  unfold accept check
  cases hplace : place? url with
  | none => rfl
  | some place =>
    have hhost : place.host = [] := by
      by_contra hne
      exact h (spells_of_place? hplace hne)
    simp only [checkHost, hhost, List.isEmpty_nil, if_true]
    rfl

/-- **The URLs that are accepted.** A URL in plain parts is accepted just if its port is left out, is empty or reads as
a number of at most 65535, its host is neither this machine nor the placeholder of an unconfigured server, however its
letters are written, and for Bitbucket Cloud the host has a point in it. It is given back as it stands; otherwise the
error is the first rule that it breaks, in this order. A text that is not read as a scheme, two slashes and an authority
that is not empty is a bad URL. -/
theorem accept_plain (cloud : Bool) :
    (∀ f : Plain,
      (accept cloud f.url = .ok f.url ↔
        (∀ port ∈ f.port, PortReads port) ∧ lower f.host ≠ "localhost".toList ∧
          lower f.host ≠ "unconfigured-jenkins-location".toList ∧ (cloud = true → '.' ∈ f.host)) ∧
      (accept cloud f.url = match f.objection? cloud with
        | none => .ok f.url
        | some e => .error e) ∧
      ∀ e ∈ f.objection? cloud, e.name = "InvalidRootUrl") ∧
    ∀ url : String, (¬∃ scheme authority rest, Spells (clean url.toList) scheme authority rest ∧ authority ≠ []) →
      ∃ e, accept cloud url = .error e ∧ e.name = "InvalidRootUrl" ∧ e.message = "Bad Jenkins URL" := by
  refine ⟨fun f => ⟨?_, f.accept_url cloud, ?_⟩, fun url h => ⟨.malformed, accept_of_not_spells cloud h, rfl, rfl⟩⟩
  · rw [← f.objection?_eq_none_iff, f.accept_url]
    cases f.objection? cloud with
    | none => simp
    | some e => simp
  · intro e he
    unfold Plain.objection? at he
    split_ifs at he <;> cases he <;> rfl

/-- This machine in capital letters, with a user and a port that begins with a zero. -/
def Plain.shouted : Plain where
  scheme := "HTTP".toList
  user := some "me:secret".toList
  host := "LocalHost".toList
  port := some "0443".toList
  rest := "/ci\tserver".toList
  isScheme := ⟨'H', "TTP".toList, by decide, by decide, List.all_eq_true.1 (by decide)⟩
  userPlain := by
    rintro _ ⟨⟩
    exact List.all_eq_true.1 (by decide)
  hostNonempty := by decide
  hostPlain := List.all_eq_true.1 (by decide)
  portPlain := by
    rintro _ ⟨⟩
    exact List.all_eq_true.1 (by decide)
  restApart := by
    rintro _ ⟨⟩
    decide

/-- The port of this URL is in order, and its host is not; the other one lacks the second slash. -/
theorem accept_plain_shouted :
    accept true Plain.shouted.url = .error .localhost ∧
      (¬∃ scheme authority rest, Spells (clean "https:/".toList) scheme authority rest ∧ authority ≠ []) ∧
      ∃ e, accept true "https:/" = .error e ∧ e.name = "InvalidRootUrl" ∧ e.message = "Bad Jenkins URL" := by
  have hlocal : Plain.shouted.objection? true = some .localhost := by decide +kernel
  have hslash : ¬∃ scheme authority rest,
      Spells (clean "https:/".toList) scheme authority rest ∧ authority ≠ [] := by
    rintro ⟨scheme, authority, rest, h, -⟩
    have hcount := congrArg (List.count '/') h.text
    have hone : (clean "https:/".toList).count '/' = 1 := by decide +kernel
    simp only [hone, List.count_append, List.count_cons_self,
      List.count_cons_of_ne (show ':' ≠ '/' by decide)] at hcount
    omega
  have haccept := ((accept_plain true).1 Plain.shouted).2.1
  rw [hlocal] at haccept
  exact ⟨haccept, hslash, (accept_plain true).2 "https:/" hslash⟩

end CommitStatus.Url
