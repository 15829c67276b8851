import CommitStatus.Proofs.Report.Handling

/-!
# Which builds share a key

Where a source lets a branch share its key with its pull requests, the key of a status is made of a folder and a branch
(`Dispatch.key_eq`): a line of history. Builds of one line always share their key. Those of two lines do so just if the
one line leads into the other (`Line.key_eq_iff`): the slash between folder and branch may as well belong to either of
them. So keys tell lines apart just where no line leads into another (`sharedKey_eq_iff`, `sharedKey_eq_nested`).
-/

namespace CommitStatus

/-! ## Lines of history -/

/-- A branch in a folder. -/
structure Line where
  folder : String
  branch : String
  deriving DecidableEq, Repr

namespace Line

/-- The key that the builds of a line share. -/
def key (l : Line) : String := l.folder ++ "/" ++ l.branch

/-- The branch of the one line names the way from its folder to that of the other, and then the branch of the other. -/
inductive LeadsInto : Line → Line → Prop
  | mk (folder way branch : String) : LeadsInto ⟨folder, way ++ "/" ++ branch⟩ ⟨folder ++ "/" ++ way, branch⟩

theorem LeadsInto.key_eq {a b : Line} (h : a.LeadsInto b) : a.key = b.key := by
  cases h
  simp only [key, String.append_assoc]

theorem LeadsInto.ne {a b : Line} (h : a.LeadsInto b) : a ≠ b := by
  obtain ⟨folder, way, branch⟩ := h
  intro heq
  have hlength : folder.length = (folder ++ "/" ++ way).length := congrArg String.length (Line.mk.inj heq).1
  simp only [String.length_append] at hlength
  have hslash : "/".length = 1 := rfl
  omega

/-- Two ways to cut a text at a separator are the same, or the one cuts off more. -/
theorem append_cons_cases {α : Type} {a b a' b' : List α} {c : α} (h : a ++ c :: b = a' ++ c :: b') :
    (a = a' ∧ b = b') ∨ (∃ way, a' = a ++ c :: way ∧ b = way ++ c :: b') ∨
      ∃ way, a = a' ++ c :: way ∧ b' = way ++ c :: b := by
  rcases List.append_eq_append_iff.1 h with ⟨_ | ⟨d, way⟩, ha, hb⟩ | ⟨_ | ⟨d, way⟩, ha, hb⟩
  · refine .inl ⟨?_, ?_⟩
    · simpa using ha.symm
    · simpa using hb
  · obtain ⟨rfl, htail⟩ := List.cons.inj hb
    exact .inr (.inl ⟨way, ha, htail⟩)
  · refine .inl ⟨?_, ?_⟩
    · simpa using ha
    · simpa using hb.symm
  · obtain ⟨rfl, htail⟩ := List.cons.inj hb
    exact .inr (.inr ⟨way, ha, htail⟩)

theorem toList_key (l : Line) : l.key.toList = l.folder.toList ++ '/' :: l.branch.toList := by
  simp [key]

/-- A line leads into another where its key is cut earlier. -/
theorem leadsInto_of_toList {a b : Line} {way : List Char} (hfolder : b.folder.toList = a.folder.toList ++ '/' :: way)
    (hbranch : a.branch.toList = way ++ '/' :: b.branch.toList) : a.LeadsInto b := by
  obtain ⟨folder, branch⟩ := a
  obtain ⟨folder', branch'⟩ := b
  obtain rfl : folder' = folder ++ "/" ++ String.ofList way := String.toList_inj.1 (by simpa using hfolder)
  obtain rfl : branch = String.ofList way ++ "/" ++ branch' := String.toList_inj.1 (by simpa using hbranch)
  exact .mk folder (String.ofList way) branch'

/-- Lines have the same key just if they are the same or the one leads into the other. -/
theorem key_eq_iff {a b : Line} : a.key = b.key ↔ a = b ∨ a.LeadsInto b ∨ b.LeadsInto a := by
  constructor
  · intro h
    rw [← String.toList_inj, toList_key, toList_key] at h
    rcases append_cons_cases h with ⟨hfolder, hbranch⟩ | ⟨way, hfolder, hbranch⟩ | ⟨way, hfolder, hbranch⟩
    · refine .inl ?_
      obtain ⟨folder, branch⟩ := a
      obtain ⟨folder', branch'⟩ := b
      cases String.toList_inj.1 hfolder
      cases String.toList_inj.1 hbranch
      rfl
    · exact .inr (.inl (leadsInto_of_toList hfolder hbranch))
    · exact .inr (.inr (leadsInto_of_toList hfolder hbranch))
  · rintro (rfl | h | h)
    · rfl
    · exact h.key_eq
    · exact h.key_eq.symm

/-- A line whose branch has no slash leads nowhere. -/
theorem not_leadsInto {a : Line} (h : '/' ∉ a.branch.toList) (b : Line) : ¬a.LeadsInto b := by
  rintro ⟨folder, way, branch⟩
  simp at h

end Line

/-! ## Dispatches -/

/-- A report of a build for a source that comes to a status, which is sent or, in a dry run, only made. -/
structure Dispatch where
  notifier : Notifier
  source : Source
  build : Build
  world : World
  revision : Revision
  sending : Sending
  lookedUp : notifier.findRevision source build = .ok (some revision)
  made : (notifier.prepare source build world).2 = some sending

namespace Dispatch

/-- The key of the status. -/
def key (d : Dispatch) : String := d.sending.status.key

/-- The line of the build: the branch is the one that its pull request comes from, if there is one. -/
def line (d : Dispatch) : Line := ⟨d.build.job.parent.fullName, d.revision.branch⟩

/-- The source lets a branch share its key with its pull requests. -/
def IsShared (d : Dispatch) : Prop := d.source.traits.excludeOriginPrBranches = true

/-- The key of a status is that of its line. -/
theorem key_eq {d : Dispatch} (h : d.IsShared) : d.key = d.line.key := by
  obtain ⟨-, revision, hash, clients, records, url, state, hrevision, -, -, -, -, hstatus⟩ :=
    Notifier.prepare_some d.made
  rw [d.lookedUp] at hrevision
  cases hrevision
  rw [key, hstatus]
  show statusKey d.build d.revision.branch d.source.traits.excludeOriginPrBranches = d.line.key
  rw [show d.source.traits.excludeOriginPrBranches = true from h]
  rfl

/-- What an event sends is dispatched for the source that is found for its build. -/
theorem exists_of_sending? {n : Notifier} {event : Event} {w : World} {s : Sending} (h : n.sending? event w = some s) :
    ∃ d : Dispatch, d.notifier = n ∧ d.build = event.build ∧ n.findSource event.build.job = .ok (some d.source) ∧
      d.sending = s := by
  obtain ⟨source, w', haccept, hs⟩ := Notifier.exists_accept_of_sending? h
  obtain ⟨-, revision, hash, clients, records, url, state, hrevision, -⟩ := Notifier.prepare_some hs
  exact ⟨⟨n, source, event.build, w', revision, s, hrevision, hs⟩, rfl, rfl, (Notifier.accept_some haccept).1, rfl⟩

end Dispatch

/-- A team's source that lets a branch share its key with its pull requests. -/
def Source.ofTeamSharing (team : String) : Source :=
  { Source.ofTeam team none with traits := { Traits.plain with excludeOriginPrBranches := true } }

/-- A team's build of a line that has come to a good end, with the link to it. -/
def Build.ofLine (team : String) (l : Line) : Build :=
  { Build.ofTeam team with
    job := { (Build.ofTeam team).job with parent := ⟨l.folder⟩ }
    url := some "https://ci.example.com/job/app/1/"
    revision := some (.commit ⟨l.branch⟩ "1f2e3d") }

/-- Builds of every line can be dispatched. -/
theorem Dispatch.exists_line (l : Line) : ∃ d : Dispatch, d.IsShared ∧ d.line = l := by
  let n : Notifier := .usual [] (some "https://ci.example.com/") fun _ => none
  let w : World := ⟨.empty, .empty 100 false, []⟩
  obtain ⟨clients, hobtain⟩ : ∃ clients, w.clients.obtain n.env (.ofTeamSharing "red") none =
      (clients, [], .ok ⟨0, .cloud, "team", "shared", none⟩) := ⟨_, rfl⟩
  have hlink : n.linkFor true (.ofLine "red" l) = .ok "https://ci.example.com/job/app/1/" := by
    have hplace : Url.place? "https://ci.example.com/job/app/1/" = some ⟨"ci.example.com".toList, []⟩ := by
      decide +kernel
    have hcheck : Url.check true "https://ci.example.com/job/app/1/" = .ok () := by
      simp only [Url.check, hplace]
      rfl
    have hurl : Url.ofBuild n.rootUrl (.ofLine "red" l) = .ok "https://ci.example.com/job/app/1/" := by
      simp [n, Notifier.usual, Url.ofBuild, Build.ofLine]
    simp only [Notifier.linkFor, hurl, hcheck]
  have hmade : ∃ s, (n.prepare (.ofTeamSharing "red") (.ofLine "red" l) w).2 = some s := by
    have hcloud : Client.isCloud ⟨0, .cloud, "team", "shared", none⟩ = true := rfl
    rw [Notifier.prepare_eq_draft rfl rfl rfl hobtain, Notifier.draft_sending, hcloud, hlink]
    exact ⟨_, rfl⟩
  obtain ⟨s, hs⟩ := hmade
  exact ⟨⟨n, .ofTeamSharing "red", .ofLine "red" l, w, .commit ⟨l.branch⟩ "1f2e3d", s, rfl, hs⟩, rfl, rfl⟩

/-- **When keys tell lines of history apart.** Take dispatches for sources that let a branch share its key with its pull
requests, from whatever notifiers and in whatever worlds.

- Two of them have the same key just if they are of one line, or the line of one leads into that of the other. So a
  branch and its pull request always share their key, and so do builds of two lines of which one leads into the other.
- Among any lines, keys tell apart the builds of different lines just if none of the lines leads into another; so they
  do wherever no branch has a slash in its name.
- What events send is such a dispatch for the source that is found for the build. -/
theorem sharedKey_eq_iff (lines : Line → Prop) :
    (∀ a b : Dispatch, a.IsShared → b.IsShared →
      (a.key = b.key ↔ a.line = b.line ∨ a.line.LeadsInto b.line ∨ b.line.LeadsInto a.line)) ∧
    ((∀ a b : Dispatch, a.IsShared → b.IsShared → lines a.line → lines b.line → (a.key = b.key ↔ a.line = b.line)) ↔
      ∀ l l', lines l → lines l' → ¬l.LeadsInto l') ∧
    (∀ a b : Dispatch, a.IsShared → b.IsShared → '/' ∉ a.line.branch.toList → '/' ∉ b.line.branch.toList →
      (a.key = b.key ↔ a.line = b.line)) ∧
    (∀ (n : Notifier) event w s, n.sending? event w = some s → ∃ d : Dispatch, d.notifier = n ∧
      d.build = event.build ∧ n.findSource event.build.job = .ok (some d.source) ∧ d.sending = s) := by
  have hkeys : ∀ a b : Dispatch, a.IsShared → b.IsShared →
      (a.key = b.key ↔ a.line = b.line ∨ a.line.LeadsInto b.line ∨ b.line.LeadsInto a.line) := by
    intro a b ha hb
    rw [a.key_eq ha, b.key_eq hb, Line.key_eq_iff]
  refine ⟨hkeys, ⟨?_, ?_⟩, ?_, fun n event w s => Dispatch.exists_of_sending?⟩
  · -- builds of both lines can be dispatched, and bring a common key to light
    intro h l l' hl hl' hleads
    obtain ⟨a, ha, rfl⟩ := Dispatch.exists_line l
    obtain ⟨b, hb, rfl⟩ := Dispatch.exists_line l'
    exact hleads.ne ((h a b ha hb hl hl').1 ((hkeys a b ha hb).2 (.inr (.inl hleads))))
  · intro h a b ha hb hla hlb
    rw [hkeys a b ha hb]
    simp only [h _ _ hla hlb, h _ _ hlb hla, or_false]
  · intro a b ha hb hna hnb
    rw [hkeys a b ha hb]
    simp only [Line.not_leadsInto hna, Line.not_leadsInto hnb, or_false]

/-! ## A folder within a folder -/

/-- The branch `main` in the folder `team/web`, and the branch `web/main` in the folder `team`: their builds post under
one key for the same commit, and the later status takes the place of the earlier one. -/
theorem sharedKey_eq_nested :
    let n := Notifier.usual [.ofTeamSharing "red"] (some "https://ci.example.com/") fun _ => none
    let inner : Line := ⟨"team/web", "main"⟩
    let outer : Line := ⟨"team", "web/main"⟩
    let w : World := ⟨.empty, .empty 100 false, []⟩
    let keys (l : Line) := (n.handle (.completed (.ofLine "red" l)) w).posts.map (·.status.key)
    findSource? [.ofTeamSharing "red"] (Build.ofLine "red" inner).job = some (.ofTeamSharing "red") ∧
      findSource? [.ofTeamSharing "red"] (Build.ofLine "red" outer).job = some (.ofTeamSharing "red") ∧
      (Source.ofTeamSharing "red").traits.excludeOriginPrBranches = true ∧
      keys inner = ["team/web/main"] ∧ keys outer = ["team/web/main"] ∧ inner ≠ outer ∧
      ¬∀ a b : Dispatch, a.IsShared → b.IsShared → (a.key = b.key ↔ a.line = b.line) := by
  intro n inner outer w keys
  refine ⟨by decide +kernel, by decide +kernel, rfl, by decide +kernel, by decide +kernel, by decide, ?_⟩
  intro h
  obtain ⟨a, ha, hinner⟩ := Dispatch.exists_line inner
  obtain ⟨b, hb, houter⟩ := Dispatch.exists_line outer
  have hleads : outer.LeadsInto inner := .mk "team" "web" "main"
  have hkey : a.key = b.key := by rw [a.key_eq ha, b.key_eq hb, hinner, houter, hleads.key_eq]
  have hline := (h a b ha hb).1 hkey
  rw [hinner, houter] at hline
  exact absurd hline (by decide)

end CommitStatus
