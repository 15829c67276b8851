import CommitStatus.Proofs.Web.Submission

/-!
# Whose credentials a status is sent with

Clients are kept for a server and a repository and are built with the credentials of a source. A client that is obtained
has the credentials of some source that asked for one at its server and repository (`Backed`), and these are those of
the source that asks now just if all sources that meet there ask for the same (`login_obtained`, `Agree`). Teams that
share a repository do not (`login_obtained_shared`).
-/

namespace CommitStatus

/-- What a client is asked for with. -/
structure ClientRequest where
  source : Source
  head : Option PullRequestHead
  deriving DecidableEq, Repr

namespace ClientRequest

/-- What the client is kept for. -/
def key (r : ClientRequest) : ClientKey := r.source.clientKey r.head

/-- The authentication that the source asks for. -/
def login (r : ClientRequest) (env : Environment) : Except Trouble (Option Login) := (r.source.login env).2

end ClientRequest

/-- Requests that meet at one server and repository ask for one authentication. -/
def Agree (env : Environment) (allowed : ClientRequest → Prop) : Prop :=
  ∀ a b, allowed a → allowed b → a.key = b.key → ∀ login, a.login env = .ok login → b.login env = .ok login

/-- A request for a client of this key asks for the authentication that the client has. -/
def Backed (env : Environment) (allowed : ClientRequest → Prop) (key : ClientKey) (c : Client) : Prop :=
  ∃ a, allowed a ∧ a.key = key ∧ a.login env = .ok c.login

/-- Where requests agree, a client that one of them backs has the authentication that any of them asks for. -/
theorem Agree.login_eq {env : Environment} {allowed : ClientRequest → Prop} (h : Agree env allowed) {r : ClientRequest}
    (hr : allowed r) {c : Client} (hc : Backed env allowed r.key c) : r.login env = .ok c.login := by
  obtain ⟨a, ha, hkey, hlogin⟩ := hc
  exact h a r ha hr hkey c.login hlogin

namespace ClientPool

variable {p : ClientPool} {env : Environment} {capacity : Nat} {allowed : ClientRequest → Prop}

/-- The clients after requests. -/
def serve (env : Environment) (p : ClientPool) (requests : List ClientRequest) : ClientPool :=
  requests.foldl (fun p r => (p.obtain env r.source r.head).1) p

/-- The client that a request obtains. -/
def answer (env : Environment) (p : ClientPool) (r : ClientRequest) : Except Trouble Client :=
  (p.obtain env r.source r.head).2.2

/-- One request keeps every client backed, and the client that it obtains is. -/
theorem Keeps.obtain_backed (h : p.Keeps capacity (Backed env allowed)) {r : ClientRequest} (hr : allowed r) :
    (p.obtain env r.source r.head).1.Keeps capacity (Backed env allowed) ∧
      ∀ c, p.answer env r = .ok c → 0 < capacity ∧ Backed env allowed r.key c :=
  h.obtain env r.source r.head fun _ hlogin => ⟨r, hr, rfl, hlogin⟩

/-- Requests keep every client backed. -/
theorem Keeps.serve_backed (requests : List ClientRequest) :
    ∀ {p : ClientPool}, (∀ r ∈ requests, allowed r) → p.Keeps capacity (Backed env allowed) →
      (p.serve env requests).Keeps capacity (Backed env allowed) := by
  induction requests with
  | nil =>
    intro p _ h
    exact h
  | cons r rest ih =>
    intro p hr h
    apply ih
    · intro a ha
      exact hr a (List.mem_cons_of_mem _ ha)
    · exact (h.obtain_backed (hr r List.mem_cons_self)).1

/-- After one request on its own, another that meets it obtains the same client. -/
theorem answer_serve_singleton (dryRun : Bool) (hc : 0 < capacity) {a b : ClientRequest} (hkey : a.key = b.key)
    {login : Option Login} (hlogin : a.login env = .ok login) :
    ∃ c, ((empty capacity dryRun).serve env [a]).answer env b = .ok c ∧ c.login = login := by
  have ha : (empty capacity dryRun).obtain env a.source a.head =
      ((empty capacity dryRun).put a.key ((empty capacity dryRun).fresh a.source a.head login),
        (a.source.login env).1, .ok ((empty capacity dryRun).fresh a.source a.head login)) := by
    rcases (empty capacity dryRun).obtain_cases env a.source a.head with
      ⟨c, hf, -⟩ | ⟨t, -, ht, -⟩ | ⟨login', -, hl, -, ho⟩
    · cases hf
    · rcases ht with ht | ht
      · rw [ClientRequest.login, ht] at hlogin
        cases hlogin
      · have : capacity = 0 := ht
        omega
    · rw [ClientRequest.login, hl] at hlogin
      cases hlogin
      exact ho
  have hserve : (empty capacity dryRun).serve env [a] =
      (empty capacity dryRun).put a.key ((empty capacity dryRun).fresh a.source a.head login) := by
    show ((empty capacity dryRun).obtain env a.source a.head).1 = _
    rw [ha]
  have hfind : ((empty capacity dryRun).serve env [a]).find? (b.source.clientKey b.head) =
      some ((empty capacity dryRun).fresh a.source a.head login) := by
    show (serve env (empty capacity dryRun) [a]).find? b.key = _
    rw [hserve, ← hkey]
    simp [find?, put, empty]
  refine ⟨(empty capacity dryRun).fresh a.source a.head login, ?_, rfl⟩
  simp only [answer, obtain, hfind]

end ClientPool

/-- A status that is posted has the authentication of a client that was obtained for the source of its build. -/
theorem Notifier.exists_obtain_of_mem_posts {n : Notifier} {event : Event} {w : World} {p : Post}
    (h : p ∈ (n.handle event w).posts) :
    ∃ source head client, n.findSource event.build.job = .ok (some source) ∧
      w.clients.answer n.env ⟨source, head⟩ = .ok client ∧ p.login = client.login := by
  rw [posts_handle] at h
  split at h
  · cases h
  · rw [Option.mem_toList, Option.map_eq_some_iff] at h
    obtain ⟨s, hs, rfl⟩ := h
    obtain ⟨source, w', ha, hs⟩ := exists_accept_of_sending? hs
    obtain ⟨hsource, hclients, -⟩ := accept_some ha
    obtain ⟨-, revision, hash, clients, records, url, state, -, -, ho, -⟩ := prepare_some hs
    refine ⟨source, revision.pullRequest?, s.client, hsource, ?_, rfl⟩
    rw [← hclients, ClientPool.answer, ho]

/-- **Whose authentication a client has.** Take any environment, any number of clients that are kept, and any requests.

- Whatever was asked for before, a client that is obtained has the authentication that its source asks for, just if
  requests that meet at one server and repository ask for the same, or no client can be kept.
- In any case it has the authentication that one of the requests at its server and repository asked for.
- So where the sources that meet agree, every status is posted with the authentication of the source of its build. -/
theorem login_obtained (env : Environment) (capacity : Nat) (dryRun : Bool) :
    (∀ allowed : ClientRequest → Prop,
      (∀ earlier r c, (∀ a ∈ earlier, allowed a) → allowed r →
        ((ClientPool.empty capacity dryRun).serve env earlier).answer env r = .ok c → r.login env = .ok c.login) ↔
      capacity = 0 ∨ Agree env allowed) ∧
    (∀ earlier r c, ((ClientPool.empty capacity dryRun).serve env earlier).answer env r = .ok c →
      ∃ a ∈ earlier ++ [r], a.key = r.key ∧ a.login env = .ok c.login) ∧
    (∀ (n : Notifier) markers replies submissions event p, n.env = env →
      Agree env (fun r => ∃ job, n.findSource job = .ok (some r.source)) →
      p ∈ (n.handle event (Web.worldAfter n submissions ⟨markers, .empty capacity dryRun, replies⟩)).posts →
      ∃ source, n.findSource event.build.job = .ok (some source) ∧ (source.login env).2 = .ok p.login) := by
  refine ⟨fun allowed => ⟨fun h => ?_, ?_⟩, ?_, ?_⟩
  · -- two requests in a row bring every disagreement to light
    rcases Nat.eq_zero_or_pos capacity with hc | hc
    · exact .inl hc
    · refine .inr fun a b ha hb hkey login hlogin => ?_
      obtain ⟨c, hobtained, rfl⟩ := ClientPool.answer_serve_singleton dryRun hc hkey hlogin
      refine h [a] b c ?_ hb hobtained
      intro r hr
      cases List.mem_singleton.1 hr
      exact ha
  · intro hagree earlier r c hearlier hr hobtained
    have hkeeps : ((ClientPool.empty capacity dryRun).serve env earlier).Keeps capacity (Backed env allowed) :=
      ClientPool.Keeps.serve_backed earlier hearlier (ClientPool.keeps_empty _ _ _)
    obtain ⟨hpos, hbacked⟩ := (hkeeps.obtain_backed hr).2 c hobtained
    rcases hagree with hc | hagree
    · omega
    · exact hagree.login_eq hr hbacked
  · intro earlier r c hobtained
    have hkeeps : ((ClientPool.empty capacity dryRun).serve env earlier).Keeps capacity
        (Backed env (· ∈ earlier ++ [r])) :=
      ClientPool.Keeps.serve_backed earlier (fun a ha => List.mem_append_left _ ha) (ClientPool.keeps_empty _ _ _)
    exact ((hkeeps.obtain_backed (List.mem_append_right _ List.mem_cons_self)).2 c hobtained).2
  · rintro n markers replies submissions event p rfl hagree hp
    have hkeeps : (Web.worldAfter n submissions ⟨markers, .empty capacity dryRun, replies⟩).clients.Keeps capacity
        (Backed n.env fun r => ∃ job, n.findSource job = .ok (some r.source)) := by
      refine Web.worldAfter_keeps ?_ submissions (ClientPool.keeps_empty _ _ _)
      intro q job source head login hs hl
      exact ⟨⟨source, head⟩, ⟨job, hs⟩, rfl, hl⟩
    obtain ⟨source, head, client, hsource, hobtained, hlogin⟩ := Notifier.exists_obtain_of_mem_posts hp
    have hr : ∃ job, n.findSource job = .ok (some source) := ⟨_, hsource⟩
    obtain ⟨-, hbacked⟩ := (hkeeps.obtain_backed (r := ⟨source, head⟩) hr).2 client hobtained
    refine ⟨source, hsource, ?_⟩
    rw [hlogin]
    exact hagree.login_eq (r := ⟨source, head⟩) hr hbacked

/-! ## Teams that share a repository -/

/-- Two teams with a user each, one without, and the tokens of the users. -/
def threeTeams : Notifier :=
  .usual
    [.ofTeam "red" (some ⟨"alice", "ALICE_TOKEN"⟩), .ofTeam "blue" (some ⟨"bob", "BOB_TOKEN"⟩), .ofTeam "open" none]
    (some "https://ci.example.com/") (Environment.ofList [("ALICE_TOKEN", "a"), ("BOB_TOKEN", "b")])

/-- Where teams share a repository, the one that comes later posts with the credentials of the first, whether it has a
user of its own or is to post without credentials. -/
theorem login_obtained_shared :
    let red : Source := .ofTeam "red" (some ⟨"alice", "ALICE_TOKEN"⟩)
    let blue : Source := .ofTeam "blue" (some ⟨"bob", "BOB_TOKEN"⟩)
    let after := (threeTeams.handle (.completed (.ofTeam "red")) ⟨.empty, .empty 100 false, []⟩).world
    (((ClientPool.empty 100 false).serve threeTeams.env [⟨red, none⟩]).answer threeTeams.env ⟨blue, none⟩).map
        Client.login = .ok (some ⟨"alice", "a"⟩) ∧
      (blue.login threeTeams.env).2 = .ok (some ⟨"bob", "b"⟩) ∧
      (threeTeams.handle (.completed (.ofTeam "open")) after).posts.map Post.login = [some ⟨"alice", "a"⟩] ∧
      threeTeams.findSource (Build.ofTeam "open").job = .ok (some (.ofTeam "open" none)) ∧
      ((Source.ofTeam "open" none).login threeTeams.env).2 = .ok none := by
  intro red blue after
  refine ⟨?_, ?_, ?_, ?_, ?_⟩
  · rfl
  · rfl
  · decide +kernel
  · rfl
  · rfl

end CommitStatus
