import CommitStatus.Proofs.Client.Recency
import CommitStatus.Proofs.Source.Spelling
import CommitStatus.Proofs.Url.Slashes
import Mathlib.Algebra.BigOperators.Group.Finset.Basic

/-!
# Where clients post and how often

What was obtained and posted with a pool of clients is a book of it (`Session.Booked`): it says of each client what for
it was obtained, so where it sends to, and of each post which client it went through. Each use keeps it (`Booked.next`),
whether a client is obtained again, built or posted through; clients that are gone stay in it.

* A source's server is the one that its data name, without the slashes at the end (`Source.exists_namesServer`). These
  decide on the key of a client, and with it on the address of its posts (`clientKey_eq_iff`, `statusUrl_eq_ite`).
* Clients are counted by their numbers, and these tell them apart: so the count of a client is that of its posts
  (`Booked.sentThrough_eq`), and all counts together are that of all posts (`Booked.sum_sentThrough`).

Both are put together in `posted_and_counted`.
-/

namespace CommitStatus

open Record Datum Url

/-! ## The server of a source -/

/-- Data of a source name the URL of a server; where they do not give one, it is that of the cloud. -/
def Source.NamesServer (data : Datum) (url : String) : Prop :=
  ∃ m, data = .mapping m ∧ setting (spelt ["server", "url"]) (.valid cloudUrl) checkText m = .valid url

/-- The URL of a source's server is the one that the data name, without the slashes at its end. -/
theorem Source.exists_namesServer {data : Datum} {s : Source} (h : check data = .valid s) :
    ∃ url, NamesServer data url ∧ s.serverUrl = withoutSlashes url := by
  obtain ⟨m, rfl, -, hread⟩ := check_eq_valid_iff.1 h
  have hcloud : withoutSlashes cloudUrl = cloudUrl := String.toList_inj.1 (String.toList_ofList.trans trimmed_cloudUrl)
  have hserver := setting_map withoutSlashes (spelt ["server", "url"]) (.valid cloudUrl) checkText m
  rw [Checked.map, hcloud] at hserver
  obtain ⟨url, hurl, heq⟩ := Checked.map_eq_valid_iff.1 (hserver.symm.trans hread.serverUrl)
  exact ⟨url, ⟨m, rfl, hurl⟩, heq.symm⟩

/-- Dropping the slashes at the end of a source's URL once more leaves the host as it is. -/
theorem Source.host_eq_of_check {data : Datum} {s : Source} (h : check data = .valid s) :
    s.host = if s.isCloud then .cloud else .server (withoutSlashes s.serverUrl) := by
  rw [host, withoutSlashes, show _ = _ from trimmed_serverUrl h, String.ofList_toList]

theorem Source.NamesServer.unique {data : Datum} {url url' : String} (h : NamesServer data url)
    (h' : NamesServer data url') : url = url' := by
  obtain ⟨m, rfl, hurl⟩ := h
  obtain ⟨m', heq, hurl'⟩ := h'
  cases heq
  exact Checked.valid.inj (hurl.symm.trans hurl')

namespace ClientPool

/-! ## What is known of a session -/

/-- Clients send to what they were obtained for. Each client that was built was obtained, and its number tells it from
all others. What was posted is what these clients send for statuses, and the numbers of the clients are noted, the last
one first. -/
structure Session.Booked (σ : Session) : Prop where
  addressed : ∀ o ∈ σ.obtained, o.client.Addresses o.key
  single : ∀ o ∈ σ.obtained, ∀ d ∈ σ.obtained, o.client.number = d.client.number → o.client = d.client
  built : ∀ n < σ.pool.built, ∃ o ∈ σ.obtained, o.client.number = n
  posted : ∀ x ∈ σ.posted, ∃ o ∈ σ.obtained, ∃ status, x = (o.client, o.client.postOf status)
  sent : σ.pool.sent = (σ.posted.map (·.1.number)).reverse

namespace Session

variable {σ : Session} {capacity : Nat} {o : Obtained}

theorem booked_start (capacity : Nat) (dryRun : Bool) : (start capacity dryRun).Booked where
  addressed _ h := by cases h
  single _ h := by cases h
  built _ h := by cases h
  posted _ h := by cases h
  sent := rfl

/-- A client is obtained that is meant for its key, and that is new or was obtained before. -/
theorem Booked.obtaining {pool : ClientPool} (h : σ.Booked) (haddresses : o.client.Addresses o.key)
    (hsingle : ∀ d ∈ σ.obtained, d.client.number = o.client.number → d.client = o.client)
    (hbuilt : ∀ n < pool.built, n < σ.pool.built ∨ o.client.number = n) (hsent : pool.sent = σ.pool.sent) :
    (σ.obtaining pool o).Booked where
  addressed d hd := by
    rcases List.mem_append.1 hd with hd | hd
    · exact h.addressed d hd
    · cases List.mem_singleton.1 hd
      exact haddresses
  single d hd e he hnumber := by
    rcases List.mem_append.1 hd with hd | hd <;> rcases List.mem_append.1 he with he | he
    · exact h.single d hd e he hnumber
    · cases List.mem_singleton.1 he
      exact hsingle d hd hnumber
    · cases List.mem_singleton.1 hd
      exact (hsingle e he hnumber.symm).symm
    · cases List.mem_singleton.1 hd
      cases List.mem_singleton.1 he
      rfl
  built n hn := by
    rcases hbuilt n hn with hn | hn
    · obtain ⟨d, hd, hnumber⟩ := h.built n hn
      exact ⟨d, List.mem_append_left _ hd, hnumber⟩
    · exact ⟨o, List.mem_append_right _ List.mem_cons_self, hn⟩
  posted x hx := by
    obtain ⟨d, hd, status, heq⟩ := h.posted x hx
    exact ⟨d, List.mem_append_left _ hd, status, heq⟩
  sent := hsent.trans h.sent

/-- A client that is kept was obtained, so it may be obtained again. -/
theorem Booked.touch (h : σ.Booked) (hrecent : σ.Recent capacity) (hf : σ.pool.find? o.key = some o.client) :
    (σ.obtaining (σ.pool.touch o.key o.client) o).Booked := by
  obtain ⟨d, hd, hkey, hclient⟩ := hrecent.exists_obtained (mem_kept_of_find? hf)
  refine h.obtaining (hkey ▸ hclient ▸ h.addressed d hd) (fun e he hnumber => ?_) (fun n hn => .inl hn) rfl
  rw [← hclient] at hnumber ⊢
  exact h.single e he d hd hnumber

/-- A client that is built has a number of its own. -/
theorem Booked.put (h : σ.Booked) (hrecent : σ.Recent capacity) {login : Option Login}
    (hbuilt : o.client = σ.pool.fresh o.source o.head login) :
    (σ.obtaining (σ.pool.put o.key o.client) o).Booked := by
  have hnumber : o.client.number = σ.pool.built := by rw [hbuilt]; rfl
  refine h.obtaining (hbuilt ▸ fresh_addresses ..) (fun d hd heq => ?_) (fun n hn => ?_) rfl
  · have := hrecent.numbered d hd
    omega
  · change n < σ.pool.built + 1 at hn
    omega

/-- A status is posted through a client that was obtained. -/
theorem Booked.posting (h : σ.Booked) (ho : o ∈ σ.obtained) (status : Status) : (σ.posting o.client status).Booked where
  addressed := h.addressed
  single := h.single
  built := h.built
  posted x hx := by
    rcases List.mem_append.1 hx with hx | hx
    · exact h.posted x hx
    · cases List.mem_singleton.1 hx
      exact ⟨o, ho, status, rfl⟩
  sent := by simp [Session.posting, h.sent]

/-- Each use of a pool keeps the books. -/
theorem Booked.next (h : σ.Booked) (hrecent : σ.Recent capacity) (u : Use) : (σ.next u).Booked := by
  rcases σ.next_cases u with hu | ⟨o, hf, hu⟩ | ⟨o, login, -, -, hbuilt, hu⟩ | ⟨o, ho, status, hu⟩ <;> rw [hu]
  · exact h
  · exact h.touch hrecent hf
  · exact h.put hrecent hbuilt
  · exact h.posting ho status

theorem booked_after (capacity : Nat) (dryRun : Bool) (uses : List Use) :
    ((start capacity dryRun).after uses).Booked := by
  have hnext : ∀ σ u, Recent capacity σ ∧ Booked σ → Recent capacity (σ.next u) ∧ Booked (σ.next u) :=
    fun σ u h => ⟨h.1.next u, h.2.next h.1 u⟩
  exact (after_keeps hnext uses ⟨recent_start capacity dryRun, booked_start capacity dryRun⟩).2

/-! ## Counts -/

/-- As many statuses are counted for a client as were posted through it. -/
theorem Booked.sentThrough_eq (h : σ.Booked) (ho : o ∈ σ.obtained) :
    σ.pool.sentThrough o.client = (σ.posted.map Prod.fst).count o.client := by
  rw [sentThrough, h.sent, List.count_reverse, List.count, List.count, List.countP_map, List.countP_map]
  refine List.countP_congr fun x hx => ?_
  obtain ⟨d, hd, status, rfl⟩ := h.posted x hx
  simp only [Function.comp_apply, beq_iff_eq]
  exact ⟨h.single d hd o ho, congrArg Client.number⟩

/-- The clients that were obtained are all that were built. -/
theorem Booked.card_clients (h : σ.Booked) (hrecent : σ.Recent capacity) :
    (σ.obtained.map Obtained.client).toFinset.card = σ.pool.built := by
  have himage : (σ.obtained.map Obtained.client).toFinset.image Client.number = Finset.range σ.pool.built := by
    ext n
    simp only [Finset.mem_image, List.mem_toFinset, List.mem_map, Finset.mem_range]
    constructor
    · rintro ⟨_, ⟨o, ho, rfl⟩, rfl⟩
      exact hrecent.numbered o ho
    · intro hn
      obtain ⟨o, ho, hnumber⟩ := h.built n hn
      exact ⟨o.client, ⟨o, ho, rfl⟩, hnumber⟩
  rw [← Finset.card_range σ.pool.built, ← himage, Finset.card_image_of_injOn]
  intro c hc d hd hnumber
  obtain ⟨o, ho, rfl⟩ := List.mem_map.1 (List.mem_toFinset.1 (Finset.mem_coe.1 hc))
  obtain ⟨e, he, rfl⟩ := List.mem_map.1 (List.mem_toFinset.1 (Finset.mem_coe.1 hd))
  exact h.single o ho e he hnumber

/-- Whatever was posted is counted for one client. -/
theorem Booked.sum_sentThrough (h : σ.Booked) :
    ∑ c ∈ (σ.obtained.map Obtained.client).toFinset, σ.pool.sentThrough c = σ.posted.length := by
  have hcount : ∀ c ∈ (σ.obtained.map Obtained.client).toFinset,
      σ.pool.sentThrough c = Multiset.count c (σ.posted.map Prod.fst : List Client) := by
    intro c hc
    obtain ⟨o, ho, rfl⟩ := List.mem_map.1 (List.mem_toFinset.1 hc)
    rw [h.sentThrough_eq ho, Multiset.coe_count]
  have hmem : ∀ c ∈ (↑(σ.posted.map Prod.fst) : Multiset Client), c ∈ (σ.obtained.map Obtained.client).toFinset := by
    intro c hc
    obtain ⟨x, hx, rfl⟩ := List.mem_map.1 hc
    obtain ⟨o, ho, status, rfl⟩ := h.posted x hx
    exact List.mem_toFinset.2 (List.mem_map_of_mem ho)
  rw [Finset.sum_congr rfl hcount, Multiset.sum_count_eq_card hmem, Multiset.coe_card, List.length_map]

end Session

/-! ## Addresses and counts -/

/-- A client for the cloud names its repository in the address of a status, and any other client names its server. -/
theorem statusUrl_eq_ite {c : Client} {s : Source} {head : Option PullRequestHead} (h : c.Addresses (s.clientKey head))
    (hash : String) :
    c.statusUrl hash =
      if c.isCloud then
        cloudApiUrl ++ "/2.0/repositories/" ++ c.owner ++ "/" ++ c.repository ++ "/commit/" ++ hash ++ "/statuses/build"
      else s.serverUrl ++ "/rest/build-status/1.0/commits/" ++ hash := by
  rw [h.statusUrl_eq, Source.endpoint, h.isCloud, h.owner, h.repository]
  rfl

/-- A client for a source is one for the cloud if the data of the source name the cloud. -/
theorem isCloud_iff {c : Client} {s : Source} {head : Option PullRequestHead} (h : c.Addresses (s.clientKey head))
    {url : String} (hurl : s.serverUrl = withoutSlashes url) :
    c.isCloud = true ↔ withoutSlashes url = cloudUrl ∨ withoutSlashes url = cloudApiUrl := by
  rw [h.isCloud, Source.isCloud, hurl]
  simp

/-- Clients for two sources are kept for one key if the sources' servers are the same but for slashes at the end and the
repositories are the same. -/
theorem clientKey_eq_iff {s s' : Source} {head head' : Option PullRequestHead} {url url' : String}
    (hurl : s.serverUrl = withoutSlashes url) (hurl' : s'.serverUrl = withoutSlashes url') :
    s.clientKey head = s'.clientKey head' ↔ SameBefore url url' ∧ s.repositoryFor head = s'.repositoryFor head' := by
  rw [sameBefore_iff, Source.clientKey, Source.clientKey, hurl, hurl', ClientKey.mk.injEq, ← Prod.ext_iff]

/-- **Clients post where they are asked to, and every post is counted.** Use a pool of clients in any way.

- Take a client that was obtained, and the server that the data of the source name. The client is one for the cloud just
  if that server is, without slashes at the end of its URL; any other client is for the source's URL, from which slashes
  may be dropped once more. Its repository is that of the pull request, or else that of the source. Whatever was posted
  through it went to the address that these make.
- There is one client for a key at most. Sources have one key just if their servers are the same but for slashes at the
  end, and the repositories are the same; then who asks next gets the client that the one before got.
- For each client as many statuses are counted as were posted through it, whatever was replied; these are all that were
  posted, since every client that was built was obtained. -/
theorem posted_and_counted (capacity : Nat) (dryRun : Bool) (uses : List Use) :
    let σ := (Session.start capacity dryRun).after uses
    let clients := (σ.obtained.map Obtained.client).toFinset
    (∀ o ∈ σ.obtained, ∀ data, Source.check data = .valid o.source →
      ∃ url, Source.NamesServer data url ∧
        (o.client.isCloud = true ↔ withoutSlashes url = cloudUrl ∨ withoutSlashes url = cloudApiUrl) ∧
        o.client.host = (if o.client.isCloud then .cloud else .server (withoutSlashes o.source.serverUrl)) ∧
        (o.client.owner, o.client.repository) = o.source.repositoryFor o.head ∧
        ∀ post, (o.client, post) ∈ σ.posted →
          post.url =
            if o.client.isCloud then
              "https://api.bitbucket.org" ++ "/2.0/repositories/" ++ o.client.owner ++ "/" ++ o.client.repository ++
                "/commit/" ++ post.status.hash ++ "/statuses/build"
            else withoutSlashes url ++ "/rest/build-status/1.0/commits/" ++ post.status.hash) ∧
    (σ.pool.kept.map Prod.fst).Nodup ∧
    (∀ data data' s s' url url' head head', Source.check data = .valid s → Source.check data' = .valid s' →
      Source.NamesServer data url → Source.NamesServer data' url' →
      (s.clientKey head = s'.clientKey head' ↔ SameBefore url url' ∧ s.repositoryFor head = s'.repositoryFor head') ∧
      (s.clientKey head = s'.clientKey head' → ∀ env env' pool records c,
        σ.pool.obtain env s head = (pool, records, .ok c) → (pool.obtain env' s' head').2.2 = .ok c)) ∧
    (∀ o ∈ σ.obtained, σ.pool.sentThrough o.client = (σ.posted.map Prod.fst).count o.client) ∧
    clients.card = σ.pool.built ∧ ∑ c ∈ clients, σ.pool.sentThrough c = σ.posted.length := by
  intro σ clients
  have hrecent : σ.Recent capacity := Session.recent_after capacity dryRun uses
  have hbooked : σ.Booked := Session.booked_after capacity dryRun uses
  refine ⟨fun o ho data hdata => ?_, hrecent.nodup_kept, ?_, fun o ho => hbooked.sentThrough_eq ho,
    hbooked.card_clients hrecent, hbooked.sum_sentThrough⟩
  · obtain ⟨url, hnames, hurl⟩ := Source.exists_namesServer hdata
    have haddresses := hbooked.addressed o ho
    have hhost : o.client.host = if o.client.isCloud then .cloud else .server (withoutSlashes o.source.serverUrl) := by
      rw [haddresses.host o.source rfl, haddresses.isCloud, Source.host_eq_of_check hdata]
    refine ⟨url, hnames, isCloud_iff haddresses hurl, hhost, Prod.ext haddresses.owner haddresses.repository, ?_⟩
    intro post hpost
    obtain ⟨d, hd, status, heq⟩ := hbooked.posted _ hpost
    obtain ⟨hclient, rfl⟩ := Prod.mk.inj heq
    rw [← hclient]
    change o.client.statusUrl status.hash = _
    rw [statusUrl_eq_ite haddresses, hurl]
    rfl
  · intro data data' s s' url url' head head' hs hs' hnames hnames'
    obtain ⟨u, hu, hurl⟩ := Source.exists_namesServer hs
    obtain ⟨u', hu', hurl'⟩ := Source.exists_namesServer hs'
    rw [hu.unique hnames] at hurl
    rw [hu'.unique hnames'] at hurl'
    refine ⟨clientKey_eq_iff hurl hurl', fun hkey env env' pool records c hobtain => ?_⟩
    have hfound := find?_of_obtain hobtain
    rw [hkey] at hfound
    simp only [obtain, hfound]

end ClientPool

end CommitStatus
