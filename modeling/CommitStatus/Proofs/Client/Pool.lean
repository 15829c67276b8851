import CommitStatus.Client.Pool

/-!
# What the pool of clients does

A client for a source is found among those that are kept, or it is built, or it cannot be had (`obtain_cases`). So what
holds of every client that is built holds of every client that is kept or obtained (`Keeps.obtain`), and sending changes
none (`Keeps.send`). Where a client sends to is such a property: it depends on the key alone (`Addressed.obtain`).
-/

namespace CommitStatus

/-- Sources on one server send to one host. -/
theorem Source.host_congr {s t : Source} (h : s.serverUrl = t.serverUrl) : s.host = t.host := by
  unfold Source.host Source.isCloud
  rw [h]

/-- A client sends to the server and the repository of a key. -/
structure Client.Addresses (c : Client) (key : ClientKey) : Prop where
  host : ∀ s : Source, s.serverUrl = key.serverUrl → c.host = s.host
  owner : c.owner = key.owner
  repository : c.repository = key.repository

/-- Clients for one key send statuses of a commit to one address. -/
theorem Client.Addresses.statusUrl {c d : Client} {s : Source} {head : Option PullRequestHead}
    (hc : c.Addresses (s.clientKey head)) (hd : d.Addresses (s.clientKey head)) (hash : String) :
    c.statusUrl hash = d.statusUrl hash := by
  simp only [Client.statusUrl, hc.host s rfl, hd.host s rfl, hc.owner, hd.owner, hc.repository, hd.repository]

/-- A client for a source is one for the cloud if the source is. -/
theorem Client.Addresses.isCloud {c : Client} {s : Source} {head : Option PullRequestHead}
    (h : c.Addresses (s.clientKey head)) : c.isCloud = s.isCloud := by
  unfold Client.isCloud
  rw [h.host s rfl, Source.host]
  cases s.isCloud <;> simp

/-- The address of the status of a commit, which may belong to a pull request. -/
def Source.endpoint (s : Source) (head : Option PullRequestHead) (hash : String) : String :=
  if s.isCloud then
    cloudApiUrl ++ "/2.0/repositories/" ++ (s.repositoryFor head).1 ++ "/" ++ (s.repositoryFor head).2 ++ "/commit/" ++
      hash ++ "/statuses/build"
  else s.serverUrl ++ "/rest/build-status/1.0/commits/" ++ hash

/-- A client that sends to what it is kept for sends to the address of the source. -/
theorem Client.Addresses.statusUrl_eq {c : Client} {s : Source} {head : Option PullRequestHead}
    (h : c.Addresses (s.clientKey head)) (hash : String) : c.statusUrl hash = s.endpoint head hash := by
  simp only [Client.statusUrl, Source.endpoint, h.host s rfl, h.owner, h.repository, Source.host]
  cases s.isCloud <;> rfl

/-- Authentication is in order where the user's name holds no colon. -/
theorem Source.exists_login (env : Environment) {s : Source}
    (h : ∀ c, s.credentials = some c → ':' ∉ c.username.toList) : ∃ login, (s.login env).2 = .ok login := by
  unfold Source.login
  cases hc : s.credentials with
  | none => exact ⟨_, rfl⟩
  | some c =>
    dsimp only
    cases c.token? env with
    | none => exact ⟨_, rfl⟩
    | some token =>
      have hu : c.username.toList.contains ':' = false := by simpa using h c hc
      exact ⟨_, by simp only [hu]; rfl⟩

/-- Authentication fails for a colon in the user's name only. -/
theorem Source.login_error {env : Environment} {s : Source} {t : Trouble} (h : (s.login env).2 = .error t) :
    t = .colonInUsername := by
  unfold Source.login at h
  cases hc : s.credentials with
  | none => simp [hc] at h
  | some c =>
    cases ht : c.token? env with
    | none => simp [hc, ht] at h
    | some token =>
      simp only [hc, ht] at h
      split at h <;> simp_all

namespace ClientPool

variable {p : ClientPool} {env : Environment} {s : Source} {head : Option PullRequestHead}

/-- The client that is built for a source when none is kept. -/
def fresh (p : ClientPool) (s : Source) (head : Option PullRequestHead) (login : Option Login) : Client :=
  ⟨p.built, s.host, (s.clientKey head).owner, (s.clientKey head).repository, login⟩

theorem fresh_addresses (p : ClientPool) (s : Source) (head : Option PullRequestHead) (login : Option Login) :
    (p.fresh s head login).Addresses (s.clientKey head) :=
  ⟨fun _ h => (Source.host_congr h).symm, rfl, rfl⟩

/-- A client is found, or cannot be had, or is built. -/
theorem obtain_cases (p : ClientPool) (env : Environment) (s : Source) (head : Option PullRequestHead) :
    (∃ c, p.find? (s.clientKey head) = some c ∧ p.obtain env s head = (p.touch (s.clientKey head) c, [], .ok c)) ∨
    (∃ t, p.find? (s.clientKey head) = none ∧ ((s.login env).2 = .error t ∨ p.capacity = 0) ∧
      p.obtain env s head = (p, (s.login env).1, .error t)) ∨
    (∃ login, p.find? (s.clientKey head) = none ∧ (s.login env).2 = .ok login ∧ 0 < p.capacity ∧
      p.obtain env s head =
        (p.put (s.clientKey head) (p.fresh s head login), (s.login env).1, .ok (p.fresh s head login))) := by
  cases hf : p.find? (s.clientKey head) with
  | some c => exact .inl ⟨c, rfl, by simp only [obtain, hf]⟩
  | none =>
    rcases hl : s.login env with ⟨records, t | login⟩
    · exact .inr (.inl ⟨t, rfl, .inl rfl, by simp only [obtain, hf, hl]⟩)
    · by_cases hc : p.capacity = 0
      · exact .inr (.inl ⟨.noRoom, rfl, .inr hc, by simp only [obtain, hf, hl, hc, if_true]⟩)
      · exact .inr (.inr ⟨login, rfl, rfl, Nat.pos_of_ne_zero hc, by simp only [obtain, hf, hl, hc, if_false, fresh]⟩)

/-- Obtaining a client changes neither the room for clients nor what was sent. -/
theorem obtain_untouched (p : ClientPool) (env : Environment) (s : Source) (head : Option PullRequestHead) :
    (p.obtain env s head).1.capacity = p.capacity ∧ (p.obtain env s head).1.dryRun = p.dryRun ∧
      (p.obtain env s head).1.sent = p.sent := by
  rcases p.obtain_cases env s head with ⟨c, -, h⟩ | ⟨t, -, -, h⟩ | ⟨login, -, -, -, h⟩ <;> rw [h] <;>
    exact ⟨rfl, rfl, rfl⟩

/-- What is put behind the clients that are kept is found, unless there is a client for the same key. -/
theorem lookup_concat {kept : List (ClientKey × Client)} {key : ClientKey} {c : Client}
    (h : ∀ x ∈ kept, x.1 ≠ key) : (kept ++ [(key, c)]).lookup key = some c :=
  List.lookup_eq_some_iff.2 ⟨kept, [], rfl, fun x hx => bne_iff_ne.2 (h x hx).symm⟩

/-- A client that was obtained is found at once. -/
theorem find?_of_obtain {pool : ClientPool} {records : List LogRecord} {c : Client}
    (h : p.obtain env s head = (pool, records, .ok c)) : pool.find? (s.clientKey head) = some c := by
  rcases p.obtain_cases env s head with ⟨d, hf, ho⟩ | ⟨t, -, -, ho⟩ | ⟨login, hf, -, -, ho⟩ <;> rw [h] at ho <;>
    cases ho
  · exact lookup_concat fun x hx => by simpa using (List.mem_filter.1 hx).2
  · have hnone := List.lookup_eq_none_iff.1 hf
    exact lookup_concat fun x hx => (bne_iff_ne.1 (hnone x (List.mem_of_mem_drop hx))).symm

/-- A client can be had where there is room and the source's authentication is in order. -/
theorem exists_obtain (p : ClientPool) (head : Option PullRequestHead) (hc : 0 < p.capacity) {login : Option Login}
    (hl : (s.login env).2 = .ok login) : ∃ c, (p.obtain env s head).2.2 = .ok c := by
  rcases p.obtain_cases env s head with ⟨c, -, h⟩ | ⟨t, -, h | h, -⟩ | ⟨login, -, -, -, h⟩
  · exact ⟨c, by rw [h]⟩
  · rw [hl] at h; cases h
  · omega
  · exact ⟨_, by rw [h]⟩

/-- A client cannot be had for a colon in the user's name or for want of room. -/
theorem obtain_error {t : Trouble} (h : (p.obtain env s head).2.2 = .error t) : t = .colonInUsername ∨ t = .noRoom := by
  unfold obtain at h
  cases hf : p.find? (s.clientKey head) with
  | some c => simp [hf] at h
  | none =>
    rcases hl : s.login env with ⟨records, u | login⟩
    · simp only [hf, hl, Except.error.injEq] at h
      subst h
      exact .inl (s.login_error (by rw [hl]))
    · simp only [hf, hl] at h
      split at h
      · cases h; exact .inr rfl
      · cases h

/-! ## Sending -/

section Sending

variable (replies : List Reply) (c : Client) (status : Status)

/-- A dry run sends nothing. -/
theorem send_dry (h : p.dryRun = true) : p.send replies c status = ([], p, replies, none) := by
  rw [send, if_pos h]

/-- Any other run posts the status and takes the next answer. -/
theorem send_live (h : p.dryRun = false) :
    p.send replies c status =
      ([c.postOf status], { p with sent := c.number :: p.sent }, (Reply.next replies).2,
        (Reply.next replies).1.trouble? (c.statusUrl status.hash)) := by
  rw [send, h]
  rfl

end Sending

/-- Sending changes neither the room for clients nor the clients that are kept. -/
theorem send_untouched (p : ClientPool) (replies : List Reply) (c : Client) (status : Status) :
    (p.send replies c status).2.1.capacity = p.capacity ∧ (p.send replies c status).2.1.kept = p.kept := by
  cases hd : p.dryRun with
  | true => rw [send_dry _ _ _ hd]; exact ⟨rfl, rfl⟩
  | false => rw [send_live _ _ _ hd]; exact ⟨rfl, rfl⟩

/-! ## Properties of the clients that are kept -/

variable {capacity : Nat} {R : ClientKey → Client → Prop}

/-- There is room for so many clients, and each that is kept is related to its key. -/
structure Keeps (capacity : Nat) (R : ClientKey → Client → Prop) (p : ClientPool) : Prop where
  room : p.capacity = capacity
  related : ∀ key c, (key, c) ∈ p.kept → 0 < capacity ∧ R key c

theorem keeps_empty (capacity : Nat) (R : ClientKey → Client → Prop) (dryRun : Bool) :
    (empty capacity dryRun).Keeps capacity R where
  room := rfl
  related _ _ h := by cases h

theorem mem_kept_of_find? {key : ClientKey} {c : Client} (h : p.find? key = some c) : (key, c) ∈ p.kept := by
  obtain ⟨l₁, l₂, hk, -⟩ := List.lookup_eq_some_iff.1 h
  rw [hk]
  exact List.mem_append_right _ List.mem_cons_self

/-- What holds of a client that is built holds of those that are kept and obtained. -/
theorem Keeps.obtain (h : p.Keeps capacity R) (env : Environment) (s : Source) (head : Option PullRequestHead)
    (hfresh : ∀ login, (s.login env).2 = .ok login → R (s.clientKey head) (p.fresh s head login)) :
    (p.obtain env s head).1.Keeps capacity R ∧
      ∀ c, (p.obtain env s head).2.2 = .ok c → 0 < capacity ∧ R (s.clientKey head) c := by
  rcases p.obtain_cases env s head with ⟨c, hf, ho⟩ | ⟨t, -, -, ho⟩ | ⟨login, -, hl, hc, ho⟩
  · have hR := h.related _ _ (mem_kept_of_find? hf)
    rw [ho]
    refine ⟨⟨h.room, fun key d hd => ?_⟩, fun d hd => by cases hd; exact hR⟩
    rcases List.mem_append.1 hd with hd | hd
    · exact h.related key d (List.mem_filter.1 hd).1
    · cases List.mem_singleton.1 hd; exact hR
  · rw [ho]
    exact ⟨h, fun d hd => by cases hd⟩
  · have hR := And.intro (h.room ▸ hc) (hfresh login hl)
    rw [ho]
    refine ⟨⟨h.room, fun key d hd => ?_⟩, fun d hd => by cases hd; exact hR⟩
    rcases List.mem_append.1 hd with hd | hd
    · exact h.related key d (List.mem_of_mem_drop hd)
    · cases List.mem_singleton.1 hd; exact hR

/-- Sending changes no client. -/
theorem Keeps.send (h : p.Keeps capacity R) (replies : List Reply) (c : Client) (status : Status) :
    (p.send replies c status).2.1.Keeps capacity R := by
  obtain ⟨hc, hk⟩ := p.send_untouched replies c status
  exact ⟨hc.trans h.room, fun key d hd => h.related key d (hk ▸ hd)⟩

/-- There is room for clients, and each that is kept sends to what it is kept for. -/
def Addressed (capacity : Nat) (p : ClientPool) : Prop := p.Keeps capacity fun key c => c.Addresses key

theorem addressed_empty (capacity : Nat) (dryRun : Bool) : (empty capacity dryRun).Addressed capacity :=
  keeps_empty capacity _ dryRun

/-- Obtaining a client keeps the clients addressed, and the client that is obtained is. -/
theorem Addressed.obtain (h : p.Addressed capacity) (env : Environment) (s : Source)
    (head : Option PullRequestHead) :
    (p.obtain env s head).1.Addressed capacity ∧
      ∀ c, (p.obtain env s head).2.2 = .ok c → 0 < capacity ∧ c.Addresses (s.clientKey head) :=
  Keeps.obtain h env s head fun login _ => fresh_addresses p s head login

end ClientPool

end CommitStatus
