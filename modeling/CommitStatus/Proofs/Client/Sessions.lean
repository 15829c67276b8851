import CommitStatus.Proofs.Client.Pool

/-!
# What is done with a pool of clients

Clients are asked for, and statuses are sent through the clients that were obtained, in any order (`Session.after`). A
use of the pool leaves everything as it is, finds a client, builds one, or posts a status (`Session.next_cases`), and
what each of these keeps holds after any uses (`Session.after_keeps`).
-/

namespace CommitStatus.ClientPool

/-- What a pool is used for: a client is asked for, in the environment of the time, or a status is sent and replied to.
It is sent through a client that was obtained, which is named by its place among these. -/
inductive Use
  | obtain (env : Environment) (source : Source) (head : Option PullRequestHead)
  | send (place : Nat) (status : Status) (reply : Reply)

/-- A client that was obtained, and what for. -/
structure Obtained where
  source : Source
  head : Option PullRequestHead
  client : Client
  deriving DecidableEq, Repr

/-- What the client is kept for. -/
def Obtained.key (o : Obtained) : ClientKey := o.source.clientKey o.head

/-- A pool, the clients that were obtained, and what was posted through which of them, first to last. -/
structure Session where
  pool : ClientPool
  obtained : List Obtained
  posted : List (Client × Post)

namespace Session

/-- A pool without clients. -/
def start (capacity : Nat) (dryRun : Bool) : Session := ⟨.empty capacity dryRun, [], []⟩

/-- A client was obtained, and the pool is another. -/
def obtaining (σ : Session) (pool : ClientPool) (o : Obtained) : Session :=
  { σ with pool, obtained := σ.obtained ++ [o] }

/-- A status was posted through a client. -/
def posting (σ : Session) (c : Client) (status : Status) : Session :=
  { σ with
    pool := { σ.pool with sent := c.number :: σ.pool.sent }
    posted := σ.posted ++ [(c, c.postOf status)] }

/-- Use the pool. -/
def next (σ : Session) : Use → Session
  | .obtain env source head =>
    match σ.pool.obtain env source head with
    | (pool, _, .ok client) => σ.obtaining pool ⟨source, head, client⟩
    | (pool, _, .error _) => { σ with pool }
  | .send place status reply =>
    match σ.obtained[place]? with
    | none => σ
    | some o =>
      let (posts, pool, _, _) := σ.pool.send [reply] o.client status
      { σ with pool, posted := σ.posted ++ posts.map (o.client, ·) }

/-- Use the pool many times. -/
def after (σ : Session) (uses : List Use) : Session := uses.foldl next σ

/-- A use of a pool changes nothing, or a client is found, or it is built, or a status is posted. -/
theorem next_cases (σ : Session) (u : Use) :
    σ.next u = σ ∨
    (∃ o : Obtained, σ.pool.find? o.key = some o.client ∧ σ.next u = σ.obtaining (σ.pool.touch o.key o.client) o) ∨
    (∃ o : Obtained, ∃ login, σ.pool.find? o.key = none ∧ 0 < σ.pool.capacity ∧
      o.client = σ.pool.fresh o.source o.head login ∧ σ.next u = σ.obtaining (σ.pool.put o.key o.client) o) ∨
    (∃ o ∈ σ.obtained, ∃ status, σ.next u = σ.posting o.client status) := by
  cases u with
  | obtain env source head =>
    rcases σ.pool.obtain_cases env source head with ⟨c, hf, ho⟩ | ⟨t, -, -, ho⟩ | ⟨login, hf, -, hroom, ho⟩
    · exact .inr (.inl ⟨⟨source, head, c⟩, hf, by simp only [next, ho]; rfl⟩)
    · exact .inl (by simp only [next, ho])
    · exact .inr (.inr (.inl ⟨⟨source, head, _⟩, login, hf, hroom, rfl, by simp only [next, ho]; rfl⟩))
  | send place status reply =>
    cases hplace : σ.obtained[place]? with
    | none => exact .inl (by simp only [next, hplace])
    | some o =>
      cases hdry : σ.pool.dryRun with
      | true => exact .inl (by simp [next, hplace, send_dry _ _ _ hdry])
      | false =>
        have hmem : o ∈ σ.obtained := List.mem_of_getElem? hplace
        exact .inr (.inr (.inr ⟨o, hmem, status, by simp [next, hplace, send_live _ _ _ hdry, posting]⟩))

/-- What each use keeps holds after any uses. -/
theorem after_keeps {P : Session → Prop} (hnext : ∀ σ u, P σ → P (σ.next u)) (uses : List Use) {σ : Session}
    (h : P σ) : P (σ.after uses) := by
  induction uses generalizing σ with
  | nil => exact h
  | cons u rest ih => exact ih (hnext σ u h)

end Session

end CommitStatus.ClientPool
