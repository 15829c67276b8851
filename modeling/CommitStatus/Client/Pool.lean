import CommitStatus.Client.Basic

/-!
# The pool of clients

Clients are kept for their addresses. When there is no room for another, the one that was used the longest ago goes.
Through which clients statuses were sent is counted, also for clients that are gone.

* `ClientPool.find?`, `touch` and `put` work on the clients that are kept, the one used the longest ago first;
* `ClientPool.obtain` finds or builds a client;
* `ClientPool.send` sends a status and takes the answer to it from a list of answers.
-/

namespace CommitStatus

/-- What clients are kept for. -/
structure ClientKey where
  serverUrl : String
  owner : String
  repository : String
  deriving DecidableEq, Repr

/-- The clients that are kept, the one used the longest ago first, the number of clients that were built, and the
numbers of the clients through which statuses were sent. A dry run sends none. -/
structure ClientPool where
  capacity : Nat
  dryRun : Bool
  kept : List (ClientKey × Client)
  built : Nat
  sent : List Nat
  deriving DecidableEq, Repr

/-- What happens to a status that is sent. -/
inductive Reply
  | answer (status : Int) (body : String)
  | failure (t : Trouble)
  deriving DecidableEq, Repr

/-- Whether an answer is an error, as the trouble that it makes. -/
def Reply.trouble? (url : String) : Reply → Option Trouble
  | .answer status body => if 400 ≤ status then some (.refused status body url) else none
  | .failure t => some t

/-- The next of the answers, and those behind it. When there are no more, all is well. -/
def Reply.next : List Reply → Reply × List Reply
  | [] => (.answer 200 "", [])
  | r :: rest => (r, rest)

/-- The repository that a status goes to: that of the pull request, if there is one, or else that of the source. -/
def Source.repositoryFor (s : Source) : Option PullRequestHead → String × String
  | some head => (head.repoOwner, head.repository)
  | none => (s.repoOwner, s.repository)

/-- What the client for a status is kept for. -/
def Source.clientKey (s : Source) (head : Option PullRequestHead) : ClientKey :=
  let (owner, repository) := s.repositoryFor head
  ⟨s.serverUrl, owner, repository⟩

namespace ClientPool

/-- The number of clients that are kept by default. -/
def usualCapacity : Nat := 100

/-- A pool without clients. -/
def empty (capacity : Nat) (dryRun : Bool) : ClientPool := ⟨capacity, dryRun, [], 0, []⟩

/-- A pool for at most so many clients; their number cannot be negative. -/
def ofLimit? (limit : Int) (dryRun : Bool) : Option ClientPool :=
  if limit < 0 then none else some (empty limit.toNat dryRun)

/-- The client that is kept for a key. -/
def find? (p : ClientPool) (key : ClientKey) : Option Client := p.kept.lookup key

/-- Note that the client for a key was used. -/
def touch (p : ClientPool) (key : ClientKey) (c : Client) : ClientPool :=
  { p with kept := p.kept.filter (·.1 ≠ key) ++ [(key, c)] }

/-- Keep a new client. Those that were used the longest ago go until there is room. -/
def put (p : ClientPool) (key : ClientKey) (c : Client) : ClientPool :=
  { p with kept := p.kept.drop (p.kept.length + 1 - p.capacity) ++ [(key, c)], built := p.built + 1 }

/-- Find or build the client for the statuses of a source, with what is logged. A client that is kept is taken as it
is. -/
def obtain (p : ClientPool) (env : Environment) (s : Source) (head : Option PullRequestHead) :
    ClientPool × List LogRecord × Except Trouble Client :=
  let key := s.clientKey head
  match p.find? key with
  | some c => (p.touch key c, [], .ok c)
  | none =>
    match s.login env with
    | (records, .error t) => (p, records, .error t)
    | (records, .ok login) =>
      if p.capacity = 0 then (p, records, .error .noRoom)
      else
        let c : Client := ⟨p.built, s.host, key.owner, key.repository, login⟩
        (p.put key c, records, .ok c)

/-- The number of statuses that were sent through a client. -/
def sentThrough (p : ClientPool) (c : Client) : Nat := p.sent.count c.number

/-- Send a status: what was sent, the pool and the answers afterwards, and the trouble if there was any. -/
def send (p : ClientPool) (replies : List Reply) (c : Client) (status : Status) :
    List Post × ClientPool × List Reply × Option Trouble :=
  if p.dryRun then ([], p, replies, none)
  else
    let (reply, rest) := Reply.next replies
    ([c.postOf status], { p with sent := c.number :: p.sent }, rest, reply.trouble? (c.statusUrl status.hash))

end ClientPool

end CommitStatus
