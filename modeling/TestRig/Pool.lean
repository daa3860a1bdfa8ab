import TestRig.Failure
import TestRig.Token

/-!
# Worker pool

A fixed number of workers take jobs from a bounded list in order. A job may be submitted under a
token; the token is live from then until the job ends, is discarded, or is cancelled with all
others.

The pool moves in small steps: a job is submitted, a worker takes the oldest waiting job (`start`),
a job ends (`finish`). Which step comes next is for the caller to say.
-/

namespace TestRig

/-- A job of a pool. -/
structure Job (α : Type) where
  work : α
  /-- The token that the job is cancelled by. -/
  token : Option Token := none
  /-- Keeps the token live. -/
  guard : Option TokenGuard := none
  deriving Repr, Inhabited

/-- Workers and their jobs. -/
structure Pool (α : Type) where
  size : Nat
  /-- Number of jobs that may wait. -/
  capacity : Nat
  /-- Jobs can be submitted. -/
  accepting : Bool := true
  /-- Waiting jobs, oldest first. -/
  pending : List (Job α) := []
  /-- Jobs that a worker has taken, in that order. -/
  running : List (Job α) := []
  /-- Tokens of jobs that have not ended. -/
  live : TokenSet := {}
  deriving Repr, Inhabited

namespace Pool

variable {α : Type}

/-- Number of jobs that may wait if nothing else is asked. -/
def defaultCapacity : Nat := 1024

/-- An idle pool; zero workers or places count as one. -/
def idle (size capacity : Nat) : Pool α where
  size := max size 1
  capacity := max capacity 1

/-- Puts a job behind the waiting ones. -/
def enqueue (pool : Pool α) (job : Job α) : Except Failure (Pool α) :=
  if !pool.accepting then .error .poolShutdown
  else if pool.pending.length < pool.capacity then
    .ok { pool with pending := pool.pending ++ [job] }
  else .error (.queueFull pool.capacity)

/-- Submits a job that cannot be cancelled. -/
def submit (pool : Pool α) (work : α) : Except Failure Unit × Pool α :=
  match pool.enqueue { work } with
  | .ok pool => (.ok (), pool)
  | .error failure => (.error failure, pool)

/-- Submits a job under a token. -/
def submitWithToken (pool : Pool α) (token : Token) (work : α) : Except Failure Unit × Pool α :=
  let (guard, live) := pool.live.insert token
  let pool := { pool with live }
  match pool.enqueue { work, token := some token, guard := some guard } with
  | .ok pool => (.ok (), pool)
  | .error failure => (.error failure, { pool with live := pool.live.drop guard })

/-- Submits a job under a token of its own. -/
def submitCancellable (pool : Pool α) (tokens : Tokens) (work : α) :
    Except Failure Token × Pool α × Tokens :=
  let (token, tokens) := tokens.root
  match pool.submitWithToken token work with
  | (.ok (), pool) => (.ok token, pool, tokens)
  | (.error failure, pool) => (.error failure, pool, tokens)

/-- A free worker takes the oldest waiting job, which changes by that; `none` if there is no such
worker or job. -/
def start? (pool : Pool α) (begin : Job α → Job α) : Option (Pool α) :=
  match pool.pending with
  | [] => none
  | job :: rest =>
    if pool.running.length < pool.size then
      some { pool with pending := rest, running := pool.running ++ [begin job] }
    else none

/-- Takes the token of a job out of the live ones. -/
def release (pool : Pool α) (job : Job α) : Pool α :=
  match job.guard with
  | some guard => { pool with live := pool.live.drop guard }
  | none => pool

/-- The job at a place among the running ones ends. -/
def finish (pool : Pool α) (index : Nat) : Pool α :=
  match pool.running[index]? with
  | some job => { pool with running := pool.running.eraseIdx index }.release job
  | none => pool

/-- Cancels all live tokens and tells how many there were. -/
def cancelAll (pool : Pool α) (tokens : Tokens) : Nat × Pool α × Tokens :=
  let (count, live, tokens) := pool.live.cancelAll tokens
  (count, { pool with live }, tokens)

/-- Takes no more jobs, cancels the live tokens and discards the waiting jobs, which are told. -/
def shutdown (pool : Pool α) (tokens : Tokens) : List (Job α) × Pool α × Tokens :=
  let (_, pool, tokens) := { pool with accepting := false }.cancelAll tokens
  (pool.pending, { pool with pending := [] }, tokens)

/-- One line that shows the state of a pool. -/
def describe (pool : Pool α) : String :=
  s!"WorkerPool \x7b size: {pool.size}, pending: {pool.pending.length}, " ++
    s!"live_tokens: {pool.live.size} \x7d"

end Pool

end TestRig
