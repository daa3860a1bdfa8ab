import TestRig.Pool

/-!
# Drill of a pool

A pool with scripted jobs that have names: jobs that do nothing, crash, wait at a gate of their own
name, or shut the pool down. After each order the drill settles: every worker does what it can at
once.
-/

namespace TestRig

/-- What a scripted job does. -/
inductive DrillWork where
  | noop
  | crash
  /-- Waits at the gate of its name. -/
  | gate
  /-- Shuts the pool down and waits for the other workers. -/
  | shutdown
  deriving Repr, DecidableEq, Inhabited

/-- A scripted job. -/
structure DrillJob where
  /-- The name of the job and its gate. -/
  name : String
  work : DrillWork
  /-- It waits for the other workers to come to an end. -/
  joins : Bool := false
  deriving Repr, DecidableEq, Inhabited

/-- A pool under drill. -/
structure Drill where
  pool : Pool DrillJob
  /-- The tokens handed out. -/
  tokens : Tokens := {}
  /-- Tokens by name, those of jobs included, latest first. -/
  named : List (String × Token) := []
  /-- Names of open gates. -/
  gates : List String := []
  /-- A job already waits for the other workers, or the workers are gone. -/
  joined : Bool := false
  /-- Jobs that ended, latest first, and how. -/
  ended : List String := []
  deriving Repr, Inhabited

namespace Drill

/-- A drill of an idle pool. -/
def idle (size capacity : Nat) : Drill :=
  { pool := .idle size capacity }

/-- The token of a job is cancelled. -/
def jobCancelled (drill : Drill) (job : Job DrillJob) : Bool :=
  match job.token with
  | some token => drill.tokens.isCancelled token
  | none => false

/-- A running job can end. -/
def canEnd (drill : Drill) (job : Job DrillJob) : Bool :=
  match job.work.work with
  | .noop | .crash => true
  | .gate => drill.gates.contains job.work.name || drill.jobCancelled job
  | .shutdown => !job.work.joins || drill.pool.running.length ≤ 1

/-- How a job ended. -/
def verdict (drill : Drill) (job : Job DrillJob) : String :=
  if job.work.work = .crash then job.work.name ++ ":panic"
  else if drill.jobCancelled job then job.work.name ++ ":cancelled"
  else job.work.name ++ ":done"

/-- The job at a place among the running ones ends. -/
def finishJob (drill : Drill) (index : Nat) : Drill :=
  match drill.pool.running[index]? with
  | none => drill
  | some job =>
    { drill with pool := drill.pool.finish index, ended := drill.verdict job :: drill.ended }

/-- Shuts the pool down, without waiting for running jobs. -/
def closePool (drill : Drill) : Drill :=
  let (_, pool, tokens) := drill.pool.shutdown drill.tokens
  { drill with pool, tokens, joined := true }

/-- A free worker takes the oldest waiting job. A job that shuts the pool down does so at once; only
the first one waits for the others. -/
def startJob? (drill : Drill) : Option Drill :=
  let isShutdown := (drill.pool.pending.head?.map fun job => job.work.work) == some .shutdown
  let begin (job : Job DrillJob) : Job DrillJob :=
    { job with work := { job.work with joins := !drill.joined } }
  (drill.pool.start? begin).map fun pool =>
    let drill := { drill with pool }
    if isShutdown then drill.closePool else drill

/-- The next step; `none` if the drill is settled. -/
def advance? (drill : Drill) : Option Drill :=
  match drill.pool.running.findIdx? drill.canEnd with
  | some index => some (drill.finishJob index)
  | none => drill.startJob?

/-- Takes steps while there are any. -/
def settleLoop : (fuel : Nat) → Drill → Drill
  | 0, drill => drill
  | fuel + 1, drill =>
    match drill.advance? with
    | some drill => settleLoop fuel drill
    | none => drill

/-- Settles; a waiting job is good for two steps and a running one for one. -/
def settle (drill : Drill) : Drill :=
  drill.settleLoop (2 * drill.pool.pending.length + drill.pool.running.length)

/-- The token of a name, handed out on first use. -/
def token (drill : Drill) (name : String) : Token × Drill :=
  match drill.named.lookup name with
  | some token => (token, drill)
  | none =>
    let (token, tokens) := drill.tokens.root
    (token, { drill with tokens, named := (name, token) :: drill.named })

/-- Submits a job that cannot be cancelled. -/
def submit (drill : Drill) (job : DrillJob) : Except Failure Unit × Drill :=
  let (result, pool) := drill.pool.submit job
  (result, { drill with pool }.settle)

/-- Submits a job under a token of its own. -/
def submitCancellable (drill : Drill) (job : DrillJob) : Except Failure Unit × Drill :=
  match drill.pool.submitCancellable drill.tokens job with
  | (.ok token, pool, tokens) =>
    (.ok (),
      { drill with pool, tokens, named := (job.name, token) :: drill.named }.settle)
  | (.error failure, pool, tokens) => (.error failure, { drill with pool, tokens })

/-- Submits a job under a token below a named one, which may be that of another job. -/
def submitBelow (drill : Drill) (name : String) (job : DrillJob) : Except Failure Unit × Drill :=
  let (parent, drill) := drill.token name
  let (token, tokens) := drill.tokens.child parent
  let (result, pool) := drill.pool.submitWithToken token job
  (result, { drill with pool, tokens, named := (job.name, token) :: drill.named }.settle)

/-- Cancels the token of a name. -/
def cancel (drill : Drill) (name : String) : Drill :=
  let (token, drill) := drill.token name
  { drill with tokens := drill.tokens.cancel token }.settle

/-- Opens a gate. -/
def release (drill : Drill) (name : String) : Drill :=
  { drill with gates := name :: drill.gates }.settle

/-- Cancels all live tokens. -/
def cancelAll (drill : Drill) : Nat × Drill :=
  let (count, pool, tokens) := drill.pool.cancelAll drill.tokens
  (count, { drill with pool, tokens }.settle)

/-- Shuts the pool down and lets every running job end; they leave no word. -/
def shutdown (drill : Drill) : Drill :=
  let drill := drill.closePool
  { drill with pool := { drill.pool with running := [] } }

/-- The names of the jobs that ended since the last call, in order, and how each ended. -/
def takeEnded (drill : Drill) : List String × Drill :=
  (drill.ended.mergeSort fun a b => !(b < a), { drill with ended := [] })

end Drill

end TestRig
