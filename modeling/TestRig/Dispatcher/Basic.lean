import TestRig.Link
import TestRig.Pool
import TestRig.Registry

/-!
# Dispatcher

The dispatcher answers commands and has tests run by the pool. All tests submitted since the last
session-control command form a generation; its token is above theirs, so that such a command cancels
them all and opens a new generation.

Like the pool, the dispatcher moves in small steps: a command is dispatched, a generation is
cancelled, a worker takes a job (`startJob?`), a job ends (`finishJob`).
-/

namespace TestRig

open Json (Value)

/-- Applies the time of a set-system-time command. -/
abbrev TimeHook := Value → Except Failure Unit

/-- A test on its way through the pool. -/
structure TestRun where
  executor : Executor
  kind : CommandKind
  sequence : UInt16
  payload : Value
  /-- Keeps it among the outstanding tests. -/
  guard : TokenGuard
  /-- What it does, once a worker has taken it. -/
  activity : Option Activity := none

/-- What the dispatcher submits to the pool. -/
inductive Work where
  | test (run : TestRun)
  | clock (payload : Value)

/-- The dispatcher with the link and the pool that it works on. -/
structure Dispatcher where
  link : Link
  pool : Pool Work
  /-- The tokens handed out. -/
  tokens : Tokens
  registry : Registry
  identity : Identity
  /-- The token of the current generation. -/
  generation : Token
  /-- Tokens of the tests of the current generation that have not ended. -/
  outstanding : TokenSet := {}
  /-- What is run for set-system-time commands. -/
  timeHook : Option TimeHook := none
  /-- The payloads that the time hook ran with, latest first. -/
  hookRuns : List Value := []

namespace Dispatcher

/-- A dispatcher that has seen no command. -/
def fresh (config : Config) (workers jobCapacity : Nat) (registry : Registry)
    (timeHook : Option TimeHook) : Dispatcher :=
  let (generation, tokens) := ({} : Tokens).root
  { link := .ofConfig config
    pool := .idle workers jobCapacity
    tokens, registry, generation, timeHook
    identity := config.identity }

instance : Inhabited Dispatcher := ⟨fresh {} 1 1 {} none⟩

/-! ## Commands -/

/-- Cancels the tests of the current generation, opens a new one, and tells how many tests were
outstanding. -/
def cancelGeneration (dispatcher : Dispatcher) : Nat × Dispatcher :=
  let (generation, tokens) := (dispatcher.tokens.cancel dispatcher.generation).root
  let (count, outstanding, tokens) := dispatcher.outstanding.cancelAll tokens
  (count, { dispatcher with tokens, generation, outstanding })

/-- Queues an acknowledgement; one that cannot be queued is lost. -/
def ack (dispatcher : Dispatcher) (kind : CommandKind) (data : Value) (sequence : UInt16) :
    Dispatcher :=
  { dispatcher with link := (dispatcher.link.sendAck (.ack kind data) sequence).2 }

/-- What the station says about itself, as a document. -/
def identityDocument (identity : Identity) : Value :=
  .ofMembers [("model", .string identity.model), ("version", .string identity.version)]

/-- Answers a session-control command: what is in flight is cancelled first. -/
def controlSession (dispatcher : Dispatcher) (kind : CommandKind) (sequence : UInt16) :
    Dispatcher :=
  let data := if kind = .handshake then identityDocument dispatcher.identity else .null
  dispatcher.cancelGeneration.2.ack kind data sequence

/-- Has the time hook run, if there is one; a pool that takes no job leaves the clock as it is. -/
def setClock (dispatcher : Dispatcher) (payload : Value) : Dispatcher :=
  match dispatcher.timeHook with
  | none => dispatcher
  | some _ => { dispatcher with pool := (dispatcher.pool.submit (.clock payload)).2 }

/-- Submits a test under a token below that of the generation. A test that the pool refuses is no
longer outstanding. -/
def submitTest (dispatcher : Dispatcher) (kind : CommandKind) (command : Command)
    (executor : Executor) : Dispatcher :=
  let (token, tokens) := dispatcher.tokens.child dispatcher.generation
  let (guard, outstanding) := dispatcher.outstanding.insert token
  let run : TestRun :=
    { executor, kind, guard, sequence := command.sequence, payload := command.payload }
  match dispatcher.pool.submitWithToken token (.test run) with
  | (.ok (), pool) => { dispatcher with tokens, outstanding, pool }
  | (.error _, pool) => { dispatcher with tokens, outstanding := outstanding.drop guard, pool }

/-- Acknowledges a test and submits it; a test that has no executor is dropped without an answer. -/
def startTest (dispatcher : Dispatcher) (kind : CommandKind) (command : Command) : Dispatcher :=
  match dispatcher.registry.resolve command with
  | .error _ => dispatcher
  | .ok executor =>
    (dispatcher.ack kind .null command.sequence).submitTest kind command executor

/-- Answers a command. One without a known kind is dropped. -/
def dispatch (dispatcher : Dispatcher) (command : Command) : Dispatcher :=
  match command.kind with
  | none => dispatcher
  | some (.other _) => dispatcher
  | some .setSystemTime =>
    (dispatcher.ack .setSystemTime .null command.sequence).setClock command.payload
  | some kind =>
    if kind.isSessionControl then dispatcher.controlSession kind command.sequence
    else dispatcher.startTest kind command

/-! ## Jobs -/

/-- The token of a job is cancelled; a job without one never is. -/
def jobCancelled (dispatcher : Dispatcher) (job : Job Work) : Bool :=
  match job.token with
  | some token => dispatcher.tokens.isCancelled token
  | none => false

/-- A job in the hands of a worker. Its executor is run whether or not the test has been cancelled
while it waited. -/
def begin (dispatcher : Dispatcher) (job : Job Work) : Job Work :=
  match job.work with
  | .test run =>
    let invocation := ⟨run.kind, run.sequence, dispatcher.jobCancelled job⟩
    { job with work := .test { run with activity := some (run.executor invocation run.payload) } }
  | .clock _ => job

/-- A free worker takes the oldest waiting job, if there are both. -/
def startJob? (dispatcher : Dispatcher) : Option Dispatcher :=
  (dispatcher.pool.start? dispatcher.begin).map fun pool => { dispatcher with pool }

/-- The response that a test ends with: its own, or a report of its failure; none after a crash. -/
def TestRun.response? (run : TestRun) : Option Response :=
  match run.activity.map Activity.ending with
  | some (.responded response) => some response
  | some (.failed failure) =>
    let invocation : Invocation := { kind := run.kind, sequence := run.sequence }
    some ((invocation.failed run.payload).withDesc failure.message)
  | some .crashed | none => none

/-- Queues the report of a test unless the test has been cancelled; one that cannot be queued is
lost. -/
def sendReport (dispatcher : Dispatcher) (job : Job Work) (run : TestRun) : Dispatcher :=
  match TestRun.response? run with
  | none => dispatcher
  | some response =>
    if dispatcher.jobCancelled job then dispatcher
    else { dispatcher with link := (dispatcher.link.sendReport response).2 }

/-- Takes a job out of the outstanding tests, if it is one. -/
def forget (dispatcher : Dispatcher) (job : Job Work) : Dispatcher :=
  match job.work with
  | .test run => { dispatcher with outstanding := dispatcher.outstanding.drop run.guard }
  | .clock _ => dispatcher

/-- What a job does as it ends. -/
def complete (dispatcher : Dispatcher) (job : Job Work) : Dispatcher :=
  match job.work with
  | .test run => dispatcher.sendReport job run
  | .clock payload => { dispatcher with hookRuns := payload :: dispatcher.hookRuns }

/-- The job at a place among the running ones ends. -/
def finishJob (dispatcher : Dispatcher) (index : Nat) : Dispatcher :=
  match dispatcher.pool.running[index]? with
  | none => dispatcher
  | some job =>
    let dispatcher := (dispatcher.complete job).forget job
    { dispatcher with pool := dispatcher.pool.finish index }

/-- Shuts the pool down; discarded tests are no longer outstanding. -/
def shutdownPool (dispatcher : Dispatcher) : Dispatcher :=
  let (discarded, pool, tokens) := dispatcher.pool.shutdown dispatcher.tokens
  discarded.foldl forget { dispatcher with pool, tokens }

/-- The payloads that the time hook ran with since the last call, in order. -/
def takeHookRuns (dispatcher : Dispatcher) : List Value × Dispatcher :=
  (dispatcher.hookRuns.reverse, { dispatcher with hookRuns := [] })

/-- One line that shows the state of a dispatcher. -/
def describe (dispatcher : Dispatcher) : String :=
  "Dispatcher \x7b registry: " ++ dispatcher.registry.describe ++
    s!", outstanding: {dispatcher.outstanding.size} \x7d"

end Dispatcher

end TestRig
