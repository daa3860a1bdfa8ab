import TestRig.Dispatcher.Basic

/-!
# Settling

The schedule in which every worker does what it can at once: a running job that can end does so, the
oldest first, and a free worker takes the oldest waiting job. A dispatcher is settled when each job
has ended, waits for a worker, or stands at a closed gate without being cancelled.
-/

namespace TestRig.Dispatcher

/-- Names of gates that are open. -/
abbrev Gates := List String

/-- A running job stands at a closed gate. -/
def standsAtGate (gates : Gates) (dispatcher : Dispatcher) (job : Job Work) : Bool :=
  match job.work with
  | .test run =>
    match run.activity.bind Activity.gate with
    | some gate => !gates.contains gate && !dispatcher.jobCancelled job
    | none => false
  | .clock _ => false

/-- The place of the first running job that can end. -/
def readyJob? (gates : Gates) (dispatcher : Dispatcher) : Option Nat :=
  dispatcher.pool.running.findIdx? fun job => !dispatcher.standsAtGate gates job

/-- The next step of the schedule; `none` if the dispatcher is settled. -/
def advance? (gates : Gates) (dispatcher : Dispatcher) : Option Dispatcher :=
  match dispatcher.readyJob? gates with
  | some index => some (dispatcher.finishJob index)
  | none => dispatcher.startJob?

/-- Takes steps of the schedule. -/
def settleLoop (gates : Gates) : (fuel : Nat) → Dispatcher → Dispatcher
  | 0, dispatcher => dispatcher
  | fuel + 1, dispatcher =>
    match dispatcher.advance? gates with
    | some dispatcher => settleLoop gates fuel dispatcher
    | none => dispatcher

/-- Takes steps of the schedule until there are none. A waiting job is good for two steps and a
running one for one, so that much fuel is enough. -/
def settle (gates : Gates) (dispatcher : Dispatcher) : Dispatcher :=
  settleLoop gates (2 * dispatcher.pool.pending.length + dispatcher.pool.running.length) dispatcher

/-- Number of running jobs that stand at a closed gate. -/
def waitingAtGates (gates : Gates) (dispatcher : Dispatcher) : Nat :=
  (dispatcher.pool.running.filter (dispatcher.standsAtGate gates)).length

/-- Dispatches a command and settles. -/
def serve (gates : Gates) (dispatcher : Dispatcher) (command : Command) : Dispatcher :=
  (dispatcher.dispatch command).settle gates

/-- Dispatches commands one after the other. -/
def serveAll (gates : Gates) (dispatcher : Dispatcher) (commands : List Command) : Dispatcher :=
  commands.foldl (serve gates) dispatcher

/-- The dispatch loop on a closed queue: it takes all commands that wait, or none if it was stopped
before it began. -/
def run (gates : Gates) (running : Bool) (dispatcher : Dispatcher) (queue : CommandQueue) :
    Dispatcher × CommandQueue :=
  if running then (dispatcher.serveAll gates queue.items, queue.clear.2) else (dispatcher, queue)

end TestRig.Dispatcher
