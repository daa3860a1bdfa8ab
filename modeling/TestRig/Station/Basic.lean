import TestRig.Dispatcher.Settle

/-!
# Station

A station joins a link, a command queue, a dispatcher and a pool. What is fed to it is decoded,
queued and dispatched; what it answers waits on the link. After a feed, and after whatever else sets
jobs free, the dispatcher settles.

- `Station.build` starts a station, unless its settings are not usable.
- `Station.shutdown` stops it for good.
-/

namespace TestRig

open Json (Value)

/-- What a station is built from. -/
structure StationPlan where
  config : Config := {}
  registry : Registry := {}
  /-- What is run for set-system-time commands. -/
  timeHook : Option TimeHook := none

instance : Inhabited StationPlan := ⟨{}⟩

/-- A station at work. -/
structure Station where
  config : Config
  /-- Commands that wait for dispatch. -/
  commands : CommandQueue
  dispatcher : Dispatcher
  /-- Names of open gates. -/
  gates : Dispatcher.Gates := []
  stopped : Bool := false

namespace StationPlan

/-- Changes the settings. -/
def configure (plan : StationPlan) (change : Config → Config) : StationPlan :=
  { plan with config := change plan.config }

/-- Adds an executor for tests with an exact tag. -/
def test (plan : StationPlan) (tag : String) (executor : Executor) : StationPlan :=
  { plan with registry := plan.registry.register .singleTest tag executor }

/-- Adds an executor for tests with a fragment in their tag. -/
def testPattern (plan : StationPlan) (fragment : String) (executor : Executor) : StationPlan :=
  { plan with registry := plan.registry.registerPattern .singleTest fragment executor }

/-- Adds an executor for combined tests with an exact tag. -/
def combinedTest (plan : StationPlan) (tag : String) (executor : Executor) : StationPlan :=
  { plan with registry := plan.registry.register .combinedTest tag executor }

/-- Adds an executor for tests with a number. -/
def execOrder (plan : StationPlan) (order : Int64) (executor : Executor) : StationPlan :=
  { plan with registry := plan.registry.registerOrder order executor }

end StationPlan

namespace Station

/-- Starts a station. -/
def build (plan : StationPlan) : Except Failure Station :=
  plan.config.validate.map fun config =>
    { config
      commands := .empty config.queueCapacity config.overflowPolicy
      dispatcher :=
        .fresh config config.workerCount Pool.defaultCapacity plan.registry plan.timeHook }

/-- The connection to the host. -/
def link (station : Station) : Link :=
  station.dispatcher.link

/-- The station with another link. -/
def withLink (station : Station) (link : Link) : Station :=
  { station with dispatcher := { station.dispatcher with link } }

/-- Counters of the decoder. -/
def stats (station : Station) : DecoderStats :=
  station.link.stats

/-- Number of tests of the current generation that have not ended. -/
def outstanding (station : Station) : Nat :=
  station.dispatcher.outstanding.size

/-- The payloads that the time hook ran with since the last call, in order. -/
def takeHookRuns (station : Station) : List Value × Station :=
  let (payloads, dispatcher) := station.dispatcher.takeHookRuns
  (payloads, { station with dispatcher })

/-- Number of tests that stand at a closed gate. -/
def waitingAtGates (station : Station) : Nat :=
  station.dispatcher.waitingAtGates station.gates

/-- Has the dispatcher settle. -/
def settle (station : Station) : Station :=
  { station with dispatcher := station.dispatcher.settle station.gates }

/-- Dispatches the oldest waiting command, unless the station was shut down. -/
def dispatchOne (station : Station) : Station :=
  if station.stopped then station
  else
    match station.commands.tryPop with
    | (none, _) => station
    | (some command, commands) =>
      { station with commands, dispatcher := station.dispatcher.serve station.gates command }

/-- Dispatches all waiting commands, unless the station was shut down. -/
def dispatchAll (station : Station) : Station :=
  let (dispatcher, commands) :=
    station.dispatcher.run station.gates (!station.stopped) station.commands
  { station with commands, dispatcher }

/-- Goes on with a feed. A push that has to wait gets its room when the oldest command is
dispatched; each time that happens a command is queued, so the fuel is bounded by the number of
bytes. -/
def feedLoop : (fuel : Nat) → Feeding → Station → Except Failure Nat × Station
  | 0, feeding, station => (.ok feeding.queued, station.dispatchAll)
  | fuel + 1, feeding, station =>
    match station.link.resume feeding station.commands with
    | (.finished queued, link, commands) =>
      (.ok queued, { station.withLink link with commands }.dispatchAll)
    | (.failed failure, link, commands) =>
      (.error failure, { station.withLink link with commands }.dispatchAll)
    | (.blocked feeding, link, commands) =>
      feedLoop fuel feeding { station.withLink link with commands }.dispatchOne

/-- Takes inbound bytes and dispatches the commands that they complete. Tells how many were
queued. -/
def feed (bytes : Bytes) (station : Station) : Except Failure Nat × Station :=
  feedLoop (bytes.length + 1) { bytes } station

/-- Takes up to `count` outbound frames. -/
def takeFrames (count : Nat) (station : Station) : List Bytes × Station :=
  let (frames, link) := station.link.takeFrames count
  (frames, station.withLink link)

/-- Opens a gate. -/
def release (station : Station) (gate : String) : Station :=
  { station with gates := gate :: station.gates }.settle

/-- Cancels the tests of the current generation and tells how many there were. -/
def cancelAll (station : Station) : Nat × Station :=
  let (count, dispatcher) := station.dispatcher.cancelGeneration
  (count, { station with dispatcher }.settle)

/-- Stops the station: tests are cancelled, waiting commands and jobs are dropped, running jobs come
to their end, and the link is closed. A second time does nothing. -/
def shutdown (station : Station) : Station :=
  if station.stopped then station
  else
    let (_, dispatcher) := station.dispatcher.cancelGeneration
    let stopped : Station :=
      { station with
        commands := station.commands.clear.2.close
        dispatcher := dispatcher.shutdownPool
        stopped := true }
    let settled := stopped.settle
    settled.withLink settled.link.close

/-- One line that shows the state of a station. -/
def describe (station : Station) : String :=
  "Station \x7b link: " ++ station.link.describe ++ ", pool: " ++
    station.dispatcher.pool.describe ++ ", dispatcher: " ++ station.dispatcher.describe ++ " \x7d"

end Station

end TestRig
