import TestRig.Proofs.Station.Teardown

/-!
# Behind a shutdown

A shutdown is silent from the cancellation of the tests on, and final: the
calls that are made behind it bring nothing back to life.

* `Link.completed` are the commands that inbound bytes complete, and
  `Link.resume_closed` says what becomes of a feed whose queue is closed.
* `AtRest` is a station in which nothing waits or runs and everything is
  closed but the way out.
* `Inert` says of every call what it answers and what it changes.
  `AtRest.inert` and `AtRest.call` make it last.
* `shutdown_final` is the result, for every reachable station and every
  order in which the steps of a shutdown can be taken.
-/

namespace TestRig

/-! ## Feeds on a closed queue -/

namespace Link

open Decoder

/-- The commands that are completed when bytes are fed, behind those that
the ring still holds. -/
def completed (link : Link) (bytes : Bytes) : List Command :=
  let decoder := link.codec.decoder
  (decoder.scanner.scan decoder.lastSequence (decoder.ring.toList ++ bytes)).filterMap
    fun sighting => sighting.outcome.command?

/-- A decoder that waits has found all commands in the ring. -/
theorem completed_nil {link : Link} (h : link.Waiting) : link.completed [] = [] := by
  rw [completed, List.append_nil, Scanner.scan_of_none (h.2.next? h.1)]
  rfl

/-- The commands of a turn come first. -/
theorem completed_append {link : Link} {after : Decoder} {bytes : Bytes} {trace : List Sighting}
    (h : link.codec.decoder.Follows after bytes trace) (later : Bytes) :
    link.completed (bytes ++ later) =
      commandsIn trace ++ (link.withDecoder after).completed later := by
  rw [completed, completed, commandsIn]
  dsimp only [withDecoder]
  rw [h.foresight later, List.filterMap_append, commands_notable, List.filterMap_map, h.scanner]
  rfl

/-- What a feed comes to if all commands are refused. -/
def refused (queued : Nat) : List Command → Fed
  | [] => .finished queued
  | _ :: _ => .failed .queueClosed

theorem queueCommands_closed {queue : CommandQueue} (h : queue.closed = true) (bytes : Bytes)
    (commands : List Command) (queued : Nat) :
    queueCommands bytes commands queued queue = (refused queued commands, queue) := by
  cases commands with
  | nil => rfl
  | cons command rest =>
    rw [queueCommands, Queue.push, if_pos h]
    rfl

/-- A feed fails with the first command that it completes. -/
theorem feedLoop_closed {link : Link} {queue : CommandQueue} (hwaiting : link.Waiting)
    (hclosed : queue.closed = true) {fuel : Nat} {bytes : Bytes} (hfuel : bytes.length ≤ fuel)
    (queued : Nat) :
    ∃ after, feedLoop fuel bytes queued link queue =
      (refused queued (link.completed bytes), link.withDecoder after, queue) := by
  induction fuel generalizing link bytes with
  | zero =>
    rw [List.eq_nil_of_length_eq_zero (Nat.le_zero.mp hfuel), completed_nil hwaiting]
    exact ⟨link.codec.decoder, rfl⟩
  | succ fuel ih =>
    by_cases hempty : bytes = []
    · rw [hempty, completed_nil hwaiting]
      exact ⟨link.codec.decoder, rfl⟩
    · obtain ⟨hroom, trace, after, _, hdecode, hfollows, hafter⟩ :=
        decodeSome_follows hwaiting.1 hwaiting.2 bytes
      have hcompleted := completed_append hfollows (bytes.drop link.codec.decoder.available)
      rw [List.take_append_drop] at hcompleted
      rw [feedLoop, if_neg (mt List.isEmpty_iff.mp hempty), hdecode, hcompleted]
      dsimp only
      rw [queueCommands_closed hclosed]
      cases commandsIn trace with
      | nil =>
        have hpos := List.length_pos_iff.mpr hempty
        exact @ih (link.withDecoder after) ⟨hfollows.sound, hafter⟩
          (bytes.drop link.codec.decoder.available) (by rw [List.length_drop]; omega)
      | cons command rest => exact ⟨after, rfl⟩

theorem resume_closed {link : Link} {queue : CommandQueue} (hwaiting : link.Waiting)
    (hclosed : queue.closed = true) (bytes : Bytes) :
    ∃ after, link.resume { bytes } queue =
      (refused 0 (link.completed bytes), link.withDecoder after, queue) :=
  feedLoop_closed hwaiting hclosed (Nat.le_refl _) 0

end Link

/-! ## Ends of generations without tests -/

theorem TokenSet.cancelAll_of_nil {set : TokenSet} (h : set.entries = []) (tokens : Tokens) :
    set.cancelAll tokens = (0, set, tokens) := by
  obtain ⟨next, entries⟩ := set
  dsimp only at h
  subst h
  rfl

/-- If there are no outstanding tests, the end of a generation concerns the
tokens only. -/
theorem Dispatcher.cancelGeneration_of_nil {dispatcher : Dispatcher}
    (h : dispatcher.outstanding.entries = []) :
    ∃ tokens generation,
      dispatcher.cancelGeneration = (0, { dispatcher with tokens, generation }) := by
  refine ⟨(dispatcher.tokens.cancel dispatcher.generation).root.2,
    (dispatcher.tokens.cancel dispatcher.generation).root.1, ?_⟩
  unfold cancelGeneration
  dsimp only
  rw [TokenSet.cancelAll_of_nil h]

/-! ## Stations at rest -/

namespace Station

/-- Nothing waits and nothing runs, and nothing can come in. -/
structure AtRest (station : Station) : Prop where
  stopped : station.stopped = true
  commands : station.commands.items = []
  closed : station.commands.closed = true
  outstanding : station.outstanding = 0
  accepting : station.dispatcher.pool.accepting = false
  pending : station.dispatcher.pool.pending = []
  running : station.dispatcher.pool.running = []
  live : station.dispatcher.pool.live.size = 0
  outbound : station.link.outbound.closed = true
  waiting : station.link.Waiting

/-- What every call answers and changes. -/
structure Inert (station : Station) : Prop where
  /-- A feed fails exactly if its bytes complete a command, and concerns the
  decoder only. -/
  feed : ∀ bytes, ∃ decoder, station.feed bytes =
    (if station.link.completed bytes = [] then .ok 0 else .error .queueClosed,
      station.withLink (station.link.withDecoder decoder))
  /-- The frames that still wait are taken in order. -/
  takeFrames : ∀ count, station.takeFrames count =
    (station.link.outbound.items.take count, station.withLink (station.link.drained count))
  /-- There are no tests to cancel. -/
  cancelAll : ∃ tokens generation, station.cancelAll =
    (0, { station with dispatcher := { station.dispatcher with tokens, generation } })
  shutdown : station.shutdown = station

theorem dispatchAll_of_stopped {station : Station} (h : station.stopped = true) :
    station.dispatchAll = station := by
  have hruns : ¬ (!station.stopped) = true := by
    rw [h]
    exact Bool.false_ne_true
  rw [dispatchAll, Dispatcher.run, if_neg hruns]

/-- Nothing settles where nothing waits or runs. -/
theorem settle_of_idle {station : Station} (hpending : station.dispatcher.pool.pending = [])
    (hrunning : station.dispatcher.pool.running = []) : station.settle = station := by
  rw [settle, Dispatcher.settle, hpending, hrunning]
  rfl

theorem AtRest.feed {station : Station} (h : station.AtRest) (bytes : Bytes) :
    ∃ decoder, (station.link.withDecoder decoder).Waiting ∧ station.feed bytes =
      (if station.link.completed bytes = [] then .ok 0 else .error .queueClosed,
        station.withLink (station.link.withDecoder decoder)) := by
  obtain ⟨decoder, hresume⟩ := Link.resume_closed h.waiting h.closed bytes
  have hwaiting := h.waiting.resume { bytes } station.commands
  rw [hresume] at hwaiting
  have hstays : dispatchAll { station.withLink (station.link.withDecoder decoder) with
      commands := station.commands } = station.withLink (station.link.withDecoder decoder) :=
    dispatchAll_of_stopped h.stopped
  refine ⟨decoder, hwaiting, ?_⟩
  rw [Station.feed, feedLoop, hresume]
  cases station.link.completed bytes with
  | nil =>
    rw [if_pos rfl]
    exact congrArg (Prod.mk _) hstays
  | cons command rest =>
    rw [if_neg (List.cons_ne_nil command rest)]
    exact congrArg (Prod.mk _) hstays

theorem AtRest.inert {station : Station} (h : station.AtRest) : station.Inert where
  feed bytes := (h.feed bytes).imp fun _ => And.right
  takeFrames count := by rw [Station.takeFrames, Link.takeFrames_eq]
  cancelAll := by
    obtain ⟨tokens, generation, hcancel⟩ :=
      Dispatcher.cancelGeneration_of_nil (List.eq_nil_of_length_eq_zero h.outstanding)
    refine ⟨tokens, generation, ?_⟩
    rw [Station.cancelAll, hcancel]
    exact congrArg (Prod.mk 0) (settle_of_idle h.pending h.running)
  shutdown := by rw [Station.shutdown, if_pos h.stopped]

/-! ## Calls behind a shutdown -/

/-- A call of a station. -/
inductive Call where
  | feed (bytes : Bytes)
  | takeFrames (count : Nat)
  | cancelAll
  | shutdown

/-- The station behind a call. -/
def call (station : Station) : Call → Station
  | .feed bytes => (station.feed bytes).2
  | .takeFrames count => (station.takeFrames count).2
  | .cancelAll => station.cancelAll.2
  | .shutdown => station.shutdown

/-- The station behind several calls. -/
def callAll (station : Station) (calls : List Call) : Station :=
  calls.foldl call station

/-- The number of frames that a call asks for. -/
def Call.taken : Call → Nat
  | takeFrames count => count
  | feed _ | cancelAll | shutdown => 0

theorem AtRest.withLink {station : Station} (h : station.AtRest) {link : Link}
    (hclosed : link.outbound.closed = true) (hwaiting : link.Waiting) :
    (station.withLink link).AtRest :=
  { h with
    outbound := hclosed
    waiting := hwaiting }

theorem AtRest.call {station : Station} (h : station.AtRest) (call : Call) :
    (station.call call).AtRest ∧
      (station.call call).link.outbound = (station.link.drained call.taken).outbound := by
  have hinert := h.inert
  cases call with
  | feed bytes =>
    obtain ⟨decoder, hwaiting, hfeed⟩ := h.feed bytes
    rw [Station.call, hfeed]
    exact ⟨h.withLink h.outbound hwaiting, rfl⟩
  | takeFrames count =>
    rw [Station.call, hinert.takeFrames count]
    exact ⟨h.withLink h.outbound h.waiting, rfl⟩
  | cancelAll =>
    obtain ⟨tokens, generation, hcancel⟩ := hinert.cancelAll
    rw [Station.call, hcancel]
    exact ⟨{ h with }, rfl⟩
  | shutdown =>
    rw [Station.call, hinert.shutdown]
    exact ⟨h, rfl⟩

/-- The number of frames that calls ask for. -/
def takenBy : List Call → Nat
  | [] => 0
  | call :: rest => call.taken + takenBy rest

/-- No call brings anything back, and the frames that wait leave in order. -/
theorem AtRest.callAll {station : Station} (h : station.AtRest) (calls : List Call) :
    (station.callAll calls).AtRest ∧
      (station.callAll calls).link.outbound =
        (station.link.drained (takenBy calls)).outbound := by
  induction calls generalizing station with
  | nil => exact ⟨h, rfl⟩
  | cons call rest ih =>
    obtain ⟨hrest, hcall⟩ := h.call call
    obtain ⟨hall, hbehind⟩ := ih hrest
    refine ⟨hall, hbehind.trans ?_⟩
    rw [takenBy, ← Link.drained_drained]
    unfold Link.drained at hcall ⊢
    rw [hcall]

/-- What a shutdown leaves of a station, and what the calls behind it do. -/
structure ShutDown (before : Station) (drained : Nat) (after : Station) : Prop where
  rest : after.AtRest
  /-- The frames that waited still do, but for those that were taken
  meanwhile. -/
  link : after.link = (before.link.drained drained).close
  calls : ∀ calls,
    (after.callAll calls).AtRest ∧ (after.callAll calls).Inert ∧
      (after.callAll calls).link.outbound = (after.link.drained (takenBy calls)).outbound

namespace Teardown

theorem Underway.atRest {origin : Station} {drained : Nat} {teardown : Teardown}
    (h : Underway origin drained teardown) (hwaiting : origin.link.Waiting)
    (hdone : teardown.phase = .done) : teardown.station.AtRest := by
  have hsettled : ∀ phase : Phase, phase ≠ .done → phase.Settled teardown.station := by
    intro phase hphase
    refine h.settled phase ?_
    rw [hdone]
    cases phase <;> first | exact absurd rfl hphase | decide
  have hjoined := hsettled .joinWorkers Phase.noConfusion
  exact {
    stopped := h.stopped
    commands := hsettled .clearCommands Phase.noConfusion
    closed := hsettled .closeCommands Phase.noConfusion
    outstanding := congrArg List.length h.outstanding
    accepting := hsettled .closePool Phase.noConfusion
    pending := hjoined.1
    running := hjoined.2
    live := congrArg List.length (hsettled .cancelLive Phase.noConfusion)
    outbound := hsettled .closeLink Phase.noConfusion
    waiting := by
      rw [h.link, hdone]
      exact hwaiting }

theorem Underway.shutDown {origin : Station} {drained : Nat} {teardown : Teardown}
    (h : Underway origin drained teardown) (hwaiting : origin.link.Waiting)
    (hdone : teardown.phase = .done) : ShutDown origin drained teardown.station := by
  have hrest := h.atRest hwaiting hdone
  refine ⟨hrest, ?_, ?_⟩
  · rw [h.link, hdone]
    rfl
  · intro calls
    obtain ⟨hbehind, houtbound⟩ := hrest.callAll calls
    exact ⟨hbehind, hbehind.inert, houtbound⟩

theorem drainedBy_eq_zero {turns : List Turn} (h : .aside .drain ∉ turns) :
    drainedBy turns = 0 := by
  induction turns with
  | nil => rfl
  | cons turn rest ih =>
    have hrest := ih (fun hmem => h (List.mem_cons_of_mem _ hmem))
    cases turn with
    | own => exact hrest
    | aside aside =>
      cases aside with
      | startJob | finishJob => exact (Nat.zero_add _).trans hrest
      | drain => exact absurd List.mem_cons_self h

end Teardown

/-- A shutdown is silent and final.

Take any station in use, with any commands, tests and frames that wait or
run, and any order in which the steps of the shutdown, of the workers and
of the transport come.  At each point behind the cancellation of the tests
the link is what it was but for the frames that the transport took: no
frame was added, and no report has taken a number.  The shutdown can come
to its end without the transport, and what it leaves is at rest, with its
frames in order, and stays so whatever calls follow.  `Station.shutdown` is
such a shutdown. -/
theorem shutdown_final {plan : StationPlan} {station : Station} (h : Reachable plan station) :
    (∀ turns,
      let reached := (Teardown.start station).run turns
      reached.station.link =
          Teardown.linkAt station.link (Teardown.drainedBy turns) reached.phase ∧
        (∃ rest, .aside .drain ∉ rest ∧ (reached.run rest).phase = .done) ∧
        (reached.phase = .done →
          ShutDown station (Teardown.drainedBy turns) reached.station)) ∧
      ShutDown station 0 station.shutdown ∧
      ∃ turns, ((Teardown.start station).run turns).phase = .done ∧
        station.shutdown = ((Teardown.start station).run turns).station := by
  have hstart := Teardown.underway_start h.sound
  have hwaiting := h.sound.waiting
  refine ⟨?_, ?_⟩
  · intro turns reached
    have hunder := hstart.run turns
    rw [Nat.zero_add] at hunder
    exact ⟨hunder.link, reached.finishes, hunder.shutDown hwaiting⟩
  · obtain ⟨turns, hnone, hdone, heq⟩ := Teardown.shutdown_eq_run h.sound
    have hunder := hstart.run turns
    rw [Teardown.drainedBy_eq_zero hnone] at hunder
    rw [heq]
    exact ⟨hunder.shutDown hwaiting hdone, turns, hdone, rfl⟩

/-- One worker, and one executor, which waits at a gate before it passes. -/
def gatedPlan : StationPlan where
  config := { workerCount := 1 }
  registry := Registry.register {} .singleTest "fan" fun invocation payload =>
    { gate := some "door", ending := .responded (invocation.report payload true) }

/-- The command that asks for such a test. -/
def gatedCommand (sequence : UInt16) : Command :=
  ⟨some .singleTest, sequence, .ofMembers [("type", .string "fan")]⟩

/-- A station is shut down while a test stands at its gate, another waits
for the worker, a third has been asked for, and two frames wait for the
transport. -/
theorem shutdown_final_busy :
    ∃ station, Reachable gatedPlan station ∧
      (station.dispatcher.pool.running.length = 1 ∧ station.waitingAtGates = 1) ∧
      station.dispatcher.pool.pending.length = 1 ∧ station.outstanding = 2 ∧
      station.commands.items.length = 1 ∧ station.link.pendingOutbound = 2 ∧
      ShutDown station 0 station.shutdown := by
  have hstart : Reachable gatedPlan _ := .start rfl
  have hreached := (((hstart.move (.receive
    { commands := [gatedCommand 1, gatedCommand 2, gatedCommand 3], bytes := [] })).move
      .dispatch).move (.aside .startJob)).move .dispatch
  exact ⟨_, hreached, ⟨rfl, rfl⟩, rfl, rfl, rfl, rfl, (shutdown_final hreached).2.1⟩

end Station

end TestRig
