import TestRig.Station.Serve
import TestRig.Proofs.Dispatcher.Account
import TestRig.Proofs.Dispatcher.Generations
import TestRig.Proofs.Dispatcher.Settling
import TestRig.Proofs.Link.Feeding

/-!
# Stations in use

The calls of a station are made of steps, and the dispatch thread, the
workers and the transport take theirs in between, in any order.  So a
command may wait, and a test may wait, run, or have its response ready,
between any two steps.

* `Move` is one such step, and `Reachable` a station that some of them lead
  to, from the start of the station on.
* `Reachable.sound` is the invariant that every step keeps.
* `Reachable.feed`, `Reachable.serve` and the theorems beside them say that
  the calls lead to no other stations.
-/

namespace TestRig

/-- No action of a dispatcher is of concern to the decoder. -/
theorem Dispatcher.decoder_act (dispatcher : Dispatcher) (action : Action) :
    (dispatcher.act action).link.codec.decoder = dispatcher.link.codec.decoder := by
  by_cases hfinish : ∃ index, action = .finishJob index
  · obtain ⟨index, rfl⟩ := hfinish
    show (dispatcher.finishJob index).link.codec.decoder = _
    cases hended : dispatcher.pool.running[index]? with
    | none =>
      unfold finishJob
      rw [hended]
    | some ended =>
      rw [finishJob_eq hended]
      show ((dispatcher.complete ended).forget ended).link.codec.decoder = _
      rw [link_forget]
      unfold complete sendReport
      split
      · split
        · rfl
        · split_ifs
          · rfl
          · exact Link.decoder_sendReport _ _
      · rfl
  · rw [codec_act dispatcher fun index heq => hfinish ⟨index, heq⟩]

namespace Station

open Dispatcher (Aside)

/-! ## Steps -/

/-- A step of a station in use. -/
inductive Move where
  /-- The link goes on with a feed as far as the command queue lets it. -/
  | receive (feeding : Feeding)
  /-- The dispatch thread takes the oldest command and dispatches it. -/
  | dispatch
  /-- The workers and the transport. -/
  | aside (aside : Aside)
  /-- The tests are cancelled from outside. -/
  | cancelAll
  | sendAck (response : Response) (sequence : UInt16)
  | sendReport (response : Response)
  | sendRaw (content : Bytes) (sequence : UInt16)
  /-- The link is closed behind the end of a source. -/
  | closeLink
  /-- A gate is opened. -/
  | release (gate : String)

/-- The station behind a step. -/
def move (station : Station) : Move → Station
  | .receive feeding =>
    let (_, link, commands) := station.link.resume feeding station.commands
    { station.withLink link with commands }
  | .dispatch =>
    match station.commands.tryPop with
    | (none, _) => station
    | (some command, commands) =>
      { station with commands, dispatcher := station.dispatcher.dispatch command }
  | .aside aside => { station with dispatcher := station.dispatcher.act aside.action }
  | .cancelAll => { station with dispatcher := station.dispatcher.cancelGeneration.2 }
  | .sendAck response sequence => station.withLink (station.link.sendAck response sequence).2
  | .sendReport response => station.withLink (station.link.sendReport response).2
  | .sendRaw content sequence => station.withLink (station.link.sendRaw content sequence).2
  | .closeLink => station.withLink station.link.close
  | .release gate => { station with gates := gate :: station.gates }

/-- A station that was started and has not been shut down. -/
inductive Reachable (plan : StationPlan) : Station → Prop where
  | start {station : Station} (h : build plan = .ok station) : Reachable plan station
  | move {station : Station} (h : Reachable plan station) (move : Move) :
      Reachable plan (station.move move)

/-! ## The invariant -/

/-- What every step keeps. -/
structure Sound (station : Station) : Prop where
  orderly : station.dispatcher.Orderly
  waiting : station.link.Waiting
  running : station.stopped = false

theorem sound_build {plan : StationPlan} {station : Station} (h : build plan = .ok station) :
    station.Sound := by
  unfold build at h
  cases hvalid : plan.config.validate with
  | error failure =>
    rw [hvalid] at h
    cases h
  | ok config =>
    rw [hvalid] at h
    cases h
    exact {
      orderly := Dispatcher.orderly_fresh _ _ _ _ _
      waiting := Link.Reachable.start.waiting
      running := rfl }

/-- A step that concerns the link only. -/
theorem Sound.withLink {station : Station} (h : station.Sound) {link : Link}
    (hwaiting : link.Waiting) : (station.withLink link).Sound where
  orderly := h.orderly
  waiting := hwaiting
  running := h.running

/-- A step of the dispatcher. -/
theorem Sound.act {station : Station} (h : station.Sound) (action : Dispatcher.Action)
    (commands : CommandQueue) :
    Sound { station with commands, dispatcher := station.dispatcher.act action } where
  orderly := h.orderly.act action
  waiting := by
    rw [Link.Waiting, link, station.dispatcher.decoder_act action]
    exact h.waiting
  running := h.running

theorem Sound.move {station : Station} (h : station.Sound) (move : Move) :
    (station.move move).Sound := by
  cases move with
  | receive feeding => exact ⟨h.orderly, h.waiting.resume feeding station.commands, h.running⟩
  | dispatch =>
    rw [Station.move]
    split
    · exact h
    · exact h.act (.dispatch _) _
  | aside aside => exact h.act aside.action station.commands
  | cancelAll => exact h.act .cancelGeneration station.commands
  | sendAck response sequence =>
    refine h.withLink ?_
    rw [Link.Waiting, Link.codec_sendAck]
    exact h.waiting
  | sendReport response =>
    refine h.withLink ?_
    rw [Link.Waiting, Link.decoder_sendReport]
    exact h.waiting
  | sendRaw content sequence =>
    refine h.withLink ?_
    unfold Link.sendRaw
    split
    · rw [Link.Waiting, Link.decoder_enqueue]
      exact h.waiting
    · exact h.waiting
  | closeLink => exact h.withLink h.waiting
  | release gate => exact ⟨h.orderly, h.waiting, h.running⟩

theorem Reachable.sound {plan : StationPlan} {station : Station} (h : Reachable plan station) :
    station.Sound := by
  induction h with
  | start hbuild => exact sound_build hbuild
  | move _ move ih => exact ih.move move

/-! ## Calls are made of steps -/

section Calls

variable {plan : StationPlan} {station : Station}

theorem Reachable.beside (h : Reachable plan station) (asides : List Aside) :
    Reachable plan { station with dispatcher := station.dispatcher.beside asides } := by
  induction asides generalizing station with
  | nil => exact h
  | cons aside rest ih => exact ih (h.move (.aside aside))

theorem Reachable.settle (h : Reachable plan station) : Reachable plan station.settle := by
  obtain ⟨asides, _, heq, _⟩ := Dispatcher.settle_eq station.gates station.dispatcher
  rw [Station.settle, heq]
  exact h.beside asides

/-- The oldest command is dispatched, and the dispatcher settles. -/
theorem Reachable.serveOldest (h : Reachable plan station) {command : Command} {rest : List Command}
    (hitems : station.commands.items = command :: rest) :
    Reachable plan { station with
      commands := { station.commands with items := rest }
      dispatcher := station.dispatcher.serve station.gates command } := by
  have hmove := h.move .dispatch
  rw [Station.move, Queue.tryPop, hitems] at hmove
  exact hmove.settle

theorem Reachable.dispatchOne (h : Reachable plan station) :
    Reachable plan station.dispatchOne := by
  rw [Station.dispatchOne, if_neg (Bool.eq_false_iff.mp h.sound.running)]
  unfold Queue.tryPop
  cases hitems : station.commands.items with
  | nil => exact h
  | cons command rest => exact h.serveOldest hitems

/-- All waiting commands are dispatched, with a settling behind each. -/
theorem Reachable.serveAll (h : Reachable plan station) {items : List Command}
    (hitems : station.commands.items = items) :
    Reachable plan { station with
      commands := { station.commands with items := [] }
      dispatcher := station.dispatcher.serveAll station.gates items } := by
  induction items generalizing station with
  | nil =>
    show Reachable plan { station with commands := { station.commands with items := [] } }
    rw [← hitems]
    exact h
  | cons command rest ih => exact ih (h.serveOldest hitems) rfl

theorem Reachable.dispatchAll (h : Reachable plan station) :
    Reachable plan station.dispatchAll := by
  have hruns : (!station.stopped) = true := by
    rw [h.sound.running]
    rfl
  rw [Station.dispatchAll, Dispatcher.run, if_pos hruns]
  exact h.serveAll rfl

theorem Reachable.feedLoop (h : Reachable plan station) (fuel : Nat) (feeding : Feeding) :
    Reachable plan (Station.feedLoop fuel feeding station).2 := by
  induction fuel generalizing station feeding with
  | zero => exact h.dispatchAll
  | succ fuel ih =>
    have hmove := h.move (.receive feeding)
    rw [Station.move] at hmove
    rw [Station.feedLoop]
    generalize station.link.resume feeding station.commands = result at hmove ⊢
    obtain ⟨fed, link, commands⟩ := result
    cases fed with
    | finished queued => exact hmove.dispatchAll
    | failed failure => exact hmove.dispatchAll
    | blocked left => exact ih hmove.dispatchOne left

/-- A feed, also one that the command queue makes wait. -/
theorem Reachable.feed (h : Reachable plan station) (bytes : Bytes) :
    Reachable plan (station.feed bytes).2 :=
  h.feedLoop _ _

/-- The transport takes frames. -/
theorem Reachable.drained (h : Reachable plan station) (count : Nat) :
    Reachable plan (station.withLink (station.link.drained count)) := by
  induction count generalizing station with
  | zero => exact h
  | succ count ih =>
    have hdrain := h.move (.aside .drain)
    change Reachable plan (station.withLink station.link.drain.2) at hdrain
    rw [Link.drain_eq] at hdrain
    rw [Nat.add_comm, ← Link.drained_drained]
    exact ih hdrain

theorem Reachable.takeFrames (h : Reachable plan station) (count : Nat) :
    Reachable plan (station.takeFrames count).2 := by
  rw [Station.takeFrames, Link.takeFrames_eq]
  exact h.drained count

theorem Reachable.release (h : Reachable plan station) (gate : String) :
    Reachable plan (station.release gate) :=
  (h.move (.release gate)).settle

theorem Reachable.cancelAll (h : Reachable plan station) :
    Reachable plan station.cancelAll.2 :=
  (h.move .cancelAll).settle

end Calls

/-! ## Serving a transport -/

section Serve

open Transport (Piece Read Sink SinkScript)

variable {plan : StationPlan} {station : Station} {σ : Type}

theorem Reachable.writeSome (h : Reachable plan station) (sink : Sink σ) (state : σ) :
    Reachable plan (station.withLink (Transport.writeSome sink station.link state).2.1) := by
  have hnext : station.link.nextOutbound.2 = station.link.drained 1 := by
    rw [Link.nextOutbound_snd, Link.drain_eq]
  unfold Transport.writeSome
  generalize station.link.nextOutbound = result at hnext
  obtain ⟨popped, link⟩ := result
  dsimp only at hnext
  subst hnext
  cases popped with
  | ended => exact h.drained 1
  | waiting => exact h.drained 1
  | item first =>
    dsimp only
    rw [Link.takeFrames_eq, Link.drained_drained]
    dsimp only
    split <;> exact h.drained _

theorem Reachable.writeLoop (h : Reachable plan station) (sink : Sink σ) (fuel : Nat) (state : σ) :
    Reachable plan
      (station.withLink (Transport.writeLoop sink fuel station.link state).2.1) := by
  induction fuel generalizing station state with
  | zero => exact h
  | succ fuel ih =>
    have hsome := h.writeSome sink state
    rw [Transport.writeLoop]
    generalize Transport.writeSome sink station.link state = result at hsome ⊢
    obtain ⟨progress, link, state'⟩ := result
    cases progress with
    | batch => exact ih hsome state'
    | ended | idle | failed => exact hsome

/-- What feeds and pauses preserve, a read loop preserves. -/
theorem readLoop_preserves {P : σ → Prop} {feed : Bytes → σ → Except Failure Nat × σ}
    {hold : Nat → σ → σ} (hfeed : ∀ bytes state, P state → P (feed bytes state).2)
    (hhold : ∀ writes state, P state → P (hold writes state)) (reads : List Read) (count : Nat)
    {state : σ} (h : P state) : P (Transport.readLoop feed hold reads count state).2.2 := by
  induction reads generalizing count state with
  | nil => exact h
  | cons read rest ih =>
    cases read with
    | ended => exact h
    | failed text => exact h
    | held writes => exact ih count (hhold writes state h)
    | data bytes =>
      have hfed := hfeed bytes state h
      rw [Transport.readLoop]
      generalize feed bytes state = result at hfed
      obtain ⟨answer, state'⟩ := result
      split
      · rename_i heq
        cases heq
        exact ih (count + 1) hfed
      · rename_i heq
        cases heq
        exact hfed
      · rename_i heq
        cases heq
        exact hfed

theorem Reachable.write {serving : Serving} (h : Reachable plan serving.station)
    (script : SinkScript) : Reachable plan (serving.write script).station := by
  have hall := h.writeLoop script.sink (serving.station.link.outbound.length + 1) serving.record
  unfold Serving.write Transport.writeAll
  generalize Transport.writeLoop script.sink _ serving.station.link serving.record = result
    at hall ⊢
  obtain ⟨progress, link, record⟩ := result
  split
  · exact h
  · split
    · rename_i heq
      cases heq
      exact hall
    · rename_i heq
      cases heq
      exact hall

/-- A station that served a transport. -/
theorem Reachable.serve (h : Reachable plan station) (pieces : List Piece)
    (script : SinkScript) : Reachable plan (station.serve pieces script).2.station := by
  generalize hloop : (Transport.readLoop Serving.feed (fun _ serving => serving.write script)
    (Transport.reads station.config.readBufferSize pieces) 0 { station }).2.2 = serving
  have hserving : Reachable plan serving.station := by
    rw [← hloop]
    exact @readLoop_preserves _ (fun serving : Serving => Reachable plan serving.station) _ _
      (fun bytes serving h => h.feed bytes) (fun _ serving h => h.write script) _ _ _ h
  have hserve : (station.serve pieces script).2 = serving.finish script := by
    rw [← hloop]
    unfold Station.serve
    dsimp only
    split <;> rfl
  have hclosed : Reachable plan
      ({ serving with station := serving.station.withLink serving.station.link.close } :
        Serving).station := hserving.move .closeLink
  rw [hserve]
  exact hclosed.write script

end Serve

end Station

end TestRig
