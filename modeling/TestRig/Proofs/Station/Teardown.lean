import TestRig.Proofs.Dispatcher.Stopping
import TestRig.Proofs.Station.Reachable

/-!
# The shutdown of a station

The caller of a shutdown stops the dispatch thread, cancels the tests, and
takes the station down part by part; at the end it waits for the workers.
Meanwhile the workers take jobs and end them, and the transport takes
frames.

* `Teardown` is a shutdown under way, from the cancellation of the tests
  on, and `Turn` a step of the caller or of somebody else.  `Teardown.run`
  takes turns in any order.  No other caller feeds the station or sends
  anything meanwhile.
* `Underway` is the invariant: at each phase it says what has come to rest
  by then, and at all of them that the link has lost at most frames that
  the transport took.
* `finishes` says that a shutdown can come to its end from wherever it is,
  without the transport.
* `shutdown_eq_run` says that `Station.shutdown` is such a run.
-/

namespace TestRig.Station

open Dispatcher (Aside Superseded Dwindles)

/-! ## The steps of a shutdown -/

/-- What the caller of a shutdown does next. -/
inductive Phase where
  | clearCommands
  | closeCommands
  /-- The pool takes no more jobs. -/
  | closePool
  /-- The tokens of the pool are cancelled. -/
  | cancelLive
  /-- The jobs that wait are dropped, one by one. -/
  | discardJobs
  /-- The caller waits until no job runs. -/
  | joinWorkers
  | closeLink
  | done
  deriving DecidableEq

/-- The number of phases before. -/
def Phase.rank : Phase → Nat
  | clearCommands => 0
  | closeCommands => 1
  | closePool => 2
  | cancelLive => 3
  | discardJobs => 4
  | joinWorkers => 5
  | closeLink => 6
  | done => 7

/-- A shutdown under way. -/
structure Teardown where
  station : Station
  phase : Phase := .clearCommands

namespace Teardown

/-- No command is dispatched any more, and the tests are cancelled. -/
def start (station : Station) : Teardown where
  station := { station with
    dispatcher := station.dispatcher.cancelGeneration.2
    stopped := true }

/-- The next step of the caller; it may have to wait. -/
def step : Teardown → Teardown
  | ⟨station, .clearCommands⟩ =>
    ⟨{ station with commands := station.commands.clear.2 }, .closeCommands⟩
  | ⟨station, .closeCommands⟩ => ⟨{ station with commands := station.commands.close }, .closePool⟩
  | ⟨station, .closePool⟩ =>
    ⟨{ station with dispatcher := station.dispatcher.closePool }, .cancelLive⟩
  | ⟨station, .cancelLive⟩ =>
    ⟨{ station with dispatcher := station.dispatcher.cancelLive }, .discardJobs⟩
  | ⟨station, .discardJobs⟩ =>
    if station.dispatcher.pool.pending = [] then ⟨station, .joinWorkers⟩
    else ⟨{ station with dispatcher := station.dispatcher.discardOldest }, .discardJobs⟩
  | ⟨station, .joinWorkers⟩ =>
    if station.dispatcher.pool.running = [] then ⟨station, .closeLink⟩
    else ⟨station, .joinWorkers⟩
  | ⟨station, .closeLink⟩ => ⟨station.withLink station.link.close, .done⟩
  | ⟨station, .done⟩ => ⟨station, .done⟩

/-- A step of the caller, or one beside it: of a worker, or of the
transport.  Feeds and sends by others are not among the turns.  A feed that
waits for room in the command queue could go on as soon as the commands are
cleared, and leave a command in the queue that is then closed. -/
inductive Turn where
  | own
  | aside (aside : Aside)

/-- The shutdown behind a turn. -/
def turn (teardown : Teardown) : Turn → Teardown
  | .own => teardown.step
  | .aside aside =>
    { teardown with station := { teardown.station with
        dispatcher := teardown.station.dispatcher.act aside.action } }

/-- The shutdown behind several turns. -/
def run (teardown : Teardown) (turns : List Turn) : Teardown :=
  turns.foldl turn teardown

/-- Number of outbound frames that the transport asks for. -/
def drainedBy : List Turn → Nat
  | [] => 0
  | .own :: rest => drainedBy rest
  | .aside aside :: rest => aside.drained + drainedBy rest

theorem run_append (teardown : Teardown) (first second : List Turn) :
    teardown.run (first ++ second) = (teardown.run first).run second :=
  List.foldl_append

/-! ## What a turn can do -/

/-- Everything that a shutdown brings to rest becomes less, or stays. -/
structure Wanes (before after : Station) : Prop where
  stopped : after.stopped = before.stopped
  superseded : before.dispatcher.Superseded → after.dispatcher.Superseded
  outstanding : after.dispatcher.outstanding.entries ⊆ before.dispatcher.outstanding.entries
  commands : after.commands.items ⊆ before.commands.items
  closed : before.commands.closed = true → after.commands.closed = true
  accepting : before.dispatcher.pool.accepting = false → after.dispatcher.pool.accepting = false
  live : after.dispatcher.pool.live.entries ⊆ before.dispatcher.pool.live.entries
  pending : after.dispatcher.pool.pending ⊆ before.dispatcher.pool.pending
  running : before.dispatcher.pool.pending = [] →
    after.dispatcher.pool.running ⊆ before.dispatcher.pool.running
  outbound : before.link.outbound.closed = true → after.link.outbound.closed = true

theorem Wanes.refl (station : Station) : Wanes station station where
  stopped := rfl
  superseded := id
  outstanding := List.Subset.refl _
  commands := List.Subset.refl _
  closed := id
  accepting := id
  live := List.Subset.refl _
  pending := List.Subset.refl _
  running _ := List.Subset.refl _
  outbound := id

theorem wanes_step (teardown : Teardown) : Wanes teardown.station teardown.step.station := by
  obtain ⟨station, phase⟩ := teardown
  have hrefl := Wanes.refl station
  cases phase with
  | clearCommands => exact { hrefl with commands := List.nil_subset _ }
  | closeCommands => exact { hrefl with closed := fun _ => rfl }
  | closePool => exact { hrefl with accepting := fun _ => rfl }
  | cancelLive =>
    exact { hrefl with
      superseded := Superseded.cancelLive
      live := List.nil_subset _ }
  | discardJobs =>
    rw [step]
    split_ifs
    · exact hrefl
    · have hdiscards := station.dispatcher.discardOldest_discards
      exact {
        stopped := rfl
        superseded := hdiscards.superseded
        outstanding := hdiscards.outstanding
        commands := List.Subset.refl _
        closed := id
        accepting := fun h => hdiscards.accepting.trans h
        live := hdiscards.live
        pending := by
          rw [hdiscards.pending]
          exact List.drop_subset _ _
        running := fun _ => by
          rw [hdiscards.running]
          exact List.Subset.refl _
        outbound := fun h => by
          rw [link, hdiscards.link]
          exact h }
  | joinWorkers =>
    rw [step]
    split_ifs <;> exact hrefl
  | closeLink => exact { hrefl with outbound := fun _ => rfl }
  | done => exact hrefl

/-- The same beside the caller, once the tests are cancelled. -/
theorem wanes_aside (station : Station) (h : station.dispatcher.Superseded) (aside : Aside) :
    Wanes station { station with dispatcher := station.dispatcher.act aside.action } := by
  have hdwindles := h.act aside
  exact {
    stopped := rfl
    superseded := fun _ => hdwindles.superseded
    outstanding := hdwindles.outstanding
    commands := List.Subset.refl _
    closed := id
    accepting := fun h => hdwindles.accepting.trans h
    live := hdwindles.live
    pending := hdwindles.pending
    running := hdwindles.running
    outbound := fun h => by
      rw [link, hdwindles.link]
      exact h }

/-! ## What has come to rest -/

end Teardown

/-- What a phase brings about. -/
def Phase.Settled (station : Station) : Phase → Prop
  | clearCommands => station.commands.items = []
  | closeCommands => station.commands.closed = true
  | closePool => station.dispatcher.pool.accepting = false
  | cancelLive => station.dispatcher.pool.live.entries = []
  | discardJobs => station.dispatcher.pool.pending = []
  | joinWorkers => station.dispatcher.pool.pending = [] ∧ station.dispatcher.pool.running = []
  | closeLink => station.link.outbound.closed = true
  | done => True

namespace Teardown

theorem Wanes.settled {before after : Station} (h : Wanes before after) {phase : Phase}
    (hsettled : phase.Settled before) : phase.Settled after := by
  cases phase with
  | clearCommands => exact List.eq_nil_of_subset_nil (hsettled ▸ h.commands)
  | closeCommands => exact h.closed hsettled
  | closePool => exact h.accepting hsettled
  | cancelLive => exact List.eq_nil_of_subset_nil (hsettled ▸ h.live)
  | discardJobs => exact List.eq_nil_of_subset_nil (hsettled ▸ h.pending)
  | joinWorkers =>
    obtain ⟨hpending, hrunning⟩ := hsettled
    exact ⟨List.eq_nil_of_subset_nil (hpending ▸ h.pending),
      List.eq_nil_of_subset_nil (hrunning ▸ h.running hpending)⟩
  | closeLink => exact h.outbound hsettled
  | done => trivial

/-- The link of a shutdown under way: that of the station at its start, but
for the frames that were taken since, and closed at the end. -/
def linkAt (link : Link) (drained : Nat) : Phase → Link
  | .done => (link.drained drained).close
  | _ => link.drained drained

/-- A shutdown of a station is under way, and the transport has asked for so
many frames. -/
structure Underway (origin : Station) (drained : Nat) (teardown : Teardown) : Prop where
  stopped : teardown.station.stopped = true
  superseded : teardown.station.dispatcher.Superseded
  outstanding : teardown.station.dispatcher.outstanding.entries = []
  link : teardown.station.link = linkAt origin.link drained teardown.phase
  /-- The phases that lie behind have brought about what they should. -/
  settled : ∀ phase : Phase, phase.rank < teardown.phase.rank → phase.Settled teardown.station

theorem underway_start {station : Station} (h : station.Sound) :
    Underway station 0 (start station) where
  stopped := rfl
  superseded := h.orderly.superseded
  outstanding := rfl
  link := rfl
  settled _ hrank := absurd hrank (Nat.not_lt_zero _)

theorem rank_injective {phase phase' : Phase} (h : phase.rank = phase'.rank) : phase = phase' := by
  cases phase <;> cases phase' <;> first | rfl | cases h

/-- The caller stays in its phase, or goes on to the next one, having
brought about what it should. -/
theorem step_cases {teardown : Teardown}
    (h : ∀ phase : Phase, phase.rank < teardown.phase.rank → phase.Settled teardown.station) :
    teardown.step.phase = teardown.phase ∨
      teardown.step.phase.rank = teardown.phase.rank + 1 ∧
        teardown.phase.Settled teardown.step.station := by
  obtain ⟨station, phase⟩ := teardown
  cases phase with
  | clearCommands | closeCommands | closePool | cancelLive | closeLink => exact .inr ⟨rfl, rfl⟩
  | discardJobs =>
    rw [step]
    split_ifs with hpending
    · exact .inr ⟨rfl, hpending⟩
    · exact .inl rfl
  | joinWorkers =>
    rw [step]
    split_ifs with hrunning
    · exact .inr ⟨rfl, h .discardJobs (Nat.lt_succ_self 4), hrunning⟩
    · exact .inl rfl
  | done => exact .inl rfl

theorem link_step {link : Link} {drained : Nat} {teardown : Teardown}
    (h : teardown.station.link = linkAt link drained teardown.phase) :
    teardown.step.station.link = linkAt link drained teardown.step.phase := by
  obtain ⟨station, phase⟩ := teardown
  cases phase with
  | clearCommands | closeCommands | closePool | cancelLive | done => exact h
  | discardJobs =>
    rw [step]
    split_ifs
    · exact h
    · exact station.dispatcher.discardOldest_discards.link.trans h
  | joinWorkers =>
    rw [step]
    split_ifs <;> exact h
  | closeLink => exact congrArg Link.close h

theorem drained_linkAt (link : Link) (drained count : Nat) (phase : Phase) :
    (linkAt link drained phase).drained count = linkAt link (drained + count) phase := by
  cases phase with
  | done => exact congrArg Link.close (link.drained_drained drained count)
  | _ => exact link.drained_drained drained count

variable {origin : Station} {drained : Nat} {teardown : Teardown}

theorem Underway.step (h : Underway origin drained teardown) :
    Underway origin drained teardown.step := by
  have hwanes := teardown.wanes_step
  have hkept : ∀ phase : Phase, phase.rank < teardown.phase.rank →
      phase.Settled teardown.step.station :=
    fun phase hrank => hwanes.settled (h.settled phase hrank)
  refine ⟨hwanes.stopped.trans h.stopped, hwanes.superseded h.superseded,
    List.eq_nil_of_subset_nil (h.outstanding ▸ hwanes.outstanding), link_step h.link, ?_⟩
  intro phase hrank
  rcases step_cases h.settled with hstays | ⟨hnext, hsettled⟩
  · rw [hstays] at hrank
    exact hkept phase hrank
  · rw [hnext] at hrank
    rcases Nat.lt_succ_iff_lt_or_eq.mp hrank with hearlier | hsame
    · exact hkept phase hearlier
    · rw [rank_injective hsame]
      exact hsettled

theorem Underway.aside (h : Underway origin drained teardown) (aside : Aside) :
    Underway origin (drained + aside.drained) (teardown.turn (.aside aside)) := by
  have hwanes := wanes_aside teardown.station h.superseded aside
  refine ⟨h.stopped, hwanes.superseded h.superseded,
    List.eq_nil_of_subset_nil (h.outstanding ▸ hwanes.outstanding), ?_,
    fun phase hrank => hwanes.settled (h.settled phase hrank)⟩
  rw [← drained_linkAt]
  refine (h.superseded.act aside).link.trans ?_
  exact congrArg (Link.drained · aside.drained) h.link

/-- Whatever the order of the turns, the shutdown stays under way. -/
theorem Underway.run (h : Underway origin drained teardown) (turns : List Turn) :
    Underway origin (drained + drainedBy turns) (teardown.run turns) := by
  induction turns generalizing drained teardown with
  | nil => exact h
  | cons turn rest ih =>
    cases turn with
    | own => exact ih h.step
    | aside aside =>
      rw [drainedBy, ← Nat.add_assoc]
      exact ih (h.aside aside)

/-! ## The end of a shutdown -/

/-- The turns that are left, if nobody does more than he has to. -/
def weight (teardown : Teardown) : Nat :=
  (Phase.done.rank - teardown.phase.rank) + teardown.station.dispatcher.pool.pending.length +
    teardown.station.dispatcher.pool.running.length

/-- The caller goes on to the next phase. -/
theorem weight_next {station after : Station} {phase next : Phase}
    (hrank : next.rank = phase.rank + 1)
    (hpool : after.dispatcher.pool.pending = station.dispatcher.pool.pending ∧
      after.dispatcher.pool.running = station.dispatcher.pool.running) :
    weight ⟨after, next⟩ < weight ⟨station, phase⟩ := by
  have hlast : next.rank ≤ Phase.done.rank := by cases next <;> decide
  simp only [weight, hpool.1, hpool.2]
  omega

/-- Somebody can bring the shutdown closer to its end. -/
theorem progress (hphase : teardown.phase ≠ .done) :
    ∃ turn : Turn, turn ≠ .aside .drain ∧ (teardown.turn turn).weight < teardown.weight := by
  obtain ⟨station, phase⟩ := teardown
  have hown : Turn.own ≠ .aside .drain := Turn.noConfusion
  cases phase with
  | clearCommands | closeCommands | closePool | cancelLive | closeLink =>
    exact ⟨.own, hown, weight_next rfl ⟨rfl, rfl⟩⟩
  | discardJobs =>
    refine ⟨.own, hown, ?_⟩
    rw [turn, Teardown.step]
    split_ifs with hpending
    · exact weight_next rfl ⟨rfl, rfl⟩
    · have hdiscards := station.dispatcher.discardOldest_discards
      have hpos : 0 < station.dispatcher.pool.pending.length := List.length_pos_iff.mpr hpending
      simp only [weight, hdiscards.pending, hdiscards.running, List.length_drop]
      omega
  | joinWorkers =>
    by_cases hrunning : station.dispatcher.pool.running = []
    · refine ⟨.own, hown, ?_⟩
      rw [turn, Teardown.step, if_pos hrunning]
      exact weight_next rfl ⟨rfl, rfl⟩
    · -- The caller waits for the jobs that run, and each of them can end.
      refine ⟨.aside (.finishJob 0), by rintro ⟨⟩, ?_⟩
      have hpos : 0 < station.dispatcher.pool.running.length := List.length_pos_iff.mpr hrunning
      obtain ⟨hpending, hless, _⟩ :=
        Dispatcher.pool_finishJob (List.getElem?_eq_getElem hpos)
      show weight ⟨{ station with dispatcher := station.dispatcher.finishJob 0 }, _⟩ < _
      simp only [weight, hpending, hless, List.length_eraseIdx_of_lt hpos]
      omega
  | done => exact absurd rfl hphase

/-- From wherever it is, a shutdown can come to its end, also if no frame is
taken any more. -/
theorem finishes (teardown : Teardown) :
    ∃ turns, .aside .drain ∉ turns ∧ (teardown.run turns).phase = .done := by
  induction hweight : teardown.weight using Nat.strongRecOn generalizing teardown with
  | ind weight ih =>
    by_cases hphase : teardown.phase = .done
    · exact ⟨[], List.not_mem_nil, hphase⟩
    · obtain ⟨turn, hturn, hless⟩ := progress hphase
      obtain ⟨turns, hturns, hdone⟩ := ih _ (hweight ▸ hless) (teardown.turn turn) rfl
      exact ⟨turn :: turns, List.not_mem_cons_of_ne_of_not_mem hturn.symm hturns, hdone⟩

/-! ## The shutdown in one go -/

theorem run_asides (teardown : Teardown) (asides : List Aside) :
    teardown.run (asides.map .aside) =
      { teardown with station := { teardown.station with
          dispatcher := teardown.station.dispatcher.beside asides } } := by
  induction asides generalizing teardown with
  | nil => rfl
  | cons aside rest ih => exact ih (teardown.turn (.aside aside))

/-- The caller drops the waiting jobs without being interrupted. -/
theorem run_discards (station : Station) {count : Nat}
    (hcount : count ≤ station.dispatcher.pool.pending.length) :
    run ⟨station, .discardJobs⟩ (List.replicate count .own) =
      ⟨{ station with dispatcher := Dispatcher.discardOldest^[count] station.dispatcher },
        .discardJobs⟩ := by
  induction count generalizing station with
  | zero => rfl
  | succ count ih =>
    have hdiscards := station.dispatcher.discardOldest_discards
    have hpending : station.dispatcher.pool.pending ≠ [] := List.length_pos_iff.mp (by omega)
    rw [List.replicate_succ, Function.iterate_succ_apply]
    show run (step ⟨station, .discardJobs⟩) _ = _
    rw [step, if_neg hpending]
    refine ih _ ?_
    show count ≤ station.dispatcher.discardOldest.pool.pending.length
    rw [hdiscards.pending, List.length_drop]
    omega

theorem pending_shutdownPool (dispatcher : Dispatcher) :
    dispatcher.shutdownPool.pool.pending = [] := by
  have hkept : Dispatcher.Kept _ dispatcher.shutdownPool := Dispatcher.foldl_forget_kept _ _
  rw [hkept.pool]

/-- The caller shuts the pool down. -/
theorem run_shutdownPool (station : Station) :
    ∃ turns, .aside .drain ∉ turns ∧ run ⟨station, .closePool⟩ turns =
      ⟨{ station with dispatcher := station.dispatcher.shutdownPool }, .joinWorkers⟩ := by
  have hdiscards : run ⟨{ station with dispatcher := station.dispatcher.closePool.cancelLive },
        .discardJobs⟩ (List.replicate station.dispatcher.pool.pending.length .own) =
      ⟨{ station with dispatcher := station.dispatcher.shutdownPool }, .discardJobs⟩ := by
    rw [Dispatcher.shutdownPool_eq]
    exact run_discards _ (Nat.le_refl _)
  refine ⟨[.own, .own] ++
    (List.replicate station.dispatcher.pool.pending.length .own ++ [.own]), by simp, ?_⟩
  rw [run_append, run_append]
  refine (congrArg (run · [.own]) hdiscards).trans ?_
  exact if_pos (pending_shutdownPool station.dispatcher)

/-- The workers end what they have, and the caller closes the link. -/
theorem run_joinWorkers {station : Station} (h : station.dispatcher.Superseded) :
    ∃ turns, .aside .drain ∉ turns ∧ run ⟨station, .joinWorkers⟩ turns =
      ⟨station.settle.withLink station.settle.link.close, .done⟩ := by
  obtain ⟨asides, hworkers, hsettle, _⟩ :=
    Dispatcher.settle_eq station.gates station.dispatcher
  have hjoined : step ⟨station.settle, .joinWorkers⟩ = ⟨station.settle, .closeLink⟩ :=
    if_pos (h.running_settle station.gates)
  refine ⟨asides.map .aside ++ [.own, .own], by simp [hworkers], ?_⟩
  rw [run_append, run_asides, ← hsettle]
  exact congrArg step hjoined

/-- The shutdown that nobody interrupts is a run without the transport. -/
theorem shutdown_eq_run {station : Station} (h : station.Sound) :
    ∃ turns, .aside .drain ∉ turns ∧ ((start station).run turns).phase = .done ∧
      station.shutdown = ((start station).run turns).station := by
  let closing : Station :=
    { (start station).station with commands := station.commands.clear.2.close }
  have hstart : (start station).run [.own, .own] = ⟨closing, .closePool⟩ := rfl
  obtain ⟨turns, hpoolTurns, hpool⟩ := run_shutdownPool closing
  obtain ⟨turns', hjoinTurns, hjoin⟩ := @run_joinWorkers
    { closing with dispatcher := closing.dispatcher.shutdownPool } h.orderly.superseded.shutdownPool
  refine ⟨[.own, .own] ++ (turns ++ turns'), by simp [hpoolTurns, hjoinTurns], ?_⟩
  rw [run_append, hstart, run_append, hpool, hjoin]
  refine ⟨rfl, ?_⟩
  rw [Station.shutdown, if_neg (Bool.eq_false_iff.mp h.running)]
  rfl

end Teardown

end TestRig.Station
