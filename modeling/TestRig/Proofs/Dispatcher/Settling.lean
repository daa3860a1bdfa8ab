import TestRig.Dispatcher.Settle
import TestRig.Proofs.Dispatcher.Whereabouts

/-!
# Settling

Workers take jobs and end them, and the transport takes frames, beside
whatever the callers of a dispatcher do.  Settling is one schedule of that,
and it comes to its end.

* `Aside` is one such step, and `beside` a list of them.
* `load` is the number of steps that the jobs of the pool are good for.
  Every step of the schedule takes one off (`advance?_eq_some`), so that
  the fuel of `settle` is enough (`settle_eq`).
* `running_eq_nil` says that no job runs in a settled dispatcher if none
  stands at a gate.
-/

namespace TestRig.Dispatcher

/-! ## What goes on beside the callers -/

/-- A step that no caller asks for. -/
inductive Aside where
  /-- A free worker takes the oldest waiting job, if there are both. -/
  | startJob
  /-- The running job at a place ends. -/
  | finishJob (index : Nat)
  /-- The transport takes the oldest outbound frame. -/
  | drain
  deriving DecidableEq

/-- The step as an action of a dispatcher. -/
def Aside.action : Aside → Action
  | startJob => .startJob
  | finishJob index => .finishJob index
  | drain => .drain

/-- The dispatcher behind such steps. -/
def beside (dispatcher : Dispatcher) (asides : List Aside) : Dispatcher :=
  dispatcher.actAll (asides.map Aside.action)

theorem beside_append (dispatcher : Dispatcher) (first second : List Aside) :
    dispatcher.beside (first ++ second) = (dispatcher.beside first).beside second := by
  rw [beside, List.map_append, actAll, List.foldl_append]
  rfl

/-! ## The schedule -/

/-- The number of steps of the schedule that the jobs of the pool are good
for. -/
def load (dispatcher : Dispatcher) : Nat :=
  2 * dispatcher.pool.pending.length + dispatcher.pool.running.length

/-- A job that ends was running. -/
theorem load_finishJob {dispatcher : Dispatcher} {index : Nat}
    (h : index < dispatcher.pool.running.length) :
    (dispatcher.finishJob index).load + 1 = dispatcher.load := by
  obtain ⟨hpending, hrunning, _⟩ := pool_finishJob (List.getElem?_eq_getElem h)
  rw [load, load, hpending, hrunning, List.length_eraseIdx_of_lt h]
  omega

/-- A job that a worker takes waited. -/
theorem load_startJob {dispatcher after : Dispatcher} (h : dispatcher.startJob? = some after) :
    after.load + 1 = dispatcher.load := by
  obtain ⟨pool, hstart, rfl⟩ := Option.map_eq_some_iff.mp h
  obtain ⟨oldest, rest, hpending, _, rfl⟩ := Pool.start?_eq_some hstart
  simp only [load, hpending, List.length_append, List.length_cons, List.length_nil]
  omega

variable {gates : Gates} {dispatcher : Dispatcher}

/-- A step of the schedule is one of the workers, and takes one off the
load. -/
theorem advance?_eq_some {after : Dispatcher} (h : dispatcher.advance? gates = some after) :
    ∃ aside, aside ≠ .drain ∧ after = dispatcher.beside [aside] ∧
      after.load + 1 = dispatcher.load := by
  unfold advance? at h
  cases hready : dispatcher.readyJob? gates with
  | some index =>
    rw [hready] at h
    cases h
    refine ⟨.finishJob index, Aside.noConfusion, rfl, load_finishJob ?_⟩
    exact (List.findIdx?_eq_some_iff_findIdx_eq.mp hready).1
  | none =>
    rw [hready] at h
    dsimp only at h
    refine ⟨.startJob, Aside.noConfusion, ?_, load_startJob h⟩
    show after = dispatcher.startJob?.getD dispatcher
    rw [h]
    rfl

/-- With as much fuel as there is load, the schedule comes to its end. -/
theorem settleLoop_eq {fuel : Nat} (hfuel : dispatcher.load ≤ fuel) :
    ∃ asides, .drain ∉ asides ∧ settleLoop gates fuel dispatcher = dispatcher.beside asides ∧
      (settleLoop gates fuel dispatcher).advance? gates = none := by
  induction fuel generalizing dispatcher with
  | zero =>
    refine ⟨[], List.not_mem_nil, rfl, ?_⟩
    cases hadvance : dispatcher.advance? gates with
    | none => exact hadvance
    | some after =>
      obtain ⟨_, _, _, hload⟩ := advance?_eq_some hadvance
      omega
  | succ fuel ih =>
    rw [settleLoop]
    cases hadvance : dispatcher.advance? gates with
    | none => exact ⟨[], List.not_mem_nil, rfl, hadvance⟩
    | some after =>
      obtain ⟨aside, hworker, rfl, hload⟩ := advance?_eq_some hadvance
      obtain ⟨asides, hworkers, hloop, hsettled⟩ := @ih (dispatcher.beside [aside]) (by omega)
      refine ⟨aside :: asides,
        List.not_mem_cons_of_ne_of_not_mem hworker.symm hworkers, ?_, hsettled⟩
      rw [← List.singleton_append, beside_append]
      exact hloop

/-- To settle is to have the workers take steps until the schedule has none
left. -/
theorem settle_eq (gates : Gates) (dispatcher : Dispatcher) :
    ∃ asides, .drain ∉ asides ∧ dispatcher.settle gates = dispatcher.beside asides ∧
      (dispatcher.settle gates).advance? gates = none :=
  settleLoop_eq (Nat.le_refl _)

/-- In a settled dispatcher each running job stands at a gate. -/
theorem running_eq_nil (hsettled : dispatcher.advance? gates = none)
    (hgate : ∀ job ∈ dispatcher.pool.running, dispatcher.standsAtGate gates job = false) :
    dispatcher.pool.running = [] := by
  unfold advance? at hsettled
  cases hready : dispatcher.readyJob? gates with
  | some index =>
    rw [hready] at hsettled
    cases hsettled
  | none =>
    refine List.eq_nil_iff_forall_not_mem.mpr ?_
    intro job hjob
    have hstands := List.findIdx?_eq_none_iff.mp hready job hjob
    rw [hgate job hjob] at hstands
    cases hstands

end TestRig.Dispatcher
