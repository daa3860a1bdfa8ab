import TestRig.Proofs.Dispatcher.Generations
import TestRig.Proofs.Dispatcher.Registries
import TestRig.Proofs.Dispatcher.Settling
import Mathlib.Logic.Function.Iterate

/-!
# Dispatchers that come to rest

Behind the end of a generation, and with no command dispatched any more,
the workers go on until their jobs have ended, and nothing is reported.

* `Superseded` says that every test in the pool is cancelled.  The end of a
  generation brings it about, and the steps beside the callers keep it.
* `Dwindles` is what such a step can do: what waits, runs or is registered
  only becomes less, and of the link at most a frame is taken.
* `closePool`, `cancelLive` and `discardOldest` are the steps of a shutdown
  of the pool, between which the workers may go on.  `shutdownPool_eq` says
  what they are without that.
-/

namespace TestRig.Dispatcher

/-! ## Superseded tests -/

/-- Every test in the pool is cancelled. -/
def Superseded (dispatcher : Dispatcher) : Prop :=
  ∀ test token, dispatcher.Holds test token →
    ∃ child : Token, token = some child ∧ dispatcher.tokens.isCancelled child = true

variable {dispatcher before after : Dispatcher}

/-- The end of a generation supersedes every test. -/
theorem Orderly.superseded (h : Orderly dispatcher) :
    Superseded dispatcher.cancelGeneration.2 := by
  have hrenewed : Renewed [] (dispatcher.act .cancelGeneration) := h.renewed rfl
  intro test token hholds
  exact (hrenewed test token hholds).resolve_right List.not_mem_nil

/-- Jobs may go, and tokens may be cancelled. -/
theorem Superseded.of_subset (h : Superseded before)
    (hjobs : after.pool.jobs ⊆ before.pool.jobs)
    (hcancelled : before.tokens.cancelled ⊆ after.tokens.cancelled) : Superseded after := by
  intro test token hholds
  obtain ⟨child, htoken, hchild⟩ := h test token (Holds.of_subset hjobs hholds)
  exact ⟨child, htoken, Tokens.isCancelled_mono hcancelled hchild⟩

theorem Superseded.jobCancelled (h : Superseded dispatcher) {job : Job Work} {run : TestRun}
    (hjob : job ∈ dispatcher.pool.jobs) (hwork : job.work = .test run) :
    dispatcher.jobCancelled job = true := by
  obtain ⟨child, htoken, hchild⟩ := h run.guard.id job.token ⟨job, hjob, by rw [hwork]; rfl, rfl⟩
  rw [Dispatcher.jobCancelled, htoken]
  exact hchild

/-- A superseded test does not wait at a gate. -/
theorem Superseded.standsAtGate (h : Superseded dispatcher) (gates : Gates) {job : Job Work}
    (hjob : job ∈ dispatcher.pool.jobs) : dispatcher.standsAtGate gates job = false := by
  unfold Dispatcher.standsAtGate
  cases hwork : job.work with
  | clock payload => rfl
  | test run =>
    dsimp only
    cases run.activity.bind Activity.gate with
    | none => rfl
    | some gate =>
      dsimp only
      rw [h.jobCancelled hjob hwork, Bool.not_true, Bool.and_false]

/-- The end of a superseded test is not reported, and that of another job
never is. -/
theorem Superseded.link_finishJob (h : Superseded dispatcher) (index : Nat) :
    (dispatcher.finishJob index).link = dispatcher.link := by
  cases hended : dispatcher.pool.running[index]? with
  | none =>
    unfold finishJob
    rw [hended]
  | some ended =>
    have hjob : ended ∈ dispatcher.pool.jobs :=
      Pool.mem_jobs.mpr (.inr (List.mem_of_getElem? hended))
    have hcomplete : (dispatcher.complete ended).link = dispatcher.link := by
      unfold complete
      cases hwork : ended.work with
      | clock payload => rfl
      | test run =>
        dsimp only
        unfold sendReport
        rw [h.jobCancelled hjob hwork]
        cases TestRun.response? run <;> rfl
    rw [finishJob_eq hended]
    exact (link_forget _ ended).trans hcomplete

/-! ## Steps beside the callers -/

/-- The outbound frames that a step takes. -/
def Aside.drained : Aside → Nat
  | drain => 1
  | startJob | finishJob _ => 0

/-- What a step beside the callers does to a dispatcher that has only
superseded tests. -/
structure Dwindles (before : Dispatcher) (drained : Nat) (after : Dispatcher) : Prop where
  superseded : Superseded after
  outstanding : after.outstanding.entries ⊆ before.outstanding.entries
  live : after.pool.live.entries ⊆ before.pool.live.entries
  pending : after.pool.pending ⊆ before.pool.pending
  running : before.pool.pending = [] → after.pool.running ⊆ before.pool.running
  accepting : after.pool.accepting = before.pool.accepting
  /-- Of the link, frames are taken. -/
  link : after.link = before.link.drained drained

theorem Superseded.startJob (h : Superseded dispatcher) :
    Dwindles dispatcher 0 (dispatcher.startJob?.getD dispatcher) := by
  have hretains := dispatcher.retains_startJob
  have hsuperseded : Superseded (dispatcher.startJob?.getD dispatcher) := by
    have hadvances := dispatcher.startJob_advances
    intro test token hholds
    rcases hadvances.holds hholds with hbefore | ⟨hsubmitted, _⟩
    · obtain ⟨child, htoken, hchild⟩ := h test token hbefore
      exact ⟨child, htoken, Tokens.isCancelled_mono hadvances.cancelled hchild⟩
    · exact absurd hsubmitted List.not_mem_nil
  rcases dispatcher.startJob_cases with heq | ⟨oldest, rest, hpending, heq⟩
  · rw [heq] at hretains hsuperseded ⊢
    exact ⟨hsuperseded, hretains.outstanding, hretains.live, List.Subset.refl _,
      fun _ => List.Subset.refl _, rfl, rfl⟩
  · rw [heq] at hretains hsuperseded ⊢
    refine ⟨hsuperseded, hretains.outstanding, hretains.live, ?_, ?_, rfl, rfl⟩
    · rw [hpending]
      exact List.subset_cons_self _ _
    · intro hnone
      rw [hpending] at hnone
      cases hnone

theorem Superseded.finishJob (h : Superseded dispatcher) (index : Nat) :
    Dwindles dispatcher 0 (dispatcher.finishJob index) := by
  have hretains := dispatcher.retains_finishJob index
  obtain ⟨hjobs, htokens, _, _⟩ := dispatcher.finishJob_cases index
  have hpool : (dispatcher.finishJob index).pool.pending = dispatcher.pool.pending ∧
      (dispatcher.finishJob index).pool.running ⊆ dispatcher.pool.running ∧
      (dispatcher.finishJob index).pool.accepting = dispatcher.pool.accepting := by
    cases hended : dispatcher.pool.running[index]? with
    | none =>
      unfold Dispatcher.finishJob
      rw [hended]
      exact ⟨rfl, List.Subset.refl _, rfl⟩
    | some ended =>
      obtain ⟨hpending, hrunning, _⟩ := pool_finishJob hended
      refine ⟨hpending, ?_, ?_⟩
      · rw [hrunning]
        exact List.eraseIdx_subset
      · rw [finishJob_eq hended, Pool.finish, hended]
        exact Pool.accepting_release _ ended
  exact {
    superseded := h.of_subset hjobs (by rw [htokens]; exact List.Subset.refl _)
    outstanding := hretains.outstanding
    live := hretains.live
    pending := by rw [hpool.1]; exact List.Subset.refl _
    running := fun _ => hpool.2.1
    accepting := hpool.2.2
    link := h.link_finishJob index }

theorem Superseded.act (h : Superseded dispatcher) (aside : Aside) :
    Dwindles dispatcher aside.drained (dispatcher.act aside.action) := by
  cases aside with
  | startJob => exact h.startJob
  | finishJob index => exact h.finishJob index
  | drain =>
    refine ⟨h, List.Subset.refl _, List.Subset.refl _, List.Subset.refl _,
      fun _ => List.Subset.refl _, rfl, ?_⟩
    exact congrArg Prod.snd dispatcher.link.drain_eq

theorem Superseded.beside (h : Superseded dispatcher) (asides : List Aside) :
    Superseded (dispatcher.beside asides) := by
  induction asides generalizing dispatcher with
  | nil => exact h
  | cons aside rest ih => exact ih (h.act aside).superseded

/-- A dispatcher that has only superseded tests settles until no job runs,
whatever gates are closed. -/
theorem Superseded.running_settle (h : Superseded dispatcher) (gates : Gates) :
    (dispatcher.settle gates).pool.running = [] := by
  obtain ⟨asides, _, heq, hsettled⟩ := settle_eq gates dispatcher
  rw [heq] at hsettled ⊢
  exact running_eq_nil hsettled fun job hjob =>
    (h.beside asides).standsAtGate gates (Pool.mem_jobs.mpr (.inr hjob))

/-! ## The shutdown of the pool -/

/-- The pool takes no more jobs. -/
def closePool (dispatcher : Dispatcher) : Dispatcher :=
  { dispatcher with pool := { dispatcher.pool with accepting := false } }

/-- The live tokens are cancelled. -/
def cancelLive (dispatcher : Dispatcher) : Dispatcher :=
  let (_, pool, tokens) := dispatcher.pool.cancelAll dispatcher.tokens
  { dispatcher with pool, tokens }

/-- The oldest waiting job is dropped, if there is one. -/
def discardOldest (dispatcher : Dispatcher) : Dispatcher :=
  match dispatcher.pool.pending with
  | [] => dispatcher
  | job :: rest =>
    { dispatcher.forget job with
      pool := { dispatcher.pool with pending := rest }.release job }

theorem Superseded.cancelLive (h : Superseded dispatcher) : Superseded dispatcher.cancelLive :=
  h.of_subset (List.Subset.refl _) (TokenSet.cancelled_subset_cancelAll _ _)

/-- What goes with the oldest waiting job. -/
structure Discards (before after : Dispatcher) : Prop where
  superseded : Superseded before → Superseded after
  outstanding : after.outstanding.entries ⊆ before.outstanding.entries
  live : after.pool.live.entries ⊆ before.pool.live.entries
  pending : after.pool.pending = before.pool.pending.drop 1
  running : after.pool.running = before.pool.running
  accepting : after.pool.accepting = before.pool.accepting
  link : after.link = before.link

theorem discardOldest_discards (dispatcher : Dispatcher) :
    Discards dispatcher dispatcher.discardOldest := by
  unfold discardOldest
  cases hpending : dispatcher.pool.pending with
  | nil =>
    exact ⟨id, List.Subset.refl _, List.Subset.refl _, by rw [hpending]; rfl, rfl, rfl, rfl⟩
  | cons job rest =>
    dsimp only
    refine ⟨?_, fun entry hentry => (mem_outstanding_forget.mp hentry).1,
      fun entry hentry => (Pool.mem_live_release hentry).1, ?_,
      Pool.running_release _ job, Pool.accepting_release _ job,
      link_forget dispatcher job⟩
    · intro h
      refine h.of_subset ?_ ?_
      · intro other hother
        rw [Pool.jobs_release, Pool.mem_jobs] at hother
        rw [Pool.mem_jobs, hpending]
        exact hother.imp_left (List.mem_cons_of_mem _)
      · show dispatcher.tokens.cancelled ⊆ (dispatcher.forget job).tokens.cancelled
        rw [(dispatcher.forget_kept job).tokens]
        exact List.Subset.refl _
    · rw [hpending]
      exact Pool.pending_release _ job

theorem Superseded.shutdownPool (h : Superseded dispatcher) :
    Superseded dispatcher.shutdownPool := by
  have hkept : Kept _ dispatcher.shutdownPool := foldl_forget_kept _ _
  refine h.of_subset ?_ ?_
  · rw [hkept.pool]
    exact List.subset_append_right _ _
  · rw [hkept.tokens]
    exact dispatcher.pool.cancelled_subset_shutdown dispatcher.tokens

/-- Where no token is live, a job that is dropped leaves no other trace than
that of a test that is forgotten. -/
theorem discardOldest_eq {job : Job Work} {rest : List (Job Work)}
    (hlive : dispatcher.pool.live.entries = [])
    (hpending : dispatcher.pool.pending = job :: rest) :
    dispatcher.discardOldest =
      { dispatcher.forget job with pool := { dispatcher.pool with pending := rest } } := by
  have hnone : ({ dispatcher.pool with pending := rest } : Pool Work).live.entries = [] := hlive
  rw [discardOldest, hpending]
  dsimp only
  rw [Pool.release_of_nil hnone]

theorem forget_withPool (dispatcher : Dispatcher) (pool : Pool Work) (job : Job Work) :
    ({ dispatcher with pool } : Dispatcher).forget job = { dispatcher.forget job with pool } := by
  unfold forget
  cases job.work <;> rfl

/-- The waiting jobs are dropped one by one. -/
theorem discardOldest_iterate (hlive : dispatcher.pool.live.entries = []) :
    discardOldest^[dispatcher.pool.pending.length] dispatcher =
      dispatcher.pool.pending.foldl forget
        { dispatcher with pool := { dispatcher.pool with pending := [] } } := by
  generalize hpending : dispatcher.pool.pending = jobs
  induction jobs generalizing dispatcher with
  | nil => rw [List.length_nil, Function.iterate_zero, id, List.foldl_nil, ← hpending]
  | cons job rest ih =>
    rw [List.length_cons, Function.iterate_succ_apply, discardOldest_eq hlive hpending, ih]
    · rw [List.foldl_cons]
      exact congrArg (rest.foldl forget ·)
        (dispatcher.forget_withPool { dispatcher.pool with pending := [] } job).symm
    · exact hlive
    · rfl

/-- The shutdown of a pool, step by step. -/
theorem shutdownPool_eq (dispatcher : Dispatcher) :
    dispatcher.shutdownPool =
      discardOldest^[dispatcher.pool.pending.length] dispatcher.closePool.cancelLive :=
  (@discardOldest_iterate dispatcher.closePool.cancelLive rfl).symm

end TestRig.Dispatcher
