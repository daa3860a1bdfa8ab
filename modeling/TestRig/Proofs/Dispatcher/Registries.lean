import TestRig.Proofs.Dispatcher.Step
import Mathlib.Data.List.Perm.Basic

/-!
# The registries of a test

The token of a test stands in two sets while the test waits or runs: among
the outstanding tests of the dispatcher, and among the live tokens of the
pool.  Guards that are dropped with the job take it out of both.

* `Retains` says what an action can do that admits no test: jobs leave only
  together with their entries.  `Admits` is the admission of one.  Every
  action does one of the two (`act_cases`).
* `Registered` is the invariant: each entry of either set is that of a job
  in the pool.
* `Guards` says which test a guard of the pool belongs to.
-/

namespace TestRig

namespace Dispatcher

/-! ## What an action does to the registries -/

/-- Two jobs with the same entries in the registries. -/
structure SameJob (job job' : Job Work) : Prop where
  test : job'.work.test? = job.work.test?
  token : job'.token = job.token
  guard : job'.guard = job.guard

theorem SameJob.refl (job : Job Work) : SameJob job job :=
  ⟨rfl, rfl, rfl⟩

theorem sameJob_begin (dispatcher : Dispatcher) (job : Job Work) :
    SameJob job (dispatcher.begin job) := by
  obtain ⟨htest, htoken⟩ := dispatcher.begin_kept job
  refine ⟨htest, htoken, ?_⟩
  unfold begin
  cases job.work <;> rfl

/-- A job has no entries. -/
def Unlisted (dispatcher : Dispatcher) (job : Job Work) : Prop :=
  (∀ entry ∈ dispatcher.outstanding.entries, job.work.test? ≠ some entry.1) ∧
    ∀ entry ∈ dispatcher.pool.live.entries, job.guard ≠ some ⟨entry.1⟩

/-- What is done without admitting a test. -/
structure Retains (before after : Dispatcher) : Prop where
  /-- Only a job without a guard can come. -/
  come : ∀ job ∈ after.pool.jobs,
    (∃ earlier ∈ before.pool.jobs, SameJob earlier job) ∨ job.guard = none
  /-- Only a job without entries can go. -/
  go : ∀ job ∈ before.pool.jobs,
    (∃ later ∈ after.pool.jobs, SameJob job later) ∨ after.Unlisted job
  outstanding : after.outstanding.entries ⊆ before.outstanding.entries
  live : after.pool.live.entries ⊆ before.pool.live.entries
  next_le : before.pool.live.next ≤ after.pool.live.next

/-- A test is admitted as a job. -/
structure Admits (before : Dispatcher) (admitted : Job Work) (after : Dispatcher) : Prop where
  test : admitted.work.test? = some before.outstanding.next
  guard : admitted.guard = some ⟨before.pool.live.next⟩
  jobs : ∀ job, job ∈ after.pool.jobs ↔ job ∈ before.pool.jobs ∨ job = admitted
  outstanding : ∀ entry ∈ after.outstanding.entries, entry ∈ before.outstanding.entries ∨
    entry.1 = before.outstanding.next ∧ admitted.token = some entry.2
  live : ∀ entry ∈ after.pool.live.entries, entry ∈ before.pool.live.entries ∨
    entry.1 = before.pool.live.next ∧ admitted.token = some entry.2
  next_eq : after.pool.live.next = before.pool.live.next + 1

section Actions

variable {before after : Dispatcher}

/-- The jobs are the same, and at most entries go. -/
theorem Retains.of_jobs (hjobs : after.pool.jobs = before.pool.jobs)
    (houtstanding : after.outstanding.entries ⊆ before.outstanding.entries)
    (hlive : after.pool.live.entries ⊆ before.pool.live.entries)
    (hnext : before.pool.live.next ≤ after.pool.live.next) : Retains before after where
  come := by
    intro job hjob
    rw [hjobs] at hjob
    exact .inl ⟨job, hjob, .refl job⟩
  go := by
    intro job hjob
    rw [← hjobs] at hjob
    exact .inl ⟨job, hjob, .refl job⟩
  outstanding := houtstanding
  live := hlive
  next_le := hnext

theorem Retains.refl (dispatcher : Dispatcher) : Retains dispatcher dispatcher :=
  .of_jobs rfl (List.Subset.refl _) (List.Subset.refl _) (Nat.le_refl _)

theorem retains_setClock (dispatcher : Dispatcher) (payload : Json.Value) :
    Retains dispatcher (dispatcher.setClock payload) := by
  rcases dispatcher.setClock_cases payload with heq | heq
  · rw [heq]
    exact .refl dispatcher
  · rw [heq]
    refine ⟨?_, ?_, List.Subset.refl _, List.Subset.refl _, Nat.le_refl _⟩
    · intro job hjob
      rw [Pool.mem_jobs, List.mem_append, List.mem_singleton] at hjob
      rcases hjob with (hjob | rfl) | hjob
      · exact .inl ⟨job, Pool.mem_jobs.mpr (.inl hjob), .refl job⟩
      · exact .inr rfl
      · exact .inl ⟨job, Pool.mem_jobs.mpr (.inr hjob), .refl job⟩
    · intro job hjob
      refine .inl ⟨job, Pool.mem_jobs.mpr ?_, .refl job⟩
      exact (Pool.mem_jobs.mp hjob).imp_left (List.mem_append_left _)

theorem submitTest_admits (dispatcher : Dispatcher) (kind : CommandKind) (command : Command)
    (executor : Executor) :
    Retains dispatcher (dispatcher.submitTest kind command executor) ∨
      ∃ admitted, Admits dispatcher admitted (dispatcher.submitTest kind command executor) := by
  rcases dispatcher.submitTest_eq kind command executor with ⟨_, heq⟩ | ⟨_, heq⟩
  · refine .inr ⟨dispatcher.testJob kind command executor, ?_⟩
    rw [heq]
    refine ⟨rfl, rfl, ?_, ?_, ?_, rfl⟩
    · intro job
      rw [Pool.mem_jobs, Pool.mem_jobs, List.mem_append, List.mem_singleton]
      exact or_right_comm
    · intro entry hentry
      refine (List.mem_append.mp hentry).imp_right ?_
      intro hentry
      cases List.mem_singleton.mp hentry
      exact ⟨rfl, rfl⟩
    · intro entry hentry
      refine (List.mem_append.mp hentry).imp_right ?_
      intro hentry
      cases List.mem_singleton.mp hentry
      exact ⟨rfl, rfl⟩
  · refine .inl ?_
    rw [heq]
    exact .of_jobs rfl (TokenSet.entries_insert_drop _ _) (TokenSet.entries_insert_drop _ _)
      (Nat.le_succ _)

theorem retains_startJob (dispatcher : Dispatcher) :
    Retains dispatcher (dispatcher.startJob?.getD dispatcher) := by
  rcases dispatcher.startJob_cases with heq | ⟨oldest, rest, hpending, heq⟩
  · rw [heq]
    exact .refl dispatcher
  · rw [heq]
    have hbegun : ∀ job, job ∈ rest ++ (dispatcher.pool.running ++ [dispatcher.begin oldest]) ↔
        (job ∈ rest ∨ job ∈ dispatcher.pool.running) ∨ job = dispatcher.begin oldest := by
      intro job
      rw [List.mem_append, List.mem_append, List.mem_singleton, or_assoc]
    have hbefore : ∀ job, job ∈ dispatcher.pool.jobs ↔
        job = oldest ∨ job ∈ rest ∨ job ∈ dispatcher.pool.running := by
      intro job
      rw [Pool.mem_jobs, hpending, List.mem_cons, or_assoc]
    refine ⟨?_, ?_, List.Subset.refl _, List.Subset.refl _, Nat.le_refl _⟩
    · intro job hjob
      rcases (hbegun job).mp hjob with hjob | rfl
      · exact .inl ⟨job, (hbefore job).mpr (.inr hjob), .refl job⟩
      · exact .inl ⟨oldest, (hbefore oldest).mpr (.inl rfl), dispatcher.sameJob_begin oldest⟩
    · intro job hjob
      rcases (hbefore job).mp hjob with rfl | hjob
      · exact .inl ⟨_, (hbegun _).mpr (.inr rfl), dispatcher.sameJob_begin job⟩
      · exact .inl ⟨job, (hbegun job).mpr (.inl hjob), .refl job⟩

theorem mem_outstanding_forget {dispatcher : Dispatcher} {job : Job Work}
    {entry : Nat × Token} :
    entry ∈ (dispatcher.forget job).outstanding.entries ↔
      entry ∈ dispatcher.outstanding.entries ∧ job.work.test? ≠ some entry.1 := by
  unfold forget
  cases hwork : job.work with
  | test run =>
    refine TokenSet.mem_drop.trans (and_congr_right ?_)
    intro _
    rw [Work.test?, ne_eq, ne_eq, Option.some_inj, eq_comm]
  | clock payload => exact (and_iff_left (by rintro ⟨⟩)).symm

theorem mem_outstanding_foldl_forget {jobs : List (Job Work)} {dispatcher : Dispatcher}
    {entry : Nat × Token} :
    entry ∈ (jobs.foldl forget dispatcher).outstanding.entries ↔
      entry ∈ dispatcher.outstanding.entries ∧ ∀ job ∈ jobs, job.work.test? ≠ some entry.1 := by
  induction jobs generalizing dispatcher with
  | nil => exact (and_iff_left fun job hjob => absurd hjob List.not_mem_nil).symm
  | cons job rest ih =>
    rw [List.foldl_cons, ih, mem_outstanding_forget, and_assoc, List.forall_mem_cons]

/-- The entries of a job go when it ends. -/
theorem retains_finishJob (dispatcher : Dispatcher) (index : Nat) :
    Retains dispatcher (dispatcher.finishJob index) := by
  cases hended : dispatcher.pool.running[index]? with
  | none =>
    unfold finishJob
    rw [hended]
    exact .refl dispatcher
  | some ended =>
    rw [finishJob_eq hended, Pool.finish, hended]
    dsimp only
    have houtstanding : ∀ entry, entry ∈
        ((dispatcher.complete ended).forget ended).outstanding.entries →
          entry ∈ dispatcher.outstanding.entries ∧ ended.work.test? ≠ some entry.1 := by
      intro entry hentry
      obtain ⟨link, hookRuns, heq⟩ := dispatcher.complete_eq ended
      rw [mem_outstanding_forget, heq] at hentry
      exact hentry
    have hlive : ∀ entry, entry ∈ (Pool.release { dispatcher.pool with
        running := dispatcher.pool.running.eraseIdx index } ended).live.entries →
          entry ∈ dispatcher.pool.live.entries ∧ ended.guard ≠ some ⟨entry.1⟩ := by
      intro entry hentry
      obtain ⟨hentry, hguard⟩ := Pool.mem_live_release hentry
      exact ⟨hentry, hguard⟩
    obtain ⟨hinside, rfl⟩ := List.getElem?_eq_some_iff.mp hended
    have hperm : ∀ job, job ∈ dispatcher.pool.running ↔
        job = dispatcher.pool.running[index] ∨ job ∈ dispatcher.pool.running.eraseIdx index := by
      intro job
      rw [← (List.getElem_cons_eraseIdx_perm hinside).mem_iff, List.mem_cons]
    refine ⟨?_, ?_, fun entry hentry => (houtstanding entry hentry).1,
      fun entry hentry => (hlive entry hentry).1, ?_⟩
    · intro job hjob
      rw [Pool.jobs_release, Pool.mem_jobs] at hjob
      refine .inl ⟨job, Pool.mem_jobs.mpr ?_, .refl job⟩
      exact hjob.imp_right fun hjob => (hperm job).mpr (.inr hjob)
    · intro job hjob
      rcases Pool.mem_jobs.mp hjob with hjob | hjob
      · refine .inl ⟨job, ?_, .refl job⟩
        rw [Pool.jobs_release, Pool.mem_jobs]
        exact .inl hjob
      · rcases (hperm job).mp hjob with rfl | hjob
        · exact .inr ⟨fun entry hentry => (houtstanding entry hentry).2,
            fun entry hentry => (hlive entry hentry).2⟩
        · refine .inl ⟨job, ?_, .refl job⟩
          rw [Pool.jobs_release, Pool.mem_jobs]
          exact .inr hjob
    · unfold Pool.release
      split <;> exact Nat.le_refl _

/-- The live tokens go when the pool is shut down, and the waiting jobs with
their entries. -/
theorem retains_shutdownPool (dispatcher : Dispatcher) :
    Retains dispatcher dispatcher.shutdownPool := by
  have hkept : Kept _ dispatcher.shutdownPool := foldl_forget_kept _ _
  have hjobs : dispatcher.shutdownPool.pool.jobs = dispatcher.pool.running := by
    rw [hkept.pool]
    rfl
  have hlive : dispatcher.shutdownPool.pool.live.entries = [] := by
    rw [hkept.pool]
  have hnext : dispatcher.shutdownPool.pool.live.next = dispatcher.pool.live.next := by
    rw [hkept.pool]
  have houtstanding : ∀ entry ∈ dispatcher.shutdownPool.outstanding.entries,
      entry ∈ dispatcher.outstanding.entries ∧
        ∀ job ∈ dispatcher.pool.pending, job.work.test? ≠ some entry.1 := by
    intro entry hentry
    change entry ∈ (List.foldl forget _ dispatcher.pool.pending).outstanding.entries at hentry
    obtain ⟨hentry, hforgotten⟩ := mem_outstanding_foldl_forget.mp hentry
    exact ⟨hentry, hforgotten⟩
  refine ⟨?_, ?_, fun entry hentry => (houtstanding entry hentry).1, ?_, ?_⟩
  · intro job hjob
    rw [hjobs] at hjob
    exact .inl ⟨job, Pool.mem_jobs.mpr (.inr hjob), .refl job⟩
  · intro job hjob
    rcases Pool.mem_jobs.mp hjob with hjob | hjob
    · refine .inr ⟨fun entry hentry => (houtstanding entry hentry).2 job hjob, ?_⟩
      intro entry hentry
      rw [hlive] at hentry
      exact absurd hentry List.not_mem_nil
    · refine .inl ⟨job, ?_, .refl job⟩
      rw [hjobs]
      exact hjob
  · rw [hlive]
    exact List.nil_subset _
  · exact Nat.le_of_eq hnext.symm

end Actions

/-- An action admits a test, or none. -/
theorem act_cases (dispatcher : Dispatcher) (action : Action) :
    Retains dispatcher (dispatcher.act action) ∨
      ∃ admitted, Admits dispatcher admitted (dispatcher.act action) := by
  cases action with
  | dispatch command =>
    have hdispatched := dispatcher.dispatch_cases command
    show Retains dispatcher (dispatcher.dispatch command) ∨
      ∃ admitted, Admits dispatcher admitted (dispatcher.dispatch command)
    generalize dispatcher.dispatchEntries command = told at hdispatched
    generalize dispatcher.dispatch command = after at hdispatched ⊢
    cases hdispatched with
    | dropped => exact .inl (.refl dispatcher)
    | clock =>
      have hclock := (dispatcher.ack .setSystemTime .null command.sequence).retains_setClock
        command.payload
      exact .inl ⟨hclock.come, hclock.go, hclock.outstanding, hclock.live, hclock.next_le⟩
    | control kind =>
      exact .inl (.of_jobs rfl (List.nil_subset _) (List.Subset.refl _) (Nat.le_refl _))
    | test kind executor =>
      rcases (dispatcher.ack kind .null command.sequence).submitTest_admits kind command
        executor with h | ⟨admitted, h⟩
      · exact .inl ⟨h.come, h.go, h.outstanding, h.live, h.next_le⟩
      · exact .inr ⟨admitted, h.test, h.guard, h.jobs, h.outstanding, h.live, h.next_eq⟩
  | cancelGeneration =>
    exact .inl (.of_jobs rfl (List.nil_subset _) (List.Subset.refl _) (Nat.le_refl _))
  | startJob => exact .inl dispatcher.retains_startJob
  | finishJob index => exact .inl (dispatcher.retains_finishJob index)
  | shutdownPool => exact .inl dispatcher.retains_shutdownPool
  | acknowledge | drain | close =>
    exact .inl (.of_jobs rfl (List.Subset.refl _) (List.Subset.refl _) (Nat.le_refl _))

/-! ## The invariants -/

/-- Each entry of a registry is that of a job in the pool. -/
structure Registered (dispatcher : Dispatcher) : Prop where
  outstanding : ∀ entry ∈ dispatcher.outstanding.entries,
    dispatcher.Holds entry.1 (some entry.2)
  live : ∀ entry ∈ dispatcher.pool.live.entries,
    ∃ job ∈ dispatcher.pool.jobs, job.guard = some ⟨entry.1⟩ ∧ job.token = some entry.2
  /-- The numbers of the guards were given out. -/
  below : ∀ job ∈ dispatcher.pool.jobs, ∀ guard, job.guard = some guard →
    guard.id < dispatcher.pool.live.next

theorem registered_fresh (config : Config) (workers jobCapacity : Nat) (registry : Registry)
    (timeHook : Option TimeHook) :
    Registered (fresh config workers jobCapacity registry timeHook) where
  outstanding _ hentry := absurd hentry List.not_mem_nil
  live _ hentry := absurd hentry List.not_mem_nil
  below _ hjob := absurd hjob List.not_mem_nil

theorem Registered.retain {before after : Dispatcher} (h : Registered before)
    (hretains : Retains before after) : Registered after where
  outstanding := by
    intro entry hentry
    obtain ⟨job, hjob, htest, htoken⟩ := h.outstanding entry (hretains.outstanding hentry)
    rcases hretains.go job hjob with ⟨later, hlater, hsame⟩ | hunlisted
    · exact ⟨later, hlater, hsame.test.trans htest, hsame.token.trans htoken⟩
    · exact absurd htest (hunlisted.1 entry hentry)
  live := by
    intro entry hentry
    obtain ⟨job, hjob, hguard, htoken⟩ := h.live entry (hretains.live hentry)
    rcases hretains.go job hjob with ⟨later, hlater, hsame⟩ | hunlisted
    · exact ⟨later, hlater, hsame.guard.trans hguard, hsame.token.trans htoken⟩
    · exact absurd hguard (hunlisted.2 entry hentry)
  below := by
    intro job hjob guard hguard
    rcases hretains.come job hjob with ⟨earlier, hearlier, hsame⟩ | hnone
    · exact Nat.lt_of_lt_of_le (h.below earlier hearlier guard (hsame.guard.symm.trans hguard))
        hretains.next_le
    · rw [hnone] at hguard
      cases hguard

theorem Registered.admit {before after : Dispatcher} {admitted : Job Work}
    (h : Registered before) (hadmits : Admits before admitted after) : Registered after where
  outstanding := by
    intro entry hentry
    rcases hadmits.outstanding entry hentry with hentry | ⟨hnumber, htoken⟩
    · obtain ⟨job, hjob, htest, htoken⟩ := h.outstanding entry hentry
      exact ⟨job, (hadmits.jobs job).mpr (.inl hjob), htest, htoken⟩
    · refine ⟨admitted, (hadmits.jobs admitted).mpr (.inr rfl), ?_, htoken⟩
      rw [hadmits.test, hnumber]
  live := by
    intro entry hentry
    rcases hadmits.live entry hentry with hentry | ⟨hnumber, htoken⟩
    · obtain ⟨job, hjob, hguard, htoken⟩ := h.live entry hentry
      exact ⟨job, (hadmits.jobs job).mpr (.inl hjob), hguard, htoken⟩
    · refine ⟨admitted, (hadmits.jobs admitted).mpr (.inr rfl), ?_, htoken⟩
      rw [hadmits.guard, hnumber]
  below := by
    intro job hjob guard hguard
    rw [hadmits.next_eq]
    rcases (hadmits.jobs job).mp hjob with hjob | rfl
    · exact Nat.lt_succ_of_lt (h.below job hjob guard hguard)
    · rw [hadmits.guard] at hguard
      cases hguard
      exact Nat.lt_succ_self _

theorem Registered.act {dispatcher : Dispatcher} (h : Registered dispatcher) (action : Action) :
    Registered (dispatcher.act action) := by
  rcases dispatcher.act_cases action with hretains | ⟨admitted, hadmits⟩
  · exact h.retain hretains
  · exact h.admit hadmits

/-- The registries hold tokens of jobs in the pool and nothing else, behind
every run. -/
theorem Registered.actAll {dispatcher : Dispatcher} (h : Registered dispatcher)
    (actions : List Action) : Registered (dispatcher.actAll actions) :=
  actAll_preserves (fun _ action h => h.act action) h actions

/-- A guard of the pool has been given out, to a test. -/
structure Guards (dispatcher : Dispatcher) (id test : Nat) : Prop where
  lt : id < dispatcher.pool.live.next
  only : ∀ job ∈ dispatcher.pool.jobs, job.guard = some ⟨id⟩ → job.work.test? = some test

theorem Guards.act {dispatcher : Dispatcher} {id test : Nat} (h : Guards dispatcher id test)
    (action : Action) : Guards (dispatcher.act action) id test := by
  rcases dispatcher.act_cases action with hretains | ⟨admitted, hadmits⟩
  · refine ⟨Nat.lt_of_lt_of_le h.lt hretains.next_le, ?_⟩
    intro job hjob hguard
    rcases hretains.come job hjob with ⟨earlier, hearlier, hsame⟩ | hnone
    · exact hsame.test.trans (h.only earlier hearlier (hsame.guard.symm.trans hguard))
    · rw [hnone] at hguard
      cases hguard
  · refine ⟨by rw [hadmits.next_eq]; exact Nat.lt_succ_of_lt h.lt, ?_⟩
    intro job hjob hguard
    rcases (hadmits.jobs job).mp hjob with hjob | rfl
    · exact h.only job hjob hguard
    · rw [hadmits.guard] at hguard
      cases hguard
      exact absurd h.lt (Nat.lt_irrefl _)

theorem Guards.actAll {dispatcher : Dispatcher} {id test : Nat} (h : Guards dispatcher id test)
    (actions : List Action) : Guards (dispatcher.actAll actions) id test :=
  @actAll_preserves (fun after => Guards after id test) (fun _ action h => h.act action) _ h
    actions

/-- The next guard goes to the next test, also if the pool refuses it. -/
theorem Registered.guards_submitTest {dispatcher : Dispatcher} (h : Registered dispatcher)
    (kind : CommandKind) (command : Command) (executor : Executor) :
    Guards (dispatcher.submitTest kind command executor) dispatcher.pool.live.next
      dispatcher.outstanding.next := by
  have hfree : ∀ job ∈ dispatcher.pool.jobs, job.guard ≠ some ⟨dispatcher.pool.live.next⟩ :=
    fun job hjob hguard => Nat.lt_irrefl _ (h.below job hjob _ hguard)
  rcases dispatcher.submitTest_eq kind command executor with ⟨_, heq⟩ | ⟨_, heq⟩
  · rw [heq]
    refine ⟨Nat.lt_succ_self _, ?_⟩
    intro job hjob hguard
    rw [Pool.mem_jobs, List.mem_append, List.mem_singleton] at hjob
    rcases hjob with (hjob | rfl) | hjob
    · exact absurd hguard (hfree job (Pool.mem_jobs.mpr (.inl hjob)))
    · rfl
    · exact absurd hguard (hfree job (Pool.mem_jobs.mpr (.inr hjob)))
  · rw [heq]
    exact ⟨Nat.lt_succ_self _, fun job hjob hguard => absurd hguard (hfree job hjob)⟩

end Dispatcher

end TestRig
