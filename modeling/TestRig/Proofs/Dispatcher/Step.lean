import TestRig.Proofs.Dispatcher.History

/-!
# What one action of a dispatcher can do

`Advances` says everything about an action that the order of reports
depends on: what becomes of the cancelled tokens, of the current
generation, and of the tests in the pool, and which tests its entries
name.  It holds of every action (`act_advances`), and the invariants of
runs are read off it.

A test is in the pool (`Holds`) from the moment the pool takes it, while
it waits, while it runs, and while its response waits to be reported.
-/

namespace TestRig

open Json (Value)

/-- The number of a test; none if the clock is set. -/
def Work.test? : Work → Option Nat
  | .test run => some run.guard.id
  | .clock _ => none

namespace Dispatcher

/-- The pool holds a job that is a test with a number, under a token. -/
def Holds (dispatcher : Dispatcher) (test : Nat) (token : Option Token) : Prop :=
  ∃ job ∈ dispatcher.pool.jobs, job.work.test? = some test ∧ job.token = token

/-- What an action can do, with its entries. -/
structure Advances (before : Dispatcher) (told : List Entry) (after : Dispatcher) : Prop where
  /-- Cancelled tokens stay cancelled. -/
  cancelled : before.tokens.cancelled ⊆ after.tokens.cancelled
  /-- A generation that is replaced is cancelled. -/
  generation : after.generation = before.generation ∨
    before.generation.id ∈ after.tokens.cancelled
  /-- The numbers of tests are not given out again. -/
  next_le : before.outstanding.next ≤ after.outstanding.next
  /-- A test in the pool was there before, or was submitted just now under
  a token of the current generation. -/
  holds : ∀ {test token}, after.Holds test token →
    before.Holds test token ∨
      .submitted test true ∈ told ∧ after.generation = before.generation ∧
        ∃ child : Token, token = some child ∧ before.generation.id ∈ child.lineage
  /-- A test is submitted under the next number. -/
  submitted : ∀ {test accepted}, .submitted test accepted ∈ told →
    test = before.outstanding.next ∧ test < after.outstanding.next
  /-- A test that is reported was in the pool and not cancelled. -/
  reported : ∀ {test frame}, .reported test frame ∈ told →
    ∃ token, before.Holds test token ∧
      ∀ child, token = some child → before.tokens.isCancelled child = false

variable {before after : Dispatcher} {told : List Entry}

theorem Holds.of_subset (h : after.pool.jobs ⊆ before.pool.jobs) {test : Nat}
    {token : Option Token} (hholds : after.Holds test token) : before.Holds test token := by
  obtain ⟨job, hjob, htest, htoken⟩ := hholds
  exact ⟨job, h hjob, htest, htoken⟩

/-- An action that admits no test and keeps the generation. -/
theorem advances_of_kept (hcancelled : before.tokens.cancelled ⊆ after.tokens.cancelled)
    (hgeneration : after.generation = before.generation)
    (hnext : after.outstanding.next = before.outstanding.next)
    (hholds : ∀ {test token}, after.Holds test token → before.Holds test token)
    (hsubmitted : ∀ {test accepted}, .submitted test accepted ∉ told)
    (hreported : ∀ {test frame}, .reported test frame ∈ told →
      ∃ token, before.Holds test token ∧
        ∀ child, token = some child → before.tokens.isCancelled child = false) :
    Advances before told after where
  cancelled := hcancelled
  generation := Or.inl hgeneration
  next_le := Nat.le_of_eq hnext.symm
  holds h := Or.inl (hholds h)
  submitted h := absurd h hsubmitted
  reported := hreported

/-- An action that is not told about, and keeps the generation. -/
theorem advances_of_silent (hcancelled : before.tokens.cancelled ⊆ after.tokens.cancelled)
    (hgeneration : after.generation = before.generation)
    (hnext : after.outstanding.next = before.outstanding.next)
    (hholds : ∀ {test token}, after.Holds test token → before.Holds test token) :
    Advances before [] after :=
  advances_of_kept hcancelled hgeneration hnext hholds List.not_mem_nil
    fun h => absurd h List.not_mem_nil

theorem Advances.refl (dispatcher : Dispatcher) : Advances dispatcher [] dispatcher :=
  advances_of_silent (List.Subset.refl _) rfl rfl id

/-! ## The parts of an action -/

theorem mem_ackEntries {dispatcher : Dispatcher} {kind : CommandKind} {data : Value}
    {sequence : UInt16} {entry : Entry}
    (h : entry ∈ dispatcher.ackEntries kind data sequence) :
    ∃ frame, entry = .acked kind sequence frame := by
  rw [ackEntries, Option.mem_toList, Option.map_eq_some_iff] at h
  obtain ⟨frame, _, rfl⟩ := h
  exact ⟨frame, rfl⟩

theorem submitted_notMem_ackEntries {dispatcher : Dispatcher} {kind : CommandKind}
    {data : Value} {sequence : UInt16} {test : Nat} {accepted : Bool} :
    .submitted test accepted ∉ dispatcher.ackEntries kind data sequence := by
  intro h
  obtain ⟨frame, heq⟩ := mem_ackEntries h
  cases heq

theorem reported_notMem_ackEntries {dispatcher : Dispatcher} {kind : CommandKind}
    {data : Value} {sequence : UInt16} {test : Nat} {frame : Bytes} :
    .reported test frame ∉ dispatcher.ackEntries kind data sequence := by
  intro h
  obtain ⟨frame', heq⟩ := mem_ackEntries h
  cases heq

theorem ack_advances (dispatcher : Dispatcher) (kind : CommandKind) (data : Value)
    (sequence : UInt16) :
    Advances dispatcher (dispatcher.ackEntries kind data sequence)
      (dispatcher.ack kind data sequence) :=
  advances_of_kept (List.Subset.refl _) rfl rfl id submitted_notMem_ackEntries
    fun h => absurd h reported_notMem_ackEntries

/-- To set the clock is a job without a token, if it is a job at all. -/
theorem setClock_cases (dispatcher : Dispatcher) (payload : Value) :
    dispatcher.setClock payload = dispatcher ∨
      dispatcher.setClock payload = { dispatcher with
        pool := { dispatcher.pool with
          pending := dispatcher.pool.pending ++ [{ work := .clock payload }] } } := by
  unfold setClock
  split
  · exact Or.inl rfl
  · rcases dispatcher.pool.submit_cases (.clock payload) with ⟨_, heq⟩ | ⟨_, heq⟩
    · rw [heq]
      exact Or.inr rfl
    · rw [heq]
      exact Or.inl rfl

theorem holds_setClock (dispatcher : Dispatcher) (payload : Value) {test : Nat}
    {token : Option Token} (h : (dispatcher.setClock payload).Holds test token) :
    dispatcher.Holds test token := by
  rcases dispatcher.setClock_cases payload with heq | heq
  · rw [heq] at h
    exact h
  · rw [heq] at h
    obtain ⟨job, hjob, htest, htoken⟩ := h
    rw [Pool.mem_jobs, List.mem_append, List.mem_singleton] at hjob
    rcases hjob with (hjob | rfl) | hjob
    · exact ⟨job, Pool.mem_jobs.mpr (Or.inl hjob), htest, htoken⟩
    · cases htest
    · exact ⟨job, Pool.mem_jobs.mpr (Or.inr hjob), htest, htoken⟩

theorem setClock_kept (dispatcher : Dispatcher) (payload : Value) :
    (dispatcher.setClock payload).tokens = dispatcher.tokens ∧
      (dispatcher.setClock payload).generation = dispatcher.generation ∧
      (dispatcher.setClock payload).outstanding = dispatcher.outstanding := by
  rcases dispatcher.setClock_cases payload with heq | heq
  · rw [heq]
    exact ⟨rfl, rfl, rfl⟩
  · rw [heq]
    exact ⟨rfl, rfl, rfl⟩

theorem clock_advances (dispatcher : Dispatcher) (payload : Value) (sequence : UInt16) :
    Advances dispatcher (dispatcher.ackEntries .setSystemTime .null sequence)
      ((dispatcher.ack .setSystemTime .null sequence).setClock payload) := by
  obtain ⟨htokens, hgeneration, houtstanding⟩ :=
    (dispatcher.ack .setSystemTime .null sequence).setClock_kept payload
  refine advances_of_kept ?_ hgeneration (congrArg TokenSet.next houtstanding)
    (fun h => (dispatcher.ack .setSystemTime .null sequence).holds_setClock payload h)
    submitted_notMem_ackEntries
    fun h => absurd h reported_notMem_ackEntries
  rw [htokens]
  exact List.Subset.refl _

/-- The tokens that are cancelled with a generation include its own. -/
theorem cancelled_subset_cancelGeneration (dispatcher : Dispatcher) :
    (dispatcher.tokens.cancel dispatcher.generation).cancelled ⊆
      dispatcher.cancelGeneration.2.tokens.cancelled :=
  dispatcher.outstanding.cancelled_subset_cancelAll
    (dispatcher.tokens.cancel dispatcher.generation).root.2

/-- The generation is cancelled, and every test stays under the token that
it was submitted under. -/
theorem cancelGeneration_advances (dispatcher : Dispatcher) :
    Advances dispatcher [.superseded] dispatcher.cancelGeneration.2 := by
  have hkept := dispatcher.cancelled_subset_cancelGeneration
  exact {
    cancelled := List.Subset.trans (dispatcher.tokens.cancelled_subset_cancel _) hkept
    generation := Or.inr (hkept (dispatcher.tokens.mem_cancel dispatcher.generation))
    next_le := Nat.le_refl _
    holds := Or.inl
    submitted := fun h => by cases List.mem_singleton.mp h
    reported := fun h => by cases List.mem_singleton.mp h }

/-- A session-control command does what its cancellation does; the
acknowledgement comes behind it. -/
theorem control_advances (dispatcher : Dispatcher) (kind : CommandKind) (sequence : UInt16) :
    Advances dispatcher
      (.superseded :: dispatcher.ackEntries kind (dispatcher.sessionData kind) sequence)
      (dispatcher.controlSession kind sequence) := by
  have hcancel := dispatcher.cancelGeneration_advances
  exact {
    cancelled := hcancel.cancelled
    generation := hcancel.generation
    next_le := hcancel.next_le
    holds := Or.inl
    submitted := fun h => by
      rcases List.mem_cons.mp h with h | h
      · cases h
      · exact absurd h submitted_notMem_ackEntries
    reported := fun h => by
      rcases List.mem_cons.mp h with h | h
      · cases h
      · exact absurd h reported_notMem_ackEntries }

/-- The job that a test is submitted as. -/
def testJob (dispatcher : Dispatcher) (kind : CommandKind) (command : Command)
    (executor : Executor) : Job Work where
  work := .test { executor, kind, sequence := command.sequence, payload := command.payload
                  guard := ⟨dispatcher.outstanding.next⟩ }
  token := some (dispatcher.tokens.child dispatcher.generation).1
  guard := some ⟨dispatcher.pool.live.next⟩

/-- A test is submitted: either it waits behind the other jobs, in both
registries, or it leaves no trace but two numbers. -/
theorem submitTest_eq (dispatcher : Dispatcher) (kind : CommandKind) (command : Command)
    (executor : Executor) :
    dispatcher.pool.takesJob = true ∧
        dispatcher.submitTest kind command executor = { dispatcher with
          tokens := (dispatcher.tokens.child dispatcher.generation).2
          outstanding :=
            (dispatcher.outstanding.insert (dispatcher.tokens.child dispatcher.generation).1).2
          pool := { dispatcher.pool with
            live := (dispatcher.pool.live.insert
              (dispatcher.tokens.child dispatcher.generation).1).2
            pending := dispatcher.pool.pending ++
              [dispatcher.testJob kind command executor] } } ∨
      dispatcher.pool.takesJob = false ∧
        dispatcher.submitTest kind command executor = { dispatcher with
          tokens := (dispatcher.tokens.child dispatcher.generation).2
          outstanding :=
            (dispatcher.outstanding.insert (dispatcher.tokens.child dispatcher.generation).1).2.drop
              ⟨dispatcher.outstanding.next⟩
          pool := { dispatcher.pool with
            live := (dispatcher.pool.live.insert
              (dispatcher.tokens.child dispatcher.generation).1).2.drop
                ⟨dispatcher.pool.live.next⟩ } } := by
  unfold submitTest
  dsimp only
  rcases dispatcher.pool.submitWithToken_cases (dispatcher.tokens.child dispatcher.generation).1
      (.test { executor, kind, sequence := command.sequence, payload := command.payload
               guard := (dispatcher.outstanding.insert
                 (dispatcher.tokens.child dispatcher.generation).1).1 }) with
    ⟨htakes, heq⟩ | ⟨htakes, heq⟩
  · rw [heq]
    exact Or.inl ⟨htakes, rfl⟩
  · rw [heq]
    exact Or.inr ⟨htakes, rfl⟩

/-- The pool behind the submission of a test holds what it held before,
and the test if it took it. -/
theorem submitTest_cases (dispatcher : Dispatcher) (kind : CommandKind) (command : Command)
    (executor : Executor) {after : Dispatcher}
    (h : dispatcher.submitTest kind command executor = after) :
    after.tokens.cancelled = dispatcher.tokens.cancelled ∧
      after.generation = dispatcher.generation ∧
      after.outstanding.next = dispatcher.outstanding.next + 1 ∧
      ∀ job ∈ after.pool.jobs, job ∈ dispatcher.pool.jobs ∨
        dispatcher.pool.takesJob = true ∧
          job.work.test? = some dispatcher.outstanding.next ∧
          job.token = some (dispatcher.tokens.child dispatcher.generation).1 := by
  rcases dispatcher.submitTest_eq kind command executor with ⟨htakes, heq⟩ | ⟨_, heq⟩
  · rw [heq] at h
    subst h
    refine ⟨rfl, rfl, rfl, ?_⟩
    intro job hjob
    rw [Pool.mem_jobs, List.mem_append, List.mem_singleton] at hjob
    rcases hjob with (hjob | rfl) | hjob
    · exact Or.inl (Pool.mem_jobs.mpr (Or.inl hjob))
    · exact Or.inr ⟨htakes, rfl, rfl⟩
    · exact Or.inl (Pool.mem_jobs.mpr (Or.inr hjob))
  · rw [heq] at h
    subst h
    exact ⟨rfl, rfl, rfl, fun job hjob => Or.inl hjob⟩

theorem test_advances (dispatcher : Dispatcher) (kind : CommandKind) (command : Command)
    (executor : Executor) :
    Advances dispatcher
      (dispatcher.ackEntries kind .null command.sequence ++
        [.submitted dispatcher.outstanding.next dispatcher.pool.takesJob])
      ((dispatcher.ack kind .null command.sequence).submitTest kind command executor) := by
  obtain ⟨hcancelled, hgeneration, hnext, hjobs⟩ :=
    (dispatcher.ack kind .null command.sequence).submitTest_cases kind command executor rfl
  exact {
    cancelled := by
      rw [hcancelled]
      exact List.Subset.refl _
    generation := Or.inl hgeneration
    next_le := by
      rw [hnext]
      exact Nat.le_succ _
    holds := by
      rintro test token ⟨job, hjob, htest, htoken⟩
      rcases hjobs job hjob with hold | ⟨htakes, hnumber, hchild⟩
      · exact Or.inl ⟨job, hold, htest, htoken⟩
      · refine Or.inr ⟨?_, hgeneration, _, htoken.symm.trans hchild, ?_⟩
        · rw [htest] at hnumber
          cases hnumber
          refine List.mem_append_right _ ?_
          rw [show dispatcher.pool.takesJob = true from htakes]
          exact List.mem_singleton.mpr rfl
        · exact List.mem_cons_of_mem _ List.mem_cons_self
    submitted := fun h => by
      rcases List.mem_append.mp h with h | h
      · exact absurd h submitted_notMem_ackEntries
      · cases List.mem_singleton.mp h
        exact ⟨rfl, by rw [hnext]; exact Nat.lt_succ_self _⟩
    reported := fun h => by
      rcases List.mem_append.mp h with h | h
      · exact absurd h reported_notMem_ackEntries
      · cases List.mem_singleton.mp h }

theorem dispatch_advances (dispatcher : Dispatcher) (command : Command) :
    Advances dispatcher (dispatcher.dispatchEntries command) (dispatcher.dispatch command) := by
  have h := dispatch_cases dispatcher command
  generalize dispatcher.dispatchEntries command = told at h ⊢
  generalize dispatcher.dispatch command = after at h ⊢
  cases h with
  | dropped => exact Advances.refl dispatcher
  | clock => exact clock_advances dispatcher command.payload command.sequence
  | control kind => exact control_advances dispatcher kind command.sequence
  | test kind executor => exact test_advances dispatcher kind command executor

/-- A job that a worker takes is still the same test under the same
token. -/
theorem begin_kept (dispatcher : Dispatcher) (job : Job Work) :
    (dispatcher.begin job).work.test? = job.work.test? ∧
      (dispatcher.begin job).token = job.token := by
  unfold begin
  cases hwork : job.work with
  | test run => exact ⟨rfl, rfl⟩
  | clock payload => exact ⟨by rw [hwork], rfl⟩

/-- A worker takes the oldest waiting job, or nothing happens. -/
theorem startJob_cases (dispatcher : Dispatcher) :
    dispatcher.startJob?.getD dispatcher = dispatcher ∨
      ∃ oldest rest, dispatcher.pool.pending = oldest :: rest ∧
        dispatcher.startJob?.getD dispatcher = { dispatcher with
          pool := { dispatcher.pool with
            pending := rest
            running := dispatcher.pool.running ++ [dispatcher.begin oldest] } } := by
  unfold startJob?
  cases hstart : dispatcher.pool.start? dispatcher.begin with
  | none => exact Or.inl rfl
  | some pool =>
    obtain ⟨oldest, rest, hpending, _, rfl⟩ := Pool.start?_eq_some hstart
    exact Or.inr ⟨oldest, rest, hpending, rfl⟩

theorem startJob_advances (dispatcher : Dispatcher) :
    Advances dispatcher [] (dispatcher.startJob?.getD dispatcher) := by
  rcases dispatcher.startJob_cases with heq | ⟨oldest, rest, hpending, heq⟩
  · rw [heq]
    exact Advances.refl dispatcher
  · rw [heq]
    refine advances_of_silent (List.Subset.refl _) rfl rfl ?_
    rintro test token ⟨job, hjob, htest, htoken⟩
    have hbefore : ∀ earlier, earlier ∈ dispatcher.pool.jobs ↔
        earlier ∈ oldest :: rest ∨ earlier ∈ dispatcher.pool.running := by
      intro earlier
      rw [Pool.mem_jobs, hpending]
    rw [Pool.mem_jobs, List.mem_append, List.mem_singleton] at hjob
    rcases hjob with hjob | hjob | rfl
    · exact ⟨job, (hbefore job).mpr (Or.inl (List.mem_cons_of_mem _ hjob)), htest, htoken⟩
    · exact ⟨job, (hbefore job).mpr (Or.inr hjob), htest, htoken⟩
    · obtain ⟨hsame, hunder⟩ := dispatcher.begin_kept oldest
      exact ⟨oldest, (hbefore oldest).mpr (Or.inl List.mem_cons_self),
        hsame.symm.trans htest, hunder.symm.trans htoken⟩

/-- A change that is of no concern to the tests in the pool. -/
structure Kept (before after : Dispatcher) : Prop where
  pool : after.pool = before.pool
  tokens : after.tokens = before.tokens
  generation : after.generation = before.generation
  next : after.outstanding.next = before.outstanding.next

theorem Kept.refl (dispatcher : Dispatcher) : Kept dispatcher dispatcher :=
  ⟨rfl, rfl, rfl, rfl⟩

theorem Kept.trans {first second third : Dispatcher} (h : Kept first second)
    (h' : Kept second third) : Kept first third where
  pool := h'.pool.trans h.pool
  tokens := h'.tokens.trans h.tokens
  generation := h'.generation.trans h.generation
  next := h'.next.trans h.next

theorem forget_kept (dispatcher : Dispatcher) (job : Job Work) :
    Kept dispatcher (dispatcher.forget job) := by
  unfold forget
  cases job.work <;> exact ⟨rfl, rfl, rfl, rfl⟩

theorem foldl_forget_kept (jobs : List (Job Work)) (dispatcher : Dispatcher) :
    Kept dispatcher (jobs.foldl forget dispatcher) := by
  induction jobs generalizing dispatcher with
  | nil => exact Kept.refl dispatcher
  | cons job rest ih => exact (dispatcher.forget_kept job).trans (ih (dispatcher.forget job))

/-- The end of a job concerns the link, or the runs of the time hook. -/
theorem complete_eq (dispatcher : Dispatcher) (job : Job Work) :
    ∃ link hookRuns, dispatcher.complete job = { dispatcher with link, hookRuns } := by
  unfold complete sendReport
  split
  · split
    · exact ⟨_, _, rfl⟩
    · split_ifs <;> exact ⟨_, _, rfl⟩
  · exact ⟨_, _, rfl⟩

theorem complete_kept (dispatcher : Dispatcher) (job : Job Work) :
    Kept dispatcher (dispatcher.complete job) := by
  obtain ⟨link, hookRuns, heq⟩ := dispatcher.complete_eq job
  rw [heq]
  exact ⟨rfl, rfl, rfl, rfl⟩

/-- The entry of a report names a running test that was not cancelled when
it ended. -/
theorem mem_reportEntries {dispatcher : Dispatcher} {job : Job Work} {run : TestRun}
    {entry : Entry} (h : entry ∈ dispatcher.reportEntries job run) :
    dispatcher.jobCancelled job = false ∧ ∃ frame, entry = .reported run.guard.id frame := by
  unfold reportEntries at h
  cases hresponse : TestRun.response? run with
  | none =>
    rw [hresponse] at h
    exact absurd h List.not_mem_nil
  | some response =>
    rw [hresponse] at h
    dsimp only at h
    split_ifs at h with hcancelled
    · exact absurd h List.not_mem_nil
    · rw [Option.mem_toList, Option.map_eq_some_iff] at h
      obtain ⟨frame, _, rfl⟩ := h
      exact ⟨Bool.not_eq_true _ ▸ hcancelled, frame, rfl⟩

theorem isCancelled_of_jobCancelled {dispatcher : Dispatcher} {job : Job Work}
    (h : dispatcher.jobCancelled job = false) {token : Token} (htoken : job.token = some token) :
    dispatcher.tokens.isCancelled token = false := by
  unfold jobCancelled at h
  rw [htoken] at h
  exact h

theorem mem_finishEntries {dispatcher : Dispatcher} {index : Nat} {entry : Entry}
    (h : entry ∈ dispatcher.finishEntries index) :
    ∃ job ∈ dispatcher.pool.jobs, ∃ run frame,
      job.work = .test run ∧ dispatcher.jobCancelled job = false ∧
        entry = .reported run.guard.id frame := by
  unfold finishEntries at h
  cases hjob : dispatcher.pool.running[index]? with
  | none =>
    rw [hjob] at h
    exact absurd h List.not_mem_nil
  | some job =>
    rw [hjob] at h
    dsimp only at h
    cases hwork : job.work with
    | clock payload =>
      rw [hwork] at h
      exact absurd h List.not_mem_nil
    | test run =>
      rw [hwork] at h
      obtain ⟨hcancelled, frame, heq⟩ := mem_reportEntries h
      have hmem : job ∈ dispatcher.pool.jobs :=
        Pool.mem_jobs.mpr (Or.inr (List.mem_of_getElem? hjob))
      exact ⟨job, hmem, run, frame, hwork, hcancelled, heq⟩

theorem finishJob_eq {dispatcher : Dispatcher} {index : Nat} {job : Job Work}
    (h : dispatcher.pool.running[index]? = some job) :
    dispatcher.finishJob index =
      { (dispatcher.complete job).forget job with pool := dispatcher.pool.finish index } := by
  have hkept := (dispatcher.complete_kept job).trans ((dispatcher.complete job).forget_kept job)
  unfold finishJob
  rw [h]
  dsimp only
  rw [hkept.pool]

theorem finishJob_cases (dispatcher : Dispatcher) (index : Nat) :
    (dispatcher.finishJob index).pool.jobs ⊆ dispatcher.pool.jobs ∧
      (dispatcher.finishJob index).tokens = dispatcher.tokens ∧
      (dispatcher.finishJob index).generation = dispatcher.generation ∧
      (dispatcher.finishJob index).outstanding.next = dispatcher.outstanding.next := by
  cases hjob : dispatcher.pool.running[index]? with
  | none =>
    unfold finishJob
    rw [hjob]
    exact ⟨List.Subset.refl _, rfl, rfl, rfl⟩
  | some job =>
    have hkept := (dispatcher.complete_kept job).trans ((dispatcher.complete job).forget_kept job)
    rw [finishJob_eq hjob]
    exact ⟨dispatcher.pool.jobs_finish_subset index, hkept.tokens, hkept.generation, hkept.next⟩

theorem finishJob_advances (dispatcher : Dispatcher) (index : Nat) :
    Advances dispatcher (dispatcher.finishEntries index) (dispatcher.finishJob index) := by
  obtain ⟨hjobs, htokens, hgeneration, hnext⟩ := dispatcher.finishJob_cases index
  refine advances_of_kept ?_ hgeneration hnext (Holds.of_subset hjobs) ?_ ?_
  · rw [htokens]
    exact List.Subset.refl _
  · intro test accepted h
    obtain ⟨job, _, run, frame, _, _, heq⟩ := mem_finishEntries h
    cases heq
  · intro test frame h
    obtain ⟨job, hjob, run, frame', hwork, hcancelled, heq⟩ := mem_finishEntries h
    cases heq
    refine ⟨job.token, ⟨job, hjob, by rw [hwork]; rfl, rfl⟩, ?_⟩
    intro child hchild
    exact isCancelled_of_jobCancelled hcancelled hchild

theorem shutdownPool_advances (dispatcher : Dispatcher) :
    Advances dispatcher [] dispatcher.shutdownPool := by
  have hkept : Kept _ dispatcher.shutdownPool := foldl_forget_kept _ _
  refine advances_of_silent ?_ hkept.generation hkept.next (Holds.of_subset ?_)
  · rw [hkept.tokens]
    exact dispatcher.pool.cancelled_subset_shutdown dispatcher.tokens
  · rw [hkept.pool]
    exact List.subset_append_right _ _

/-! ## Every action -/

/-- Every action advances the dispatcher. -/
theorem act_advances (dispatcher : Dispatcher) (action : Action) :
    Advances dispatcher (dispatcher.entries action) (dispatcher.act action) := by
  cases action with
  | dispatch command => exact dispatch_advances dispatcher command
  | acknowledge kind data sequence => exact ack_advances dispatcher kind data sequence
  | cancelGeneration => exact cancelGeneration_advances dispatcher
  | startJob => exact startJob_advances dispatcher
  | finishJob index => exact finishJob_advances dispatcher index
  | shutdownPool => exact shutdownPool_advances dispatcher
  | drain =>
    refine advances_of_kept (List.Subset.refl _) rfl rfl id ?_ ?_ <;>
      exact fun h => by cases List.mem_singleton.mp h
  | close =>
    refine advances_of_kept (List.Subset.refl _) rfl rfl id ?_ ?_ <;>
      exact fun h => by cases List.mem_singleton.mp h

end Dispatcher

end TestRig
