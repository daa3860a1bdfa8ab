import TestRig.Proofs.Dispatcher.Places

/-!
# Calls of executors and superseded tests

The executor of a test is called where a worker takes the test, and is told
there whether the test has been cancelled.  Superseding a generation
cancels its tests and leaves the waiting ones in the pool, so that their
executors are still called, and are told.

* `callsAt` is the call that an action makes, and `calls` those of a run.
  `Logged` ties them to the program: whatever the executor of a test has
  done, it did in one of these calls.
* `waiting_act` says what an action does to the jobs of one test that wait:
  they stay, one is taken and its executor called, or the pool is shut
  down.
* `Fate` lists what becomes of a cancelled test that waits, and
  `fate_of_waiting` finds one of these behind every run.
-/

namespace TestRig.Dispatcher

/-! ## Calls -/

/-- A call of the executor of a test. -/
structure Call where
  run : TestRun
  /-- The test was cancelled when the call began. -/
  cancelled : Bool

/-- The number of the test that the executor is called for. -/
def Call.test (call : Call) : Nat :=
  call.run.guard.id

/-- What the executor does in a call. -/
def Call.activity (call : Call) : Activity :=
  call.run.executor ⟨call.run.kind, call.run.sequence, call.cancelled⟩ call.run.payload

/-- The call that is made for a job that a worker takes; none if the clock is
set. -/
def callOf? (dispatcher : Dispatcher) (job : Job Work) : Option Call :=
  match job.work with
  | .test run => some ⟨run, dispatcher.jobCancelled job⟩
  | .clock _ => none

/-- The calls that an action makes. -/
def callsAt (dispatcher : Dispatcher) : Action → List Call
  | .startJob =>
    if dispatcher.pool.running.length < dispatcher.pool.size then
      (dispatcher.pool.pending.head?.bind dispatcher.callOf?).toList
    else []
  | _ => []

/-- The calls of a run, earliest first. -/
def calls (dispatcher : Dispatcher) : List Action → List Call
  | [] => []
  | action :: rest => dispatcher.callsAt action ++ (dispatcher.act action).calls rest

theorem calls_append (dispatcher : Dispatcher) (first second : List Action) :
    dispatcher.calls (first ++ second) =
      dispatcher.calls first ++ (dispatcher.actAll first).calls second := by
  induction first generalizing dispatcher with
  | nil => rfl
  | cons action rest ih =>
    rw [List.cons_append, calls, calls, ih, List.append_assoc]
    rfl

/-- The calls of the executor of one test. -/
def callsOf (test : Nat) (told : List Call) : List Call :=
  told.filter fun call => call.test == test

@[simp] theorem callsOf_append (test : Nat) (first second : List Call) :
    callsOf test (first ++ second) = callsOf test first ++ callsOf test second :=
  List.filter_append ..

variable {dispatcher : Dispatcher} {test : Nat}

/-- A worker takes the oldest waiting job and calls its executor, or none is
free and nothing happens. -/
theorem startJob_calls (dispatcher : Dispatcher) :
    dispatcher.startJob?.getD dispatcher = dispatcher ∧ dispatcher.callsAt .startJob = [] ∨
      ∃ oldest rest, dispatcher.pool.pending = oldest :: rest ∧
        dispatcher.startJob?.getD dispatcher = { dispatcher with
          pool := { dispatcher.pool with
            pending := rest
            running := dispatcher.pool.running ++
              [begun (dispatcher.jobCancelled oldest) oldest] } } ∧
        dispatcher.callsAt .startJob = (dispatcher.callOf? oldest).toList := by
  unfold startJob? callsAt Pool.start?
  cases dispatcher.pool.pending with
  | nil =>
    refine .inl ⟨rfl, ?_⟩
    split_ifs <;> rfl
  | cons oldest rest =>
    by_cases hfree : dispatcher.pool.running.length < dispatcher.pool.size
    · exact .inr ⟨oldest, rest, rfl, by simp [hfree, begin_eq], by simp [hfree]⟩
    · exact .inl ⟨by simp [hfree], by simp [hfree]⟩

/-- The executor that is called is that of the job. -/
theorem callsOf_callOf? (dispatcher : Dispatcher) (test : Nat) (job : Job Work) :
    isTest test job = false ∧ callsOf test (dispatcher.callOf? job).toList = [] ∨
      isTest test job = true ∧ ∃ call, dispatcher.callOf? job = some call ∧
        call.cancelled = dispatcher.jobCancelled job ∧
        callsOf test (dispatcher.callOf? job).toList = [call] := by
  unfold callOf? isTest
  cases job.work with
  | clock payload => exact .inl ⟨rfl, rfl⟩
  | test run =>
    by_cases htest : run.guard.id = test
    · refine .inr ⟨?_, _, rfl, rfl, ?_⟩ <;> simp [Work.test?, callsOf, Call.test, htest]
    · refine .inl ⟨?_, ?_⟩ <;> simp [Work.test?, callsOf, Call.test, htest]

/-! ## What the calls account for -/

/-- The executor of a test has done nothing while the test waits, and what
the executor of a running test does, it does in one of the calls. -/
structure Logged (told : List Call) (dispatcher : Dispatcher) : Prop where
  pending : ∀ job ∈ dispatcher.pool.pending, ∀ run, job.work = .test run → run.activity = none
  running : ∀ job ∈ dispatcher.pool.running, ∀ run, job.work = .test run →
    ∃ call ∈ told, run = { call.run with activity := some call.activity }

theorem logged_fresh (config : Config) (workers jobCapacity : Nat) (registry : Registry)
    (timeHook : Option TimeHook) :
    Logged [] (fresh config workers jobCapacity registry timeHook) where
  pending _ hjob := absurd hjob List.not_mem_nil
  running _ hjob := absurd hjob List.not_mem_nil

/-- Jobs that have not begun may come, and jobs may go. -/
theorem Logged.of_subset {before after : Dispatcher} {told : List Call} (h : Logged told before)
    (hpending : ∀ job ∈ after.pool.pending, job ∈ before.pool.pending ∨
      ∀ run, job.work = .test run → run.activity = none)
    (hrunning : after.pool.running ⊆ before.pool.running) : Logged told after where
  pending := by
    intro job hjob run hwork
    rcases hpending job hjob with hbefore | hnew
    · exact h.pending job hbefore run hwork
    · exact hnew run hwork
  running job hjob := h.running job (hrunning hjob)

/-- A job that has not begun is put behind the waiting ones. -/
theorem Logged.enqueue {before after : Dispatcher} {told : List Call} (h : Logged told before)
    {job : Job Work} (hpending : after.pool.pending = before.pool.pending ++ [job])
    (hnew : ∀ run, job.work = .test run → run.activity = none)
    (hrunning : after.pool.running = before.pool.running) : Logged told after := by
  refine h.of_subset ?_ ?_
  · intro other hother
    rw [hpending, List.mem_append, List.mem_singleton] at hother
    refine hother.imp_right ?_
    rintro rfl
    exact hnew
  · rw [hrunning]
    exact List.Subset.refl _

theorem Logged.dispatch {told : List Call} (h : Logged told dispatcher) (command : Command) :
    Logged told (dispatcher.dispatch command) := by
  have hdispatched := dispatcher.dispatch_cases command
  generalize dispatcher.dispatchEntries command = entries at hdispatched
  generalize dispatcher.dispatch command = after at hdispatched ⊢
  cases hdispatched with
  | dropped => exact h
  | control kind => exact h.of_subset (fun job hjob => .inl hjob) (List.Subset.refl _)
  | clock =>
    rcases (dispatcher.ack .setSystemTime .null command.sequence).setClock_cases
      command.payload with heq | heq
    · rw [heq]
      exact h.of_subset (fun job hjob => .inl hjob) (List.Subset.refl _)
    · rw [heq]
      exact h.enqueue rfl (fun run hwork => by cases hwork) rfl
  | test kind executor =>
    rcases (dispatcher.ack kind .null command.sequence).submitTest_eq kind command executor with
      ⟨_, heq⟩ | ⟨_, heq⟩
    · rw [heq]
      exact h.enqueue rfl (fun run hwork => by cases hwork; rfl) rfl
    · rw [heq]
      exact h.of_subset (fun job hjob => .inl hjob) (List.Subset.refl _)

theorem Logged.startJob {told : List Call} (h : Logged told dispatcher) :
    Logged (told ++ dispatcher.callsAt .startJob) (dispatcher.startJob?.getD dispatcher) := by
  rcases dispatcher.startJob_calls with ⟨heq, hnone⟩ | ⟨oldest, rest, hpending, heq, hcalls⟩
  · rw [heq, hnone, List.append_nil]
    exact h
  · rw [heq, hcalls]
    refine ⟨?_, ?_⟩
    · intro job hjob
      refine h.pending job ?_
      rw [hpending]
      exact List.mem_cons_of_mem _ hjob
    · intro job hjob run hwork
      rcases List.mem_append.mp hjob with hjob | hjob
      · obtain ⟨call, hcall, heq⟩ := h.running job hjob run hwork
        exact ⟨call, List.mem_append_left _ hcall, heq⟩
      · rw [List.mem_singleton.mp hjob] at hwork
        unfold begun at hwork
        unfold callOf?
        cases holdest : oldest.work with
        | clock payload =>
          rw [holdest] at hwork
          dsimp only at hwork
          rw [holdest] at hwork
          cases hwork
        | test waited =>
          rw [holdest] at hwork
          cases hwork
          exact ⟨_, List.mem_append_right _ (List.mem_singleton.mpr rfl), rfl⟩

theorem Logged.finishJob {told : List Call} (h : Logged told dispatcher) (index : Nat) :
    Logged told (dispatcher.finishJob index) := by
  cases hended : dispatcher.pool.running[index]? with
  | none =>
    unfold Dispatcher.finishJob
    rw [hended]
    exact h
  | some ended =>
    obtain ⟨hpending, hrunning, _⟩ := pool_finishJob hended
    refine h.of_subset ?_ ?_
    · rw [hpending]
      exact fun job hjob => .inl hjob
    · rw [hrunning]
      exact fun job hjob => List.mem_of_mem_eraseIdx hjob

theorem Logged.shutdownPool {told : List Call} (h : Logged told dispatcher) :
    Logged told dispatcher.shutdownPool := by
  have hkept : Kept _ dispatcher.shutdownPool := foldl_forget_kept _ _
  refine h.of_subset ?_ ?_
  · rw [hkept.pool]
    exact fun job hjob => absurd hjob List.not_mem_nil
  · rw [hkept.pool]
    exact List.Subset.refl _

theorem Logged.act {told : List Call} (h : Logged told dispatcher) (action : Action) :
    Logged (told ++ dispatcher.callsAt action) (dispatcher.act action) := by
  have hnone : told ++ [] = told := List.append_nil told
  cases action with
  | startJob => exact h.startJob
  | dispatch command => exact hnone.symm ▸ h.dispatch command
  | finishJob index => exact hnone.symm ▸ h.finishJob index
  | shutdownPool => exact hnone.symm ▸ h.shutdownPool
  | acknowledge | cancelGeneration | drain | close =>
    exact hnone.symm ▸ h.of_subset (fun job hjob => .inl hjob) (List.Subset.refl _)

/-- The calls of a run account for what the executors in the pool do. -/
theorem Logged.actAll {told : List Call} (h : Logged told dispatcher) (actions : List Action) :
    Logged (told ++ dispatcher.calls actions) (dispatcher.actAll actions) := by
  induction actions generalizing told dispatcher with
  | nil =>
    rw [calls, List.append_nil]
    exact h
  | cons action rest ih =>
    rw [calls, ← List.append_assoc]
    exact ih (h.act action)

/-! ## A test that waits -/

/-- The jobs of a test that wait. -/
def waiting (dispatcher : Dispatcher) (test : Nat) : List (Job Work) :=
  dispatcher.pool.pending.filter (isTest test)

/-- A test waits once at most. -/
theorem Placed.waiting_cases (h : Placed dispatcher) (test : Nat) :
    dispatcher.waiting test = [] ∨ ∃ job, dispatcher.waiting test = [job] := by
  obtain ⟨job, hwhere⟩ := h.whereabouts test
  cases hwhere with
  | waiting hpending => exact .inr ⟨job, hpending⟩
  | running _ hpending => exact .inl hpending
  | gone hgone => exact .inl hgone.pending

/-- An executor is called for a job that waits. -/
theorem callsOf_callsAt_eq_nil (h : dispatcher.waiting test = []) (action : Action) :
    callsOf test (dispatcher.callsAt action) = [] := by
  cases action with
  | startJob =>
    rcases dispatcher.startJob_calls with ⟨_, hnone⟩ | ⟨oldest, rest, hpending, _, hcalls⟩
    · rw [hnone]
      rfl
    · rcases dispatcher.callsOf_callOf? test oldest with ⟨_, hother⟩ | ⟨htest, _⟩
      · rw [hcalls, hother]
      · rw [waiting, hpending, List.filter_cons_of_pos htest] at h
        cases h
  | _ => rfl

theorem waiting_dispatch (hlt : test < dispatcher.outstanding.next) (command : Command) :
    (dispatcher.dispatch command).waiting test = dispatcher.waiting test := by
  have hdispatched := dispatcher.dispatch_cases command
  generalize dispatcher.dispatchEntries command = entries at hdispatched
  generalize dispatcher.dispatch command = after at hdispatched ⊢
  cases hdispatched with
  | dropped | control => rfl
  | clock => exact (filter_setClock _ command.payload).1
  | test kind executor =>
    exact (@filter_submitTest test (dispatcher.ack kind .null command.sequence) hlt kind command
      executor).1

/-- What an action does to the jobs of a test that wait, and the call that
it makes for the test. -/
theorem waiting_act (hlt : test < dispatcher.outstanding.next) (action : Action) :
    (dispatcher.act action).waiting test = dispatcher.waiting test ∧
        callsOf test (dispatcher.callsAt action) = [] ∨
      (∃ job call, dispatcher.waiting test = job :: (dispatcher.act action).waiting test ∧
        call.cancelled = dispatcher.jobCancelled job ∧
        callsOf test (dispatcher.callsAt action) = [call]) ∨
      action = .shutdownPool ∧ (dispatcher.act action).waiting test = [] ∧
        callsOf test (dispatcher.callsAt action) = [] := by
  cases action with
  | dispatch command => exact .inl ⟨waiting_dispatch hlt command, rfl⟩
  | acknowledge | cancelGeneration | drain | close => exact .inl ⟨rfl, rfl⟩
  | startJob =>
    rw [act]
    rcases dispatcher.startJob_calls with ⟨heq, hnone⟩ | ⟨oldest, rest, hpending, heq, hcalls⟩
    · exact .inl ⟨by rw [heq], by rw [hnone]; rfl⟩
    · rw [heq, hcalls]
      unfold waiting
      rw [hpending]
      rcases dispatcher.callsOf_callOf? test oldest with
        ⟨htest, hother⟩ | ⟨htest, call, _, hcancelled, hcall⟩
      · refine .inl ⟨?_, hother⟩
        rw [List.filter_cons_of_neg (Bool.eq_false_iff.mp htest)]
      · refine .inr (.inl ⟨oldest, call, ?_, hcancelled, hcall⟩)
        rw [List.filter_cons_of_pos htest]
  | finishJob index =>
    refine .inl ⟨?_, rfl⟩
    rw [act, waiting, waiting]
    cases hended : dispatcher.pool.running[index]? with
    | none =>
      unfold finishJob
      rw [hended]
    | some ended => rw [(pool_finishJob hended).1]
  | shutdownPool =>
    have hkept : Kept _ dispatcher.shutdownPool := foldl_forget_kept _ _
    refine .inr (.inr ⟨rfl, ?_, rfl⟩)
    rw [act, waiting, hkept.pool]
    rfl

/-- A test that does not wait any more is not called any more. -/
theorem calls_of_not_waiting (h : dispatcher.waiting test = [])
    (hlt : test < dispatcher.outstanding.next) (actions : List Action) :
    (dispatcher.actAll actions).waiting test = [] ∧
      callsOf test (dispatcher.calls actions) = [] := by
  induction actions generalizing dispatcher with
  | nil => exact ⟨h, rfl⟩
  | cons action rest ih =>
    have hnone : (dispatcher.act action).waiting test = [] := by
      rcases waiting_act hlt action with ⟨hkept, _⟩ | ⟨job, call, htaken, _⟩ | ⟨_, hempty, _⟩
      · exact hkept.trans h
      · rw [h] at htaken
        cases htaken
      · exact hempty
    obtain ⟨hrest, hcalls⟩ :=
      ih hnone (Nat.lt_of_lt_of_le hlt (dispatcher.act_advances action).next_le)
    refine ⟨hrest, ?_⟩
    rw [calls, callsOf_append, callsOf_callsAt_eq_nil h, hcalls, List.append_nil]

/-- The executor of a test is called once at most, in every run, and the
test does not wait behind that. -/
theorem Placed.callsOf_cases (h : Placed dispatcher) (test : Nat) (actions : List Action) :
    callsOf test (dispatcher.calls actions) = [] ∨
      ∃ call, callsOf test (dispatcher.calls actions) = [call] ∧
        (dispatcher.actAll actions).waiting test = [] := by
  induction actions generalizing dispatcher with
  | nil => exact .inl rfl
  | cons action rest ih =>
    rw [calls, callsOf_append]
    by_cases hlt : test < dispatcher.outstanding.next
    · rcases waiting_act hlt action with ⟨_, hnone⟩ | ⟨job, call, htaken, _, hcall⟩ | ⟨_, _, hnone⟩
      · rw [hnone]
        exact ih (h.act action)
      · -- It was the only job of the test that waited.
        have hlast : (dispatcher.act action).waiting test = [] := by
          rcases h.waiting_cases test with hempty | ⟨only, honly⟩
          · rw [hempty] at htaken
            cases htaken
          · rw [honly] at htaken
            exact (List.cons.inj htaken).2.symm
        obtain ⟨hwaits, hrest⟩ := calls_of_not_waiting hlast
          (Nat.lt_of_lt_of_le hlt (dispatcher.act_advances action).next_le) rest
        rw [hcall, hrest]
        exact .inr ⟨call, rfl, hwaits⟩
      · rw [hnone]
        exact ih (h.act action)
    · have hnone : dispatcher.waiting test = [] := by
        refine List.filter_eq_nil_iff.mpr ?_
        intro job hjob htest
        exact hlt (h.numbered test job.token
          ⟨job, Pool.mem_jobs.mpr (.inl hjob), beq_iff_eq.mp htest, rfl⟩)
      rw [callsOf_callsAt_eq_nil hnone]
      exact ih (h.act action)

/-! ## The fate of a cancelled test -/

/-- What becomes of a cancelled test that waits. -/
inductive Fate (dispatcher : Dispatcher) (test : Nat) (actions : List Action) : Prop where
  /-- No worker has taken it yet. -/
  | waits (hwaits : (dispatcher.actAll actions).waiting test ≠ [])
      (hcalls : callsOf test (dispatcher.calls actions) = [])
  /-- A worker takes it; its executor is called and told that it is
  cancelled. -/
  | called (call : Call) (hcalls : callsOf test (dispatcher.calls actions) = [call])
      (hcancelled : call.cancelled = true)
  /-- The pool is shut down before a worker takes it. -/
  | discarded (hshutdown : .shutdownPool ∈ actions)
      (hwaits : (dispatcher.actAll actions).waiting test = [])
      (hcalls : callsOf test (dispatcher.calls actions) = [])

theorem fate_of_waiting {job : Job Work} (h : dispatcher.waiting test = [job])
    (hcancelled : dispatcher.jobCancelled job = true) (hlt : test < dispatcher.outstanding.next)
    (actions : List Action) : Fate dispatcher test actions := by
  induction actions generalizing dispatcher with
  | nil => exact .waits (by rw [actAll, List.foldl_nil, h]; exact List.cons_ne_nil _ _) rfl
  | cons action rest ih =>
    have hact := dispatcher.act_advances action
    have hnext := Nat.lt_of_lt_of_le hlt hact.next_le
    have hcalls : callsOf test (dispatcher.calls (action :: rest)) =
        callsOf test (dispatcher.callsAt action) ++
          callsOf test ((dispatcher.act action).calls rest) := by
      rw [calls, callsOf_append]
    rcases waiting_act hlt action with
      ⟨hkept, hnone⟩ | ⟨taken, call, htaken, htold, hcall⟩ | ⟨hshutdown, hempty, hnone⟩
    · rw [hnone, List.nil_append] at hcalls
      cases ih (hkept.trans h) (jobCancelled_mono hact.cancelled hcancelled) hnext with
      | waits hwaits hlater => exact .waits hwaits (hcalls.trans hlater)
      | called call hlater htold => exact .called call (hcalls.trans hlater) htold
      | discarded hshutdown hwaits hlater =>
        exact .discarded (List.mem_cons_of_mem _ hshutdown) hwaits (hcalls.trans hlater)
    · rw [h] at htaken
      obtain ⟨rfl, hlast⟩ := List.cons.inj htaken
      rw [hcall, (calls_of_not_waiting hlast.symm hnext rest).2, List.append_nil] at hcalls
      exact .called call hcalls (htold.trans hcancelled)
    · obtain ⟨hwaits, hlater⟩ := calls_of_not_waiting hempty hnext rest
      rw [hnone, hlater, List.append_nil] at hcalls
      exact .discarded (by rw [hshutdown]; exact List.mem_cons_self) hwaits hcalls

/-- The executor of a cancelled test is told so. -/
theorem Fate.cancelled {actions : List Action} (h : Fate dispatcher test actions) {call : Call}
    (hcall : call ∈ callsOf test (dispatcher.calls actions)) : call.cancelled = true := by
  cases h with
  | waits _ hnone | discarded _ _ hnone =>
    rw [hnone] at hcall
    exact absurd hcall List.not_mem_nil
  | called only honly hcancelled =>
    rw [honly] at hcall
    rw [List.mem_singleton.mp hcall]
    exact hcancelled

/-! ## Superseded generations -/

theorem Renewed.actAll {told : List Entry} (h : Renewed told dispatcher)
    (actions : List Action) :
    Renewed (told ++ dispatcher.history actions) (dispatcher.actAll actions) :=
  history_preserves (fun _ _ action h => h.act action) h actions

/-- Where every test is cancelled or was submitted since, one that was not
is cancelled. -/
theorem Renewed.jobCancelled {told : List Entry} (h : Renewed told dispatcher)
    (hnew : .submitted test true ∉ told) {job : Job Work} (hjob : job ∈ dispatcher.pool.jobs)
    (htest : isTest test job = true) : dispatcher.jobCancelled job = true := by
  rcases h test job.token ⟨job, hjob, beq_iff_eq.mp htest, rfl⟩ with
    ⟨child, htoken, hcancelled⟩ | hsubmitted
  · rw [Dispatcher.jobCancelled, htoken]
    exact hcancelled
  · exact absurd hsubmitted hnew

theorem callsAt_of_supersedes {action : Action} (h : action.supersedes = true) :
    dispatcher.callsAt action = [] := by
  cases action with
  | startJob => cases h
  | _ => rfl

/-- The executor of a superseded test is called afterwards only if the test
was waiting, and is told that it is cancelled.

Take any run from a fresh dispatcher, and in it a session-control command
or a cancellation from outside.  A test that was submitted before is
cancelled in the pool from then on, whether it waits or runs, and is not
reported.  Its executor is called behind that point only if the test was
still waiting there, once at most, and is then told that the test is
cancelled.  A test that was waiting does not end by being superseded: it
goes on to wait until a worker calls its executor, or until the pool is
shut down.  The last part ties the calls to what the executors in the pool
have done. -/
theorem called_of_superseded (config : Config) (workers jobCapacity : Nat)
    (registry : Registry) (timeHook : Option TimeHook) (earlier later : List Action)
    (action : Action) (haction : action.supersedes = true) :
    let start := fresh config workers jobCapacity registry timeHook
    let reached := start.actAll earlier
    let behind := reached.act action
    let run := earlier ++ action :: later
    (∀ test accepted, .submitted test accepted ∈ start.history earlier →
      (callsOf test (behind.calls later) ≠ [] → reached.waiting test ≠ []) ∧
      (reached.waiting test ≠ [] →
        callsOf test (start.calls earlier) = [] ∧ Fate behind test later) ∧
      (∀ call ∈ callsOf test (behind.calls later), call.cancelled = true) ∧
      (callsOf test (start.calls run)).length ≤ 1 ∧
      (∀ job ∈ (start.actAll run).pool.jobs, isTest test job = true →
        (start.actAll run).jobCancelled job = true) ∧
      reportsOf test (behind.history later) = []) ∧
    start.calls run = start.calls earlier ++ behind.calls later ∧
    Logged (start.calls run) (start.actAll run) := by
  intro start reached behind run
  have hplaced : Placed start := placed_fresh config workers jobCapacity registry timeHook
  have hrun : start.actAll run = behind.actAll later := List.foldl_append
  have hcalls : start.calls run = start.calls earlier ++ behind.calls later := by
    rw [calls_append, calls, callsAt_of_supersedes haction, List.nil_append]
  have hrenewed : Renewed [] behind :=
    ((orderly_fresh config workers jobCapacity registry timeHook).actAll earlier).renewed haction
  have hpool : behind.pool = reached.pool := (reached.act_of_supersedes haction).2.1
  refine ⟨?_, hcalls, (logged_fresh config workers jobCapacity registry timeHook).actAll run⟩
  intro test accepted hsubmitted
  have hlt : test < behind.outstanding.next :=
    Nat.lt_of_lt_of_le (submitted_bounds hsubmitted).2 (reached.act_advances action).next_le
  have hnew : ∀ accepted, .submitted test accepted ∉ behind.history later := by
    intro accepted hagain
    exact Nat.lt_irrefl test (Nat.lt_of_lt_of_le hlt (submitted_bounds hagain).1)
  have hsame : behind.waiting test = reached.waiting test := by
    rw [waiting, waiting, hpool]
  have hlate : callsOf test (behind.calls later) ≠ [] → reached.waiting test ≠ [] := by
    intro hcalled hnone
    exact hcalled (calls_of_not_waiting (hsame.trans hnone) hlt later).2
  have hfate : reached.waiting test ≠ [] → Fate behind test later := by
    intro hwaits
    rcases (hplaced.actAll earlier).waiting_cases test with hnone | ⟨job, honly⟩
    · exact absurd hnone hwaits
    · have hjob : job ∈ behind.waiting test := by
        rw [hsame, honly]
        exact List.mem_singleton.mpr rfl
      obtain ⟨hpending, htest⟩ := List.mem_filter.mp hjob
      have hcancelled := hrenewed.jobCancelled List.not_mem_nil
        (Pool.mem_jobs.mpr (.inl hpending)) htest
      exact fate_of_waiting (hsame.trans honly) hcancelled hlt later
  refine ⟨hlate, ?_, ?_, ?_, ?_, ?_⟩
  · intro hwaits
    refine ⟨?_, hfate hwaits⟩
    rcases hplaced.callsOf_cases test earlier with hnone | ⟨call, _, hempty⟩
    · exact hnone
    · exact absurd hempty hwaits
  · intro call hcall
    exact (hfate (hlate (List.ne_nil_of_mem hcall))).cancelled hcall
  · rcases hplaced.callsOf_cases test run with hnone | ⟨call, honly, _⟩
    · rw [hnone]
      exact Nat.zero_le 1
    · rw [honly]
      exact Nat.le_refl 1
  · rw [hrun]
    intro job hjob htest
    exact (hrenewed.actAll later).jobCancelled (hnew true) hjob htest
  · refine reportsOf_eq_nil ?_
    intro frame hframe
    exact hnew true (hrenewed.submitted_of_mem_history hframe)

/-- The one worker runs the first of two tests, and the second waits. -/
def secondWaits : List Action :=
  [askForTest 1, askForTest 2, .startJob]

/-- The first test ends, and the worker takes the second. -/
def secondStarts : List Action :=
  [.finishJob 0, .startJob]

/-- A test that waits is superseded, and its executor is called all the
same: behind the command the worker takes the test and runs its executor. -/
theorem superseded_test_called :
    let start := fresh {} 1 4 oneExecutor none
    let action : Action := .dispatch ⟨some .beginTest, 3, .null⟩
    let behind := (start.actAll secondWaits).act action
    action.supersedes = true ∧ .submitted 1 true ∈ start.history secondWaits ∧
      callsOf 1 (start.calls secondWaits) = [] ∧
      ∃ call, callsOf 1 (behind.calls secondStarts) = [call] ∧ call.cancelled = true ∧
        ∃ job run, (behind.actAll secondStarts).pool.running = [job] ∧ job.work = .test run ∧
          run.guard.id = 1 ∧ run.activity = some call.activity := by
  refine ⟨rfl, List.mem_of_getElem? (i := 3) rfl, rfl, _, rfl, rfl, _, _, rfl, rfl, rfl, rfl⟩

/-- The executor of the second test is called once, behind the command, and
is told that the test is cancelled; nothing is reported of it. -/
theorem called_of_superseded_waiting :
    ∃ action : Action, action.supersedes = true ∧
      .submitted 1 true ∈ (fresh {} 1 4 oneExecutor none).history secondWaits ∧
      ∃ behind, behind = ((fresh {} 1 4 oneExecutor none).actAll secondWaits).act action ∧
        ∃ call, callsOf 1 (behind.calls secondStarts) = [call] ∧ call.cancelled = true ∧
          reportsOf 1 (behind.history (secondStarts ++ [.finishJob 0])) = [] := by
  have h := (called_of_superseded {} 1 4 oneExecutor none secondWaits
    (secondStarts ++ [.finishJob 0]) (.dispatch ⟨some .beginTest, 3, .null⟩) rfl).1 1 true
  have hsubmitted : .submitted 1 true ∈ (fresh {} 1 4 oneExecutor none).history secondWaits :=
    List.mem_of_getElem? (i := 3) rfl
  obtain ⟨_, _, hcancelled, _, _, hreports⟩ := h hsubmitted
  refine ⟨_, rfl, hsubmitted, _, rfl, _, rfl, ?_, hreports⟩
  exact hcancelled _ (List.mem_singleton.mpr rfl)

end TestRig.Dispatcher
