import TestRig.Proofs.Dispatcher.Generations
import TestRig.Proofs.Dispatcher.Registries

/-!
# Where a test is

A test that the pool takes waits, is taken by a worker, and ends or is
discarded; it is never in two places, and it does not come back.

* `Whereabouts` is that as an invariant: the jobs in the pool that are the
  test, and what its executor was told when it began.
* `Runs` says that the job at a place is the test.  Only the end of such a
  job reports the test (`Whereabouts.act`).
* `Whereabouts.run` follows a test through a run: it ends at most once, and
  what is reported of it is reported there.
-/

namespace TestRig.Dispatcher

/-! ## The reports of a test -/

/-- The frame of an entry that reports a test. -/
def Entry.reportOf? (test : Nat) : Entry → Option Bytes
  | reported other frame => if other = test then some frame else none
  | _ => none

/-- The reports of a test, in order. -/
def reportsOf (test : Nat) (told : List Entry) : List Bytes :=
  told.filterMap (Entry.reportOf? test)

@[simp] theorem reportsOf_append (test : Nat) (first second : List Entry) :
    reportsOf test (first ++ second) = reportsOf test first ++ reportsOf test second :=
  List.filterMap_append ..

theorem reportsOf_eq_nil {test : Nat} {told : List Entry}
    (h : ∀ frame, .reported test frame ∉ told) : reportsOf test told = [] := by
  refine List.filterMap_eq_nil_iff.mpr ?_
  intro entry hentry
  cases entry with
  | reported other frame =>
    refine if_neg ?_
    rintro rfl
    exact h frame hentry
  | superseded | acked | submitted | drained | closed => rfl

/-! ## The jobs that are a test -/

/-- The job is the test with a number. -/
def isTest (test : Nat) (job : Job Work) : Bool :=
  job.work.test? == some test

/-- A job that a worker has taken, with the executor told whether the test
was cancelled by then. -/
def begun (cancelled : Bool) (job : Job Work) : Job Work :=
  match job.work with
  | .test run =>
    { job with work := .test { run with
        activity := some (run.executor ⟨run.kind, run.sequence, cancelled⟩ run.payload) } }
  | .clock _ => job

theorem begin_eq (dispatcher : Dispatcher) (job : Job Work) :
    dispatcher.begin job = begun (dispatcher.jobCancelled job) job :=
  rfl

theorem isTest_begun (test : Nat) (cancelled : Bool) (job : Job Work) :
    isTest test (begun cancelled job) = isTest test job := by
  unfold isTest begun
  cases hwork : job.work with
  | test run => rfl
  | clock payload =>
    dsimp only
    rw [hwork]

theorem jobCancelled_begun (dispatcher : Dispatcher) (cancelled : Bool) (job : Job Work) :
    dispatcher.jobCancelled (begun cancelled job) = dispatcher.jobCancelled job := by
  unfold begun
  cases job.work <;> rfl

theorem jobCancelled_mono {before after : Dispatcher}
    (h : before.tokens.cancelled ⊆ after.tokens.cancelled) {job : Job Work}
    (hcancelled : before.jobCancelled job = true) : after.jobCancelled job = true := by
  unfold jobCancelled at hcancelled ⊢
  cases htoken : job.token with
  | none =>
    rw [htoken] at hcancelled
    cases hcancelled
  | some token =>
    rw [htoken] at hcancelled
    exact Tokens.isCancelled_mono h hcancelled

/-- No job in the pool is the test. -/
structure Gone (dispatcher : Dispatcher) (test : Nat) : Prop where
  pending : dispatcher.pool.pending.filter (isTest test) = []
  running : dispatcher.pool.running.filter (isTest test) = []

theorem gone_iff {dispatcher : Dispatcher} {test : Nat} :
    dispatcher.Gone test ↔ ∀ token, ¬ dispatcher.Holds test token := by
  have htest : ∀ {job : Job Work}, isTest test job = true ↔ job.work.test? = some test := by
    intro job
    rw [isTest, beq_iff_eq]
  constructor
  · rintro ⟨hpending, hrunning⟩ token ⟨job, hjob, hnumber, _⟩
    rcases Pool.mem_jobs.mp hjob with hjob | hjob
    · exact List.filter_eq_nil_iff.mp hpending job hjob (htest.mpr hnumber)
    · exact List.filter_eq_nil_iff.mp hrunning job hjob (htest.mpr hnumber)
  · intro h
    constructor
    · refine List.filter_eq_nil_iff.mpr ?_
      intro job hjob hnumber
      exact h job.token ⟨job, Pool.mem_jobs.mpr (.inl hjob), htest.mp hnumber, rfl⟩
    · refine List.filter_eq_nil_iff.mpr ?_
      intro job hjob hnumber
      exact h job.token ⟨job, Pool.mem_jobs.mpr (.inr hjob), htest.mp hnumber, rfl⟩

/-- A test that is gone does not come back: its number is not given out
again. -/
theorem Gone.act {dispatcher : Dispatcher} {test : Nat} (h : dispatcher.Gone test)
    (hlt : test < dispatcher.outstanding.next) (action : Action) :
    (dispatcher.act action).Gone test := by
  have hact := dispatcher.act_advances action
  rw [gone_iff] at h ⊢
  intro token hholds
  rcases hact.holds hholds with hbefore | ⟨hsubmitted, _⟩
  · exact h token hbefore
  · exact absurd (hact.submitted hsubmitted).1 (Nat.ne_of_lt hlt)

/-- Where a test is that was submitted as a job. -/
inductive Whereabouts (dispatcher : Dispatcher) (test : Nat) (job : Job Work) : Prop where
  | waiting (hpending : dispatcher.pool.pending.filter (isTest test) = [job])
      (hrunning : dispatcher.pool.running.filter (isTest test) = [])
  /-- What the executor was told still holds. -/
  | running (cancelled : Bool) (hpending : dispatcher.pool.pending.filter (isTest test) = [])
      (hrunning : dispatcher.pool.running.filter (isTest test) = [begun cancelled job])
      (hcancelled : cancelled = true → dispatcher.jobCancelled job = true)
  | gone (h : dispatcher.Gone test)

/-- The running job at a place is the test. -/
def Runs (dispatcher : Dispatcher) (test index : Nat) : Prop :=
  ∃ job, dispatcher.pool.running[index]? = some job ∧ isTest test job = true

theorem Gone.not_runs {dispatcher : Dispatcher} {test : Nat} (h : dispatcher.Gone test)
    (index : Nat) : ¬ dispatcher.Runs test index := by
  rintro ⟨job, hjob, htest⟩
  have hmem : job ∈ dispatcher.pool.running.filter (isTest test) :=
    List.mem_filter.mpr ⟨List.mem_of_getElem? hjob, htest⟩
  rw [h.running] at hmem
  exact absurd hmem List.not_mem_nil

/-! ## One action -/

section Action

variable {before after : Dispatcher} {test : Nat} {job : Job Work}

/-- A change that moves no job of the test. -/
theorem Whereabouts.of_filter (h : Whereabouts before test job)
    (hpending : after.pool.pending.filter (isTest test) =
      before.pool.pending.filter (isTest test))
    (hrunning : after.pool.running.filter (isTest test) =
      before.pool.running.filter (isTest test))
    (hcancelled : before.tokens.cancelled ⊆ after.tokens.cancelled) :
    Whereabouts after test job := by
  cases h with
  | waiting hwaits hidle => exact .waiting (hpending.trans hwaits) (hrunning.trans hidle)
  | running cancelled hnone hruns hknown =>
    exact .running cancelled (hpending.trans hnone) (hrunning.trans hruns)
      fun h => jobCancelled_mono hcancelled (hknown h)
  | gone h => exact .gone ⟨hpending.trans h.pending, hrunning.trans h.running⟩

theorem filter_append_singleton {α : Type} {p : α → Bool} {a : α} (h : p a = false)
    (items : List α) : (items ++ [a]).filter p = items.filter p := by
  rw [List.filter_append, List.filter_cons_of_neg (Bool.eq_false_iff.mp h), List.filter_nil,
    List.append_nil]

/-- Another test is submitted. -/
theorem filter_submitTest {dispatcher : Dispatcher} (hlt : test < dispatcher.outstanding.next)
    (kind : CommandKind) (command : Command) (executor : Executor) :
    (dispatcher.submitTest kind command executor).pool.pending.filter (isTest test) =
        dispatcher.pool.pending.filter (isTest test) ∧
      (dispatcher.submitTest kind command executor).pool.running = dispatcher.pool.running := by
  rcases dispatcher.submitTest_eq kind command executor with ⟨_, heq⟩ | ⟨_, heq⟩
  · rw [heq]
    refine ⟨filter_append_singleton ?_ _, rfl⟩
    have hne : dispatcher.outstanding.next ≠ test := Nat.ne_of_gt hlt
    simp [isTest, testJob, Work.test?, hne]
  · rw [heq]
    exact ⟨rfl, rfl⟩

theorem filter_setClock (dispatcher : Dispatcher) (payload : Json.Value) :
    (dispatcher.setClock payload).pool.pending.filter (isTest test) =
        dispatcher.pool.pending.filter (isTest test) ∧
      (dispatcher.setClock payload).pool.running = dispatcher.pool.running := by
  rcases dispatcher.setClock_cases payload with heq | heq
  · rw [heq]
    exact ⟨rfl, rfl⟩
  · rw [heq]
    exact ⟨filter_append_singleton rfl _, rfl⟩

theorem Whereabouts.dispatch (h : Whereabouts before test job)
    (hlt : test < before.outstanding.next) (command : Command) :
    Whereabouts (before.dispatch command) test job ∧
      reportsOf test (before.dispatchEntries command) = [] := by
  have hadvances := before.dispatch_advances command
  have hdispatched := before.dispatch_cases command
  generalize before.dispatchEntries command = told at hadvances hdispatched ⊢
  generalize before.dispatch command = after at hadvances hdispatched ⊢
  cases hdispatched with
  | dropped => exact ⟨h, rfl⟩
  | clock hkind =>
    obtain ⟨hpending, hrunning⟩ := @filter_setClock test
      (before.ack .setSystemTime .null command.sequence) command.payload
    refine ⟨h.of_filter hpending (congrArg _ hrunning) hadvances.cancelled, ?_⟩
    exact reportsOf_eq_nil fun frame => reported_notMem_ackEntries
  | control kind hkind hcontrol =>
    refine ⟨h.of_filter rfl rfl hadvances.cancelled, ?_⟩
    refine reportsOf_eq_nil ?_
    intro frame hframe
    rcases List.mem_cons.mp hframe with hframe | hframe
    · cases hframe
    · exact reported_notMem_ackEntries hframe
  | test kind executor hkind htest hresolve =>
    obtain ⟨hpending, hrunning⟩ := @filter_submitTest test
      (before.ack kind .null command.sequence) hlt kind command executor
    refine ⟨h.of_filter hpending (congrArg _ hrunning) hadvances.cancelled, ?_⟩
    refine reportsOf_eq_nil ?_
    intro frame hframe
    rcases List.mem_append.mp hframe with hframe | hframe
    · exact reported_notMem_ackEntries hframe
    · cases List.mem_singleton.mp hframe

theorem Whereabouts.startJob (h : Whereabouts before test job) :
    Whereabouts (before.startJob?.getD before) test job := by
  rcases before.startJob_cases with heq | ⟨oldest, rest, hpending, heq⟩
  · rw [heq]
    exact h
  · rw [heq]
    have hfront : before.pool.pending.filter (isTest test) =
        (oldest :: rest).filter (isTest test) := by rw [hpending]
    cases htest : isTest test oldest with
    | false =>
      refine h.of_filter ?_ ?_ (List.Subset.refl _)
      · rw [hfront, List.filter_cons_of_neg (by rw [htest]; exact Bool.false_ne_true)]
      · refine filter_append_singleton ?_ _
        rw [begin_eq, isTest_begun, htest]
    | true =>
      rw [List.filter_cons_of_pos htest] at hfront
      cases h with
      | waiting hwaits hidle =>
        rw [hfront] at hwaits
        obtain ⟨rfl, hrest⟩ := List.cons.inj hwaits
        refine .running (before.jobCancelled oldest) hrest ?_ id
        show (before.pool.running ++ [before.begin oldest]).filter (isTest test) = _
        rw [begin_eq, List.filter_append, hidle, List.nil_append,
          List.filter_cons_of_pos ((isTest_begun ..).trans htest), List.filter_nil]
      | running cancelled hnone =>
        rw [hfront] at hnone
        cases hnone
      | gone hgone =>
        have hnone := hgone.pending
        rw [hfront] at hnone
        cases hnone

/-! ### The end of a job -/

/-- The one item that passes is the one that is taken out. -/
theorem filter_eraseIdx_of_pos {α : Type} {p : α → Bool} {items : List α} {index : Nat}
    {a only : α} (hindex : items[index]? = some a) (ha : p a = true)
    (honly : items.filter p = [only]) : a = only ∧ (items.eraseIdx index).filter p = [] := by
  obtain ⟨hinside, rfl⟩ := List.getElem?_eq_some_iff.mp hindex
  have hperm := (List.getElem_cons_eraseIdx_perm hinside).filter p
  rw [List.filter_cons_of_pos ha, honly] at hperm
  exact List.cons.inj (List.perm_singleton.mp hperm)

theorem filter_eraseIdx_of_neg {α : Type} {p : α → Bool} {items : List α} {index : Nat}
    {a : α} (hindex : items[index]? = some a) (ha : p a = false) :
    (items.eraseIdx index).filter p = items.filter p := by
  obtain ⟨hinside, rfl⟩ := List.getElem?_eq_some_iff.mp hindex
  have hsplit : items.take index ++ items[index] :: items.drop (index + 1) = items := by
    rw [List.getElem_cons_drop, List.take_append_drop]
  calc (items.eraseIdx index).filter p
      = (items.take index).filter p ++ (items.drop (index + 1)).filter p := by
        rw [List.eraseIdx_eq_take_drop_succ, List.filter_append]
    _ = (items.take index ++ items[index] :: items.drop (index + 1)).filter p := by
        rw [List.filter_append, List.filter_cons_of_neg (Bool.eq_false_iff.mp ha)]
    _ = items.filter p := by rw [hsplit]

/-- The end of a job takes it from the running ones, and changes no other
job and no token. -/
theorem pool_finishJob {dispatcher : Dispatcher} {index : Nat} {ended : Job Work}
    (hended : dispatcher.pool.running[index]? = some ended) :
    (dispatcher.finishJob index).pool.pending = dispatcher.pool.pending ∧
      (dispatcher.finishJob index).pool.running = dispatcher.pool.running.eraseIdx index ∧
      (dispatcher.finishJob index).tokens = dispatcher.tokens := by
  have hfinish : (dispatcher.finishJob index).pool = dispatcher.pool.finish index := by
    rw [finishJob_eq hended]
  refine ⟨?_, ?_, (dispatcher.finishJob_cases index).2.1⟩
  · rw [hfinish, Pool.finish, hended]
    exact Pool.pending_release _ ended
  · rw [hfinish, Pool.finish, hended]
    exact Pool.running_release _ ended

/-- Another job ends. -/
theorem Whereabouts.finishJob (h : Whereabouts before test job) {index : Nat}
    (hother : ¬ before.Runs test index) :
    Whereabouts (before.finishJob index) test job ∧
      reportsOf test (before.finishEntries index) = [] := by
  cases hended : before.pool.running[index]? with
  | none =>
    unfold Dispatcher.finishJob finishEntries
    rw [hended]
    exact ⟨h, rfl⟩
  | some ended =>
    have htest : isTest test ended = false :=
      Bool.eq_false_iff.mpr fun htest => hother ⟨ended, hended, htest⟩
    obtain ⟨hpending, hrunning, htokens⟩ := pool_finishJob hended
    refine ⟨h.of_filter (congrArg _ hpending) ?_ ?_, ?_⟩
    · rw [hrunning]
      exact filter_eraseIdx_of_neg hended htest
    · rw [htokens]
      exact List.Subset.refl _
    · refine reportsOf_eq_nil ?_
      intro frame hframe
      unfold finishEntries at hframe
      rw [hended] at hframe
      dsimp only at hframe
      cases hwork : ended.work with
      | clock payload =>
        rw [hwork] at hframe
        exact absurd hframe List.not_mem_nil
      | test run =>
        rw [hwork] at hframe
        obtain ⟨_, frame', heq⟩ := mem_reportEntries hframe
        cases heq
        rw [isTest, hwork, Work.test?, beq_self_eq_true] at htest
        cases htest

/-- The test itself ends. -/
theorem Whereabouts.finishJob_of_runs (h : Whereabouts before test job) {index : Nat}
    (hruns : before.Runs test index) :
    (∃ cancelled, before.pool.running[index]? = some (begun cancelled job) ∧
      (cancelled = true → before.jobCancelled job = true)) ∧
      (before.finishJob index).Gone test := by
  cases h with
  | waiting hpending hrunning => exact absurd hruns (by
      rintro ⟨ended, hended, htest⟩
      have hmem : ended ∈ before.pool.running.filter (isTest test) :=
        List.mem_filter.mpr ⟨List.mem_of_getElem? hended, htest⟩
      rw [hrunning] at hmem
      exact absurd hmem List.not_mem_nil)
  | running cancelled hpending hrunning hcancelled =>
    obtain ⟨ended, hended, htest⟩ := hruns
    obtain ⟨rfl, hnone⟩ := filter_eraseIdx_of_pos hended htest hrunning
    obtain ⟨hpending', hrunning', _⟩ := pool_finishJob hended
    refine ⟨⟨cancelled, hended, hcancelled⟩, ?_, ?_⟩
    · rw [hpending', hpending]
    · rw [hrunning', hnone]
  | gone hgone => exact absurd hruns (hgone.not_runs index)

/-! ### Every action -/

theorem Whereabouts.shutdownPool (h : Whereabouts before test job) :
    Whereabouts before.shutdownPool test job := by
  have hkept : Kept _ before.shutdownPool := foldl_forget_kept _ _
  have hpending : before.shutdownPool.pool.pending = [] := by rw [hkept.pool]
  have hnone : before.shutdownPool.pool.pending.filter (isTest test) = [] := by
    rw [hpending, List.filter_nil]
  have hrunning : before.shutdownPool.pool.running = before.pool.running := by rw [hkept.pool]
  cases h with
  | waiting _ hidle => exact .gone ⟨hnone, by rw [hrunning, hidle]⟩
  | running cancelled _ hruns hknown =>
    exact .running cancelled hnone (by rw [hrunning, hruns])
      fun h => jobCancelled_mono before.shutdownPool_advances.cancelled (hknown h)
  | gone h => exact .gone ⟨hnone, by rw [hrunning, h.running]⟩

/-- The action is the end of the test. -/
def Ends (dispatcher : Dispatcher) (test : Nat) (action : Action) : Prop :=
  ∃ index, action = .finishJob index ∧ dispatcher.Runs test index

/-- Any action but the end of the test itself. -/
theorem Whereabouts.act (h : Whereabouts before test job)
    (hlt : test < before.outstanding.next) {action : Action}
    (hother : ¬ before.Ends test action) :
    Whereabouts (before.act action) test job ∧ reportsOf test (before.entries action) = [] := by
  cases action with
  | dispatch command => exact h.dispatch hlt command
  | acknowledge kind data sequence =>
    refine ⟨h.of_filter rfl rfl (List.Subset.refl _), ?_⟩
    exact reportsOf_eq_nil fun frame => reported_notMem_ackEntries
  | cancelGeneration =>
    exact ⟨h.of_filter rfl rfl before.cancelGeneration_advances.cancelled, rfl⟩
  | startJob => exact ⟨h.startJob, rfl⟩
  | finishJob index => exact h.finishJob fun hruns => hother ⟨index, rfl, hruns⟩
  | shutdownPool => exact ⟨h.shutdownPool, rfl⟩
  | drain => exact ⟨h.of_filter rfl rfl (List.Subset.refl _), rfl⟩
  | close => exact ⟨h.of_filter rfl rfl (List.Subset.refl _), rfl⟩

end Action

/-! ## Runs -/

/-- The test ends at a place of a run: the actions before it, and the place
of its job among the running ones. -/
structure EndsAt (dispatcher : Dispatcher) (test : Nat) (actions earlier : List Action)
    (index : Nat) : Prop where
  split : ∃ later, actions = earlier ++ .finishJob index :: later
  runs : (dispatcher.actAll earlier).Runs test index

/-- What a run does to a test. -/
inductive Course (dispatcher : Dispatcher) (test : Nat) (job : Job Work)
    (actions : List Action) : Prop where
  /-- It waits, runs or is discarded. -/
  | never (hreports : reportsOf test (dispatcher.history actions) = [])
      (hnever : ∀ earlier index, ¬ dispatcher.EndsAt test actions earlier index)
  /-- It ends once, is reported then or never, and is gone. -/
  | ended (earlier : List Action) (index : Nat) (cancelled : Bool)
      (hends : dispatcher.EndsAt test actions earlier index)
      (honce : ∀ earlier' index', dispatcher.EndsAt test actions earlier' index' →
        earlier' = earlier ∧ index' = index)
      (hjob : (dispatcher.actAll earlier).pool.running[index]? = some (begun cancelled job))
      (hcancelled : cancelled = true → (dispatcher.actAll earlier).jobCancelled job = true)
      (hreports : reportsOf test (dispatcher.history actions) =
        reportsOf test ((dispatcher.actAll earlier).finishEntries index))
      (hgone : (dispatcher.actAll actions).Gone test)

theorem not_endsAt_nil {dispatcher : Dispatcher} {test : Nat} (earlier : List Action)
    (index : Nat) : ¬ dispatcher.EndsAt test [] earlier index := by
  rintro ⟨⟨later, hsplit⟩, _⟩
  exact absurd hsplit.symm (List.append_ne_nil_of_right_ne_nil _ (List.cons_ne_nil _ _))

/-- The end of a test is the first action of a run, or one of the rest. -/
theorem endsAt_cons {dispatcher : Dispatcher} {test : Nat} {action : Action}
    {rest earlier : List Action} {index : Nat} :
    dispatcher.EndsAt test (action :: rest) earlier index ↔
      earlier = [] ∧ action = .finishJob index ∧ dispatcher.Runs test index ∨
        ∃ between, earlier = action :: between ∧
          (dispatcher.act action).EndsAt test rest between index := by
  constructor
  · rintro ⟨⟨later, hsplit⟩, hruns⟩
    rcases List.cons_eq_append_iff.mp hsplit with ⟨rfl, hcons⟩ | ⟨between, rfl, hrest⟩
    · obtain ⟨rfl, _⟩ := List.cons.inj hcons
      exact .inl ⟨rfl, rfl, hruns⟩
    · exact .inr ⟨between, rfl, ⟨later, hrest⟩, hruns⟩
  · rintro (⟨rfl, rfl, hruns⟩ | ⟨between, rfl, ⟨later, rfl⟩, hruns⟩)
    · exact ⟨⟨rest, rfl⟩, hruns⟩
    · exact ⟨⟨later, rfl⟩, hruns⟩

/-- The course of a test that the first action does not end. -/
theorem Course.cons {dispatcher : Dispatcher} {test : Nat} {job : Job Work} {action : Action}
    {rest : List Action} (hother : ¬ dispatcher.Ends test action)
    (hreports : reportsOf test (dispatcher.entries action) = [])
    (h : Course (dispatcher.act action) test job rest) :
    Course dispatcher test job (action :: rest) := by
  have hhistory : reportsOf test (dispatcher.history (action :: rest)) =
      reportsOf test ((dispatcher.act action).history rest) := by
    rw [history, reportsOf_append, hreports, List.nil_append]
  cases h with
  | never hnone hnever =>
    refine .never (hhistory.trans hnone) ?_
    intro earlier index hends
    rcases endsAt_cons.mp hends with ⟨_, rfl, hruns⟩ | ⟨between, _, hrest⟩
    · exact hother ⟨index, rfl, hruns⟩
    · exact hnever between index hrest
  | ended earlier index cancelled hends honce hjob hcancelled hlast hgone =>
    refine .ended (action :: earlier) index cancelled (endsAt_cons.mpr (.inr ⟨earlier, rfl, hends⟩))
      ?_ hjob hcancelled (hhistory.trans hlast) hgone
    intro earlier' index' hends'
    rcases endsAt_cons.mp hends' with ⟨_, rfl, hruns⟩ | ⟨between, rfl, hrest⟩
    · exact absurd ⟨index', rfl, hruns⟩ hother
    · obtain ⟨rfl, rfl⟩ := honce between index' hrest
      exact ⟨rfl, rfl⟩

/-- A test that is gone stays so; it neither ends nor is reported. -/
theorem Gone.run {dispatcher : Dispatcher} {test : Nat} (h : dispatcher.Gone test)
    (hlt : test < dispatcher.outstanding.next) (actions : List Action) :
    (dispatcher.actAll actions).Gone test ∧ reportsOf test (dispatcher.history actions) = [] ∧
      ∀ earlier index, ¬ dispatcher.EndsAt test actions earlier index := by
  induction actions generalizing dispatcher with
  | nil => exact ⟨h, rfl, not_endsAt_nil⟩
  | cons action rest ih =>
    have hact := dispatcher.act_advances action
    have hnone : reportsOf test (dispatcher.entries action) = [] := by
      refine reportsOf_eq_nil ?_
      intro frame hframe
      obtain ⟨token, hholds, _⟩ := hact.reported hframe
      exact gone_iff.mp h token hholds
    obtain ⟨hgone, hrest, hnever⟩ := ih (h.act hlt action) (Nat.lt_of_lt_of_le hlt hact.next_le)
    refine ⟨hgone, by rw [history, reportsOf_append, hnone, hrest, List.append_nil], ?_⟩
    intro earlier index hends
    rcases endsAt_cons.mp hends with ⟨_, _, hruns⟩ | ⟨between, _, hbehind⟩
    · exact h.not_runs index hruns
    · exact hnever between index hbehind

/-- The course of a test through a run, from wherever it is. -/
theorem Whereabouts.run {dispatcher : Dispatcher} {test : Nat} {job : Job Work}
    (h : Whereabouts dispatcher test job) (hlt : test < dispatcher.outstanding.next)
    (actions : List Action) : Course dispatcher test job actions := by
  induction actions generalizing dispatcher with
  | nil => exact .never rfl not_endsAt_nil
  | cons action rest ih =>
    have hnext : test < (dispatcher.act action).outstanding.next :=
      Nat.lt_of_lt_of_le hlt (dispatcher.act_advances action).next_le
    by_cases hends : dispatcher.Ends test action
    · obtain ⟨index, rfl, hruns⟩ := hends
      obtain ⟨⟨cancelled, hjob, hcancelled⟩, hgone⟩ := h.finishJob_of_runs hruns
      obtain ⟨hstays, hnone, hnever⟩ := hgone.run hnext rest
      refine .ended [] index cancelled (endsAt_cons.mpr (.inl ⟨rfl, rfl, hruns⟩)) ?_ hjob
        hcancelled ?_ hstays
      · intro earlier' index' hends'
        rcases endsAt_cons.mp hends' with ⟨hnil, heq, _⟩ | ⟨between, _, hrest⟩
        · cases heq
          exact ⟨hnil, rfl⟩
        · exact absurd hrest (hnever between index')
      · rw [history, reportsOf_append]
        show reportsOf test (dispatcher.finishEntries index) ++
          reportsOf test ((dispatcher.finishJob index).history rest) = _
        rw [show reportsOf test ((dispatcher.finishJob index).history rest) = [] from hnone,
          List.append_nil]
        rfl
    · obtain ⟨hwhere, hreports⟩ := h.act hlt hends
      exact .cons hends hreports (ih hwhere hnext)

end TestRig.Dispatcher
