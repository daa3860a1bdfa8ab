import TestRig.Proofs.Dispatcher.Whereabouts

/-!
# The account of a test

What a test command sends: one acknowledgement at once, and at most one
report later.  The report is sent where the test ends, so everything about
it is read off the one step that ends the test.

* `answer?` is what a test has to report, and `Due` says that a report of
  it is made.
* `Finished` lists the ways in which a test ends, and `finished_of_running`
  finds one of them at the end of each test.
* `Account` is the account of one test from its dispatch on;
  `test_account` gives it for every run of a fresh dispatcher.
-/

namespace TestRig

open Json (Value)
open Frame (maxContent assemble)

namespace Dispatcher

/-! ## What does not change -/

theorem policy_replay (queue : Queue Bytes) (entry : Entry) :
    (entry.replay queue).policy = queue.policy := by
  cases entry with
  | acked kind sequence frame => exact queue.policy_push frame
  | reported test frame => exact queue.policy_push frame
  | drained =>
    show queue.tryPop.2.policy = queue.policy
    unfold Queue.tryPop
    split <;> rfl
  | superseded | submitted | closed => rfl

theorem policy_act (dispatcher : Dispatcher) (action : Action) :
    (dispatcher.act action).link.outbound.policy = dispatcher.link.outbound.policy := by
  rw [outbound_act]
  generalize dispatcher.entries action = told
  generalize dispatcher.link.outbound = queue
  induction told generalizing queue with
  | nil => rfl
  | cons entry rest ih => rw [List.foldl_cons, ih, policy_replay]

theorem policy_actAll (dispatcher : Dispatcher) (actions : List Action) :
    (dispatcher.actAll actions).link.outbound.policy = dispatcher.link.outbound.policy :=
  actAll_preserves (fun before action h => (before.policy_act action).trans h) rfl actions

/-- Only the end of a job can make a report, and so change the encoder. -/
theorem codec_act (dispatcher : Dispatcher) {action : Action}
    (h : ∀ index, action ≠ .finishJob index) :
    (dispatcher.act action).link.codec = dispatcher.link.codec := by
  cases action with
  | dispatch command =>
    have hdispatched := dispatcher.dispatch_cases command
    show (dispatcher.dispatch command).link.codec = _
    generalize dispatcher.dispatchEntries command = told at hdispatched
    generalize dispatcher.dispatch command = after at hdispatched ⊢
    cases hdispatched with
    | dropped => rfl
    | clock => rw [link_setClock, ack, Link.codec_sendAck]
    | control kind => exact Link.codec_sendAck _ _ _
    | test kind executor => rw [link_submitTest, ack, Link.codec_sendAck]
  | acknowledge kind data sequence => exact Link.codec_sendAck _ _ _
  | startJob =>
    show (dispatcher.startJob?.getD dispatcher).link.codec = _
    rcases dispatcher.startJob_cases with heq | ⟨oldest, rest, _, heq⟩
    · rw [heq]
    · rw [heq]
  | finishJob index => exact absurd rfl (h index)
  | shutdownPool =>
    show (List.foldl forget _ _).link.codec = _
    rw [link_foldl_forget]
  | cancelGeneration | drain | close => rfl

/-- What a dispatcher is set up with. -/
def setup (dispatcher : Dispatcher) : Registry × Identity × Option TimeHook :=
  (dispatcher.registry, dispatcher.identity, dispatcher.timeHook)

theorem setup_forget (dispatcher : Dispatcher) (job : Job Work) :
    (dispatcher.forget job).setup = dispatcher.setup := by
  unfold forget
  split <;> rfl

theorem setup_act (dispatcher : Dispatcher) (action : Action) :
    (dispatcher.act action).setup = dispatcher.setup := by
  cases action with
  | dispatch command =>
    have hdispatched := dispatcher.dispatch_cases command
    show (dispatcher.dispatch command).setup = _
    generalize dispatcher.dispatchEntries command = told at hdispatched
    generalize dispatcher.dispatch command = after at hdispatched ⊢
    cases hdispatched with
    | dropped | control => rfl
    | clock =>
      rcases (dispatcher.ack .setSystemTime .null command.sequence).setClock_cases
        command.payload with heq | heq
      · rw [heq]
        rfl
      · rw [heq]
        rfl
    | test kind executor =>
      rcases (dispatcher.ack kind .null command.sequence).submitTest_eq kind command executor with
        ⟨_, heq⟩ | ⟨_, heq⟩
      · rw [heq]
        rfl
      · rw [heq]
        rfl
  | startJob =>
    show (dispatcher.startJob?.getD dispatcher).setup = _
    rcases dispatcher.startJob_cases with heq | ⟨oldest, rest, _, heq⟩
    · rw [heq]
    · rw [heq]
      rfl
  | finishJob index =>
    show (dispatcher.finishJob index).setup = _
    cases hjob : dispatcher.pool.running[index]? with
    | none =>
      unfold finishJob
      rw [hjob]
    | some job =>
      obtain ⟨link, hookRuns, heq⟩ := dispatcher.complete_eq job
      rw [finishJob_eq hjob, heq]
      exact setup_forget _ job
  | shutdownPool => exact foldl_forget_eq setup_forget _ _
  | acknowledge | cancelGeneration | drain | close => rfl

theorem setup_actAll (dispatcher : Dispatcher) (actions : List Action) :
    (dispatcher.actAll actions).setup = dispatcher.setup :=
  actAll_preserves (fun before action h => (before.setup_act action).trans h) rfl actions

theorem registry_actAll (dispatcher : Dispatcher) (actions : List Action) :
    (dispatcher.actAll actions).registry = dispatcher.registry :=
  congrArg Prod.fst (dispatcher.setup_actAll actions)

/-- The tests in the pool keep to the numbers that were given out. -/
def Numbered (dispatcher : Dispatcher) : Prop :=
  ∀ test token, dispatcher.Holds test token → test < dispatcher.outstanding.next

theorem Numbered.act {dispatcher : Dispatcher} (h : Numbered dispatcher) (action : Action) :
    Numbered (dispatcher.act action) := by
  have hact := dispatcher.act_advances action
  intro test token hholds
  rcases hact.holds hholds with hbefore | ⟨hsubmitted, _⟩
  · exact Nat.lt_of_lt_of_le (h test token hbefore) hact.next_le
  · exact (hact.submitted hsubmitted).2

theorem Numbered.actAll {dispatcher : Dispatcher} (h : Numbered dispatcher)
    (actions : List Action) : Numbered (dispatcher.actAll actions) :=
  actAll_preserves (fun _ action h => h.act action) h actions

/-- No job in the pool has the number of the next test. -/
theorem Numbered.gone {dispatcher : Dispatcher} (h : Numbered dispatcher) :
    dispatcher.Gone dispatcher.outstanding.next :=
  gone_iff.mpr fun token hholds => Nat.lt_irrefl _ (h _ token hholds)

/-! ## The end of a test -/

/-- What a test reports: the response of its executor, or its failure with
the text of it; nothing after a crash. -/
def answer? (executor : Executor) (invocation : Invocation) (payload : Value) :
    Option Response :=
  match (executor invocation payload).ending with
  | .responded response => some response
  | .failed failure => some ((invocation.failed payload).withDesc failure.message)
  | .crashed => none

/-- At the end of a test its report is made: the executor came to an end
with something to tell, the test is not cancelled, and the content fits a
frame. -/
structure Due (dispatcher : Dispatcher) (token : Token) (answer : Option Response)
    (content : Bytes) : Prop where
  answered : ∃ response, answer = some response ∧
    content = dispatcher.link.codec.encoder.content response
  live : dispatcher.tokens.isCancelled token = false
  fits : content.length ≤ maxContent

theorem Due.unique {dispatcher : Dispatcher} {token : Token} {answer : Option Response}
    {first second : Bytes} (h : dispatcher.Due token answer first)
    (h' : dispatcher.Due token answer second) : first = second := by
  obtain ⟨response, hanswer, rfl⟩ := h.answered
  obtain ⟨response', hanswer', rfl⟩ := h'.answered
  rw [hanswer] at hanswer'
  cases hanswer'
  rfl

/-- The ways in which a test ends: what it tells, and the number of the next
report. -/
inductive Finished (dispatcher : Dispatcher) (test : Nat) (token : Token)
    (answer : Option Response) : List Entry → UInt16 → Prop where
  /-- No report is made, and no number taken. -/
  | silent (h : ∀ content, ¬ dispatcher.Due token answer content) :
      Finished dispatcher test token answer [] dispatcher.link.codec.encoder.reportSequence
  /-- The link is closed, and the report is lost with its number. -/
  | lost (content : Bytes) (h : dispatcher.Due token answer content)
      (hclosed : dispatcher.link.outbound.closed = true) :
      Finished dispatcher test token answer []
        (dispatcher.link.codec.encoder.reportSequence + 1)
  | sent (content : Bytes) (h : dispatcher.Due token answer content)
      (hopen : dispatcher.link.outbound.closed = false) :
      Finished dispatcher test token answer
        [.reported test (assemble dispatcher.link.codec.encoder.reportSequence content)]
        (dispatcher.link.codec.encoder.reportSequence + 1)

theorem response?_begun (run : TestRun) (cancelled : Bool) :
    TestRun.response? { run with
        activity := some (run.executor ⟨run.kind, run.sequence, cancelled⟩ run.payload) } =
      answer? run.executor ⟨run.kind, run.sequence, cancelled⟩ run.payload := by
  unfold TestRun.response? answer?
  dsimp only [Option.map]
  cases (run.executor ⟨run.kind, run.sequence, cancelled⟩ run.payload).ending <;> rfl

theorem link_finishJob {dispatcher : Dispatcher} {index : Nat} {job : Job Work} {run : TestRun}
    (hjob : dispatcher.pool.running[index]? = some job) (hwork : job.work = .test run) :
    (dispatcher.finishJob index).link = (dispatcher.sendReport job run).link := by
  rw [finishJob_eq hjob]
  show ((dispatcher.complete job).forget job).link = _
  rw [link_forget, complete, hwork]

section Ending

variable {dispatcher : Dispatcher} {index test : Nat} {job : Job Work} {run : TestRun}
  {token : Token} {cancelled : Bool}

/-- A report that is sent for a response. -/
theorem finished_of_response (hpolicy : dispatcher.link.outbound.policy = .dropOldest)
    (hlive : dispatcher.tokens.isCancelled token = false) (response : Response) :
    Finished dispatcher test token (some response)
      ((dispatcher.link.queued? response dispatcher.link.codec.encoder.reportSequence).map
        (.reported test)).toList
      (dispatcher.link.sendReport response).2.codec.encoder.reportSequence := by
  rw [Link.encoder_sendReport]
  by_cases hfits : (dispatcher.link.codec.encoder.content response).length ≤ maxContent
  · rw [if_pos hfits]
    have hdue : dispatcher.Due token (some response)
        (dispatcher.link.codec.encoder.content response) :=
      ⟨⟨response, rfl, rfl⟩, hlive, hfits⟩
    cases hclosed : dispatcher.link.outbound.closed with
    | true =>
      have hnone : dispatcher.link.queued? response
          dispatcher.link.codec.encoder.reportSequence = none := by
        refine Option.eq_none_iff_forall_ne_some.mpr ?_
        intro frame hframe
        have hopen := ((Link.queued?_eq_some_iff hpolicy).mp hframe).2.1
        rw [hclosed] at hopen
        cases hopen
      rw [hnone]
      exact .lost _ hdue hclosed
    | false =>
      rw [(Link.queued?_eq_some_iff hpolicy).mpr ⟨hfits, hclosed, rfl⟩]
      exact .sent _ hdue hclosed
  · rw [if_neg hfits]
    have hnone : dispatcher.link.queued? response
        dispatcher.link.codec.encoder.reportSequence = none := by
      refine Option.eq_none_iff_forall_ne_some.mpr ?_
      intro frame hframe
      exact hfits ((Link.queued?_eq_some_iff hpolicy).mp hframe).1
    rw [hnone]
    refine .silent ?_
    rintro content ⟨⟨other, hother, rfl⟩, _, hcontent⟩
    cases hother
    exact hfits hcontent

/-- The account of the end of a test. -/
theorem finished_of_running (hpolicy : dispatcher.link.outbound.policy = .dropOldest)
    (hjob : dispatcher.pool.running[index]? = some (begun cancelled job))
    (hwork : job.work = .test run) (htoken : job.token = some token)
    (hcancelled : cancelled = true → dispatcher.jobCancelled job = true) :
    Finished dispatcher run.guard.id token
      (answer? run.executor ⟨run.kind, run.sequence, false⟩ run.payload)
      (dispatcher.finishEntries index)
      (dispatcher.finishJob index).link.codec.encoder.reportSequence := by
  have hbegun : (begun cancelled job).work = .test { run with
      activity := some (run.executor ⟨run.kind, run.sequence, cancelled⟩ run.payload) } := by
    unfold begun
    rw [hwork]
  have hsame : dispatcher.jobCancelled (begun cancelled job) =
      dispatcher.tokens.isCancelled token := by
    rw [jobCancelled_begun, jobCancelled, htoken]
  have hentries : dispatcher.finishEntries index = dispatcher.reportEntries (begun cancelled job)
      { run with
        activity := some (run.executor ⟨run.kind, run.sequence, cancelled⟩ run.payload) } := by
    unfold finishEntries
    rw [hjob]
    dsimp only
    rw [hbegun]
  rw [hentries, link_finishJob hjob hbegun, reportEntries, sendReport, response?_begun, hsame]
  cases hlive : dispatcher.tokens.isCancelled token with
  | true =>
    have hnever : ∀ answer content, ¬ dispatcher.Due token answer content := by
      intro answer content hdue
      rw [hdue.live] at hlive
      cases hlive
    cases answer? run.executor ⟨run.kind, run.sequence, cancelled⟩ run.payload with
    | none => exact .silent (hnever _)
    | some response => exact .silent (hnever _)
  | false =>
    -- The executor was told the truth: cancellation is not taken back.
    have hflag : cancelled = false := by
      refine Bool.eq_false_iff.mpr ?_
      intro hflag
      have htrue := hcancelled hflag
      rw [jobCancelled, htoken] at htrue
      rw [show dispatcher.tokens.isCancelled token = true from htrue] at hlive
      cases hlive
    rw [hflag]
    cases answer? run.executor ⟨run.kind, run.sequence, false⟩ run.payload with
    | none =>
      refine .silent ?_
      rintro content ⟨⟨response, hnone, _⟩, _⟩
      cases hnone
    | some response =>
      dsimp only
      rw [if_neg Bool.false_ne_true, if_neg Bool.false_ne_true]
      exact finished_of_response hpolicy hlive response

/-- The frame that is told where a test ends. -/
theorem Finished.reportsOf_eq_iff {answer : Option Response} {told : List Entry}
    {sequence : UInt16} (h : Finished dispatcher test token answer told sequence) (frame : Bytes) :
    reportsOf test told = [frame] ↔
      ∃ content, dispatcher.Due token answer content ∧
        dispatcher.link.outbound.closed = false ∧
        frame = assemble dispatcher.link.codec.encoder.reportSequence content := by
  cases h with
  | silent hnever =>
    constructor
    · rintro ⟨⟩
    · rintro ⟨content, hdue, _⟩
      exact absurd hdue (hnever content)
  | lost content hdue hclosed =>
    constructor
    · rintro ⟨⟩
    · rintro ⟨_, _, hopen, _⟩
      rw [hclosed] at hopen
      cases hopen
  | sent content hdue hopen =>
    have hreports : reportsOf test
        [.reported test (assemble dispatcher.link.codec.encoder.reportSequence content)] =
          [assemble dispatcher.link.codec.encoder.reportSequence content] :=
      List.filterMap_cons_some (if_pos rfl)
    rw [hreports]
    constructor
    · intro heq
      exact ⟨content, hdue, hopen, (List.cons.inj heq).1.symm⟩
    · rintro ⟨other, hother, _, rfl⟩
      rw [hdue.unique hother]

theorem Finished.length_le_one {answer : Option Response} {told : List Entry}
    {sequence : UInt16} (h : Finished dispatcher test token answer told sequence) :
    (reportsOf test told).length ≤ 1 := by
  refine Nat.le_trans (List.length_filterMap_le _ _) ?_
  cases h with
  | silent | lost => exact Nat.zero_le _
  | sent => exact Nat.le_refl _

end Ending

/-! ## The course of a test, with its reports -/

section Reports

variable {dispatcher : Dispatcher} {test : Nat} {job : Job Work} {run : TestRun} {token : Token}
  {actions : List Action}

/-- Where a test ends, it ends in one of the ways, and what it reports there
is all that is reported of it. -/
theorem Course.finished (h : Course dispatcher test job actions)
    (hpolicy : dispatcher.link.outbound.policy = .dropOldest) (hwork : job.work = .test run)
    (hnumber : run.guard.id = test) (htoken : job.token = some token) {before : List Action}
    {index : Nat} (hends : dispatcher.EndsAt test actions before index) :
    Finished (dispatcher.actAll before) test token
        (answer? run.executor ⟨run.kind, run.sequence, false⟩ run.payload)
        ((dispatcher.actAll before).finishEntries index)
        ((dispatcher.actAll before).finishJob index).link.codec.encoder.reportSequence ∧
      reportsOf test (dispatcher.history actions) =
        reportsOf test ((dispatcher.actAll before).finishEntries index) := by
  cases h with
  | never _ hnever => exact absurd hends (hnever before index)
  | ended earlier place cancelled _ honce hjob hcancelled hreports =>
    obtain ⟨rfl, rfl⟩ := honce before index hends
    have hsame := (dispatcher.policy_actAll before).trans hpolicy
    have hfinished := finished_of_running hsame hjob hwork htoken hcancelled
    rw [hnumber] at hfinished
    exact ⟨hfinished, hreports⟩

/-- The one report of a test, if there is one. -/
theorem Course.reportsOf_eq_iff (h : Course dispatcher test job actions)
    (hpolicy : dispatcher.link.outbound.policy = .dropOldest) (hwork : job.work = .test run)
    (hnumber : run.guard.id = test) (htoken : job.token = some token) (frame : Bytes) :
    reportsOf test (dispatcher.history actions) = [frame] ↔
      ∃ before index content, dispatcher.EndsAt test actions before index ∧
        (dispatcher.actAll before).Due token
          (answer? run.executor ⟨run.kind, run.sequence, false⟩ run.payload) content ∧
        (dispatcher.actAll before).link.outbound.closed = false ∧
        frame = assemble (dispatcher.actAll before).link.codec.encoder.reportSequence content := by
  constructor
  · intro hframe
    cases hcourse : h with
    | never hnone =>
      rw [hnone] at hframe
      cases hframe
    | ended before index _ hends =>
      obtain ⟨hfinished, hreports⟩ := h.finished hpolicy hwork hnumber htoken hends
      rw [hreports] at hframe
      obtain ⟨content, hdue⟩ := (hfinished.reportsOf_eq_iff frame).mp hframe
      exact ⟨before, index, content, hends, hdue⟩
  · rintro ⟨before, index, content, hends, hdue⟩
    obtain ⟨hfinished, hreports⟩ := h.finished hpolicy hwork hnumber htoken hends
    rw [hreports]
    exact (hfinished.reportsOf_eq_iff frame).mpr ⟨content, hdue⟩

theorem Course.length_le_one (h : Course dispatcher test job actions)
    (hpolicy : dispatcher.link.outbound.policy = .dropOldest) (hwork : job.work = .test run)
    (hnumber : run.guard.id = test) (htoken : job.token = some token) :
    (reportsOf test (dispatcher.history actions)).length ≤ 1 := by
  cases hcourse : h with
  | never hnone =>
    rw [hnone]
    exact Nat.zero_le 1
  | ended before index _ hends =>
    obtain ⟨hfinished, hreports⟩ := h.finished hpolicy hwork hnumber htoken hends
    rw [hreports]
    exact hfinished.length_le_one

end Reports

/-! ## The dispatch of a test -/

section Dispatch

variable {dispatcher : Dispatcher} {command : Command} {kind : CommandKind}
  {executor : Executor}

/-- A command with an executor is acknowledged and its test submitted. -/
theorem dispatch_test (hkind : command.kind = some kind) (htest : kind.isTestInvocation = true)
    (hresolve : dispatcher.registry.resolve command = .ok executor) :
    dispatcher.dispatch command =
        (dispatcher.ack kind .null command.sequence).submitTest kind command executor ∧
      dispatcher.dispatchEntries command = dispatcher.ackEntries kind .null command.sequence ++
        [.submitted dispatcher.outstanding.next dispatcher.pool.takesJob] := by
  unfold dispatch dispatchEntries startTest
  rw [hkind, hresolve]
  cases kind with
  | singleTest | execOrder | combinedTest => exact ⟨rfl, rfl⟩
  | handshake | beginTest | endTest | setSystemTime | other => cases htest

/-- An acknowledgement without data always fits a frame. -/
theorem length_content_ack (encoder : Encoder) (hknown : ∀ code, kind ≠ .other code) :
    (encoder.content (.ack kind .null)).length ≤ maxContent := by
  unfold Encoder.content
  cases kind with
  | handshake | beginTest | endTest | singleTest | setSystemTime | execOrder | combinedTest =>
    cases encoder.legacyMarker <;> decide +kernel
  | other code => exact absurd rfl (hknown code)

theorem ackEntries_eq (hpolicy : dispatcher.link.outbound.policy = .dropOldest)
    (hopen : dispatcher.link.outbound.closed = false) (htest : kind.isTestInvocation = true)
    (sequence : UInt16) :
    dispatcher.ackEntries kind .null sequence =
      [.acked kind sequence
        (assemble sequence (dispatcher.link.codec.encoder.content (.ack kind .null)))] := by
  have hknown : ∀ code, kind ≠ .other code := by
    rintro code rfl
    cases htest
  have hfits := length_content_ack dispatcher.link.codec.encoder hknown
  rw [ackEntries, (Link.queued?_eq_some_iff hpolicy).mpr ⟨hfits, hopen, rfl⟩]
  rfl

/-- Behind its submission a test waits, or the pool has refused it. -/
theorem whereabouts_submitTest (hgone : dispatcher.Gone dispatcher.outstanding.next) :
    Whereabouts (dispatcher.submitTest kind command executor) dispatcher.outstanding.next
        (dispatcher.testJob kind command executor) ∧
      (dispatcher.pool.takesJob = false →
        (dispatcher.submitTest kind command executor).Gone dispatcher.outstanding.next) := by
  rcases dispatcher.submitTest_eq kind command executor with ⟨htakes, heq⟩ | ⟨_, heq⟩
  · rw [heq, htakes]
    refine ⟨.waiting ?_ hgone.running, fun h => by cases h⟩
    show (dispatcher.pool.pending ++ [dispatcher.testJob kind command executor]).filter _ = _
    have htest : isTest dispatcher.outstanding.next
        (dispatcher.testJob kind command executor) = true := beq_self_eq_true _
    rw [List.filter_append, hgone.pending, List.nil_append, List.filter_cons_of_pos htest,
      List.filter_nil]
  · rw [heq]
    exact ⟨.gone ⟨hgone.pending, hgone.running⟩, fun _ => ⟨hgone.pending, hgone.running⟩⟩

end Dispatch

/-! ## The account -/

/-- Neither registry has an entry of a test. -/
structure Cleared (dispatcher : Dispatcher) (test guard : Nat) : Prop where
  outstanding : ∀ token, (test, token) ∉ dispatcher.outstanding.entries
  live : ∀ token, (guard, token) ∉ dispatcher.pool.live.entries

/-- The guards of a test that is gone are dropped. -/
theorem Registered.cleared {dispatcher : Dispatcher} {test guard : Nat}
    (h : Registered dispatcher) (hguards : Guards dispatcher guard test)
    (hgone : dispatcher.Gone test) : Cleared dispatcher test guard where
  outstanding := by
    intro token hentry
    exact gone_iff.mp hgone (some token) (h.outstanding (test, token) hentry)
  live := by
    intro token hentry
    obtain ⟨job, hjob, hguard, htoken⟩ := h.live (guard, token) hentry
    exact gone_iff.mp hgone (some token) ⟨job, hjob, hguards.only job hjob hguard, htoken⟩

/-- The account of a test from its dispatch on: the dispatchers before and
behind that, the number and the token of the test, what it has to report,
and the run that follows. -/
structure Account (reached behind : Dispatcher) (test : Nat) (token : Token)
    (answer : Option Response) (later : List Action) : Prop where
  once : (reportsOf test (behind.history later)).length ≤ 1
  /-- There is a report if the pool took the test, the test ended, its
  report was due, and the link was open then. -/
  reported : ∀ frame, reportsOf test (behind.history later) = [frame] ↔
    reached.pool.takesJob = true ∧ ∃ before index content,
      behind.EndsAt test later before index ∧
      (behind.actAll before).Due token answer content ∧
      (behind.actAll before).link.outbound.closed = false ∧
      frame = assemble (behind.actAll before).link.codec.encoder.reportSequence content
  /-- A test that the pool took ends at most once, in one of the ways; one
  that it refused does not end. -/
  ended : ∀ before index, behind.EndsAt test later before index →
    reached.pool.takesJob = true ∧
    (∀ before' index', behind.EndsAt test later before' index' →
      before' = before ∧ index' = index) ∧
    Finished (behind.actAll before) test token answer
      ((behind.actAll before).finishEntries index)
      ((behind.actAll before).finishJob index).link.codec.encoder.reportSequence
  /-- A test that was refused or has ended is gone. -/
  gone : (reached.pool.takesJob = false ∨
      ∃ before index, behind.EndsAt test later before index) →
    (behind.actAll later).Gone test
  /-- A test that is gone, also by a shutdown of the pool, is in neither
  registry. -/
  cleared : (behind.actAll later).Gone test →
    (behind.actAll later).Cleared test reached.pool.live.next

/-- The account is read off the course of the test. -/
theorem account_of_course {reached behind : Dispatcher} {test : Nat} {token : Token}
    {job : Job Work} {run : TestRun} {later : List Action}
    (hcourse : Course behind test job later)
    (hpolicy : behind.link.outbound.policy = .dropOldest) (hwork : job.work = .test run)
    (hnumber : run.guard.id = test) (htoken : job.token = some token)
    (hrefused : reached.pool.takesJob = false → behind.Gone test)
    (hlt : test < behind.outstanding.next) (hregistered : Registered behind)
    (hguards : Guards behind reached.pool.live.next test) :
    Account reached behind test token
      (answer? run.executor ⟨run.kind, run.sequence, false⟩ run.payload) later := by
  have htaken : ∀ before index, behind.EndsAt test later before index →
      reached.pool.takesJob = true := by
    intro before index hends
    cases hfull : reached.pool.takesJob with
    | true => rfl
    | false => exact absurd hends (((hrefused hfull).run hlt later).2.2 before index)
  refine ⟨hcourse.length_le_one hpolicy hwork hnumber htoken, ?_, ?_, ?_, ?_⟩
  · intro frame
    rw [hcourse.reportsOf_eq_iff hpolicy hwork hnumber htoken frame]
    constructor
    · rintro ⟨before, index, content, hends, hdue⟩
      exact ⟨htaken before index hends, before, index, content, hends, hdue⟩
    · rintro ⟨_, before, index, content, hends, hdue⟩
      exact ⟨before, index, content, hends, hdue⟩
  · intro before index hends
    refine ⟨htaken before index hends, ?_,
      (hcourse.finished hpolicy hwork hnumber htoken hends).1⟩
    intro before' index' hends'
    cases hcourse with
    | never _ hnever => exact absurd hends (hnever before index)
    | ended _ _ _ _ honce =>
      obtain ⟨rfl, rfl⟩ := honce before index hends
      exact honce before' index' hends'
  · rintro (hfull | ⟨before, index, hends⟩)
    · exact ((hrefused hfull).run hlt later).1
    · cases hcourse with
      | never _ hnever => exact absurd hends (hnever before index)
      | ended _ _ _ _ _ _ _ _ hgone => exact hgone
  · exact (hregistered.actAll later).cleared (hguards.actAll later)

/-- The account of a test that is submitted under a number that no job in
the pool has. -/
theorem account_dispatch {reached : Dispatcher} {command : Command} {kind : CommandKind}
    {executor : Executor} (hkind : command.kind = some kind)
    (htest : kind.isTestInvocation = true)
    (hresolve : reached.registry.resolve command = .ok executor)
    (hpolicy : reached.link.outbound.policy = .dropOldest)
    (hgone : reached.Gone reached.outstanding.next) (hregistered : Registered reached)
    (later : List Action) :
    Account reached (reached.act (.dispatch command)) reached.outstanding.next
      (reached.tokens.child reached.generation).1
      (answer? executor ⟨kind, command.sequence, false⟩ command.payload) later := by
  obtain ⟨hdispatch, hentries⟩ := dispatch_test hkind htest hresolve
  obtain ⟨hwhere, hrefused⟩ := @whereabouts_submitTest
    (reached.ack kind .null command.sequence) command kind executor ⟨hgone.pending, hgone.running⟩
  have hguards := @Registered.guards_submitTest (reached.ack kind .null command.sequence)
    ⟨hregistered.outstanding, hregistered.live, hregistered.below⟩ kind command executor
  rw [← hdispatch] at hwhere hrefused hguards
  have hsubmitted : .submitted reached.outstanding.next reached.pool.takesJob ∈
      reached.entries (.dispatch command) := by
    rw [entries, hentries]
    exact List.mem_append_right _ (List.mem_singleton.mpr rfl)
  have hlt := ((reached.act_advances (.dispatch command)).submitted hsubmitted).2
  have hbehind := (reached.policy_act (.dispatch command)).trans hpolicy
  exact account_of_course (hwhere.run hlt later) hbehind rfl rfl rfl hrefused hlt
    (hregistered.act (.dispatch command)) hguards

/-- The account of what a test command sends.

Take any run from a fresh dispatcher that comes to a test command with an
executor while the link is open, and any way in which it goes on.  The
command is acknowledged, once and under its own number.  The test is
reported at most once and only behind that, and exactly if the pool took
it, a worker ran it to its end, the executor came back with something to
report, the test was not cancelled by then, the report fits a frame, and
the link was open.  What it reports is the response of the executor, or its
failure with the text of it.

A report number is taken where the report is made, also if the link is
closed and the report is lost; the dispatch and all that is no end of a job
take none.  Behind a refusal, an end and a shutdown of the pool neither
registry knows the test.  The last part ties the history to the outbound
queue. -/
theorem test_account (config : Config) (workers jobCapacity : Nat) (registry : Registry)
    (timeHook : Option TimeHook) (earlier later : List Action) (command : Command)
    (kind : CommandKind) (executor : Executor) (hkind : command.kind = some kind)
    (htest : kind.isTestInvocation = true) (hresolve : registry.resolve command = .ok executor)
    (hopen : ((fresh config workers jobCapacity registry timeHook).actAll
      earlier).link.outbound.closed = false) :
    let start := fresh config workers jobCapacity registry timeHook
    let reached := start.actAll earlier
    let behind := reached.act (.dispatch command)
    let test := reached.outstanding.next
    reached.entries (.dispatch command) =
        [.acked kind command.sequence
            (assemble command.sequence (reached.link.codec.encoder.content (.ack kind .null))),
          .submitted test reached.pool.takesJob] ∧
      reportsOf test (start.history earlier) = [] ∧
      Account reached behind test (reached.tokens.child reached.generation).1
        (answer? executor ⟨kind, command.sequence, false⟩ command.payload) later ∧
      behind.link.codec = reached.link.codec ∧
      (∀ before action after, later = before ++ action :: after →
        (∀ index, action ≠ .finishJob index) →
          ((behind.actAll before).act action).link.codec = (behind.actAll before).link.codec) ∧
      start.history (earlier ++ .dispatch command :: later) =
        start.history earlier ++ (reached.entries (.dispatch command) ++ behind.history later) ∧
      (start.actAll (earlier ++ .dispatch command :: later)).link.outbound =
        (start.history (earlier ++ .dispatch command :: later)).foldl Entry.replay
          start.link.outbound := by
  intro start reached behind test
  have hpolicy : reached.link.outbound.policy = .dropOldest := start.policy_actAll earlier
  have hregistry : reached.registry.resolve command = .ok executor := by
    rw [show reached.registry = registry from start.registry_actAll earlier, hresolve]
  -- A fresh pool holds no test, and from there on the numbers only rise.
  have hempty : ∀ other token, ¬ start.Holds other token := by
    rintro other token ⟨job, hjob, _⟩
    exact absurd hjob List.not_mem_nil
  have hnumbered : Numbered start := fun other token h => absurd h (hempty other token)
  have hgone : reached.Gone test := (hnumbered.actAll earlier).gone
  have hregistered : Registered reached :=
    (registered_fresh config workers jobCapacity registry timeHook).actAll earlier
  refine ⟨?_, ?_, account_dispatch hkind htest hregistry hpolicy hgone hregistered later, ?_, ?_, ?_,
    outbound_actAll start _⟩
  · rw [entries, (dispatch_test hkind htest hregistry).2, ackEntries_eq hpolicy hopen htest]
    rfl
  · refine reportsOf_eq_nil ?_
    intro frame hframe
    have hrenewed : Renewed [] start := fun other token h => absurd h (hempty other token)
    have hsubmitted := hrenewed.submitted_of_mem_history hframe
    exact Nat.lt_irrefl test (submitted_bounds hsubmitted).2
  · exact reached.codec_act fun index h => by cases h
  · rintro before action after rfl hother
    exact (behind.actAll before).codec_act hother
  · rw [history_append]
    rfl

/-- A command that asks for a fan test. -/
def fanCommand : Command :=
  ⟨some .singleTest, 1, .ofMembers [("type", .string "fan")]⟩

/-- The fan passes: the test is taken by a worker, ends, and is reported
under the first number. -/
theorem test_account_passed :
    ∃ executor content,
      oneExecutor.resolve fanCommand = .ok executor ∧
      answer? executor ⟨.singleTest, 1, false⟩ fanCommand.payload =
        some (Response.report 7 fanCommand.payload true) ∧
      content = (Response.report 7 fanCommand.payload true).document.bytes ∧
      reportsOf 0 (((fresh {} 1 4 oneExecutor none).act (.dispatch fanCommand)).history
        [.startJob, .finishJob 0]) = [assemble 0 content] := by
  have hresolve : ∃ executor, oneExecutor.resolve fanCommand = .ok executor ∧
      answer? executor ⟨.singleTest, 1, false⟩ fanCommand.payload =
        some (Response.report 7 fanCommand.payload true) := ⟨_, rfl, rfl⟩
  obtain ⟨executor, hresolve, hanswer⟩ := hresolve
  obtain ⟨_, _, haccount, _⟩ := test_account {} 1 4 oneExecutor none [] [.startJob, .finishJob 0]
    fanCommand .singleTest executor rfl rfl hresolve rfl
  refine ⟨executor, _, hresolve, hanswer, rfl, ?_⟩
  refine (haccount.reported _).mpr ⟨rfl, [.startJob], 0, _, ⟨⟨[], rfl⟩, ⟨_, rfl, rfl⟩⟩,
    ⟨⟨_, hanswer, rfl⟩, rfl, ?_⟩, rfl, rfl⟩
  decide +kernel

end Dispatcher

end TestRig
