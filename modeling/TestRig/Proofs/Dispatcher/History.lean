import TestRig.Dispatcher.Basic
import TestRig.Proofs.Link.Outbound
import TestRig.Proofs.Pool.Jobs

/-!
# Runs of a dispatcher and their history

A run is a list of actions in any order: commands are dispatched, the
generation is cancelled, workers take jobs and jobs end, the pool is shut
down, and the transport takes frames or closes the link.  The history of a
run has an entry for each thing that can be told apart afterwards.

* `act` is one action and `actAll` a list of them.
* `entries` is what one action adds to the history, and `history` that of
  a run.
* `outbound_actAll` is the account that makes the history one of the program:
  replayed on the outbound queue, it gives the queue behind the run.
-/

namespace TestRig

open Json (Value)

namespace Dispatcher

/-! ## Actions -/

/-- What can happen to a dispatcher. -/
inductive Action where
  | dispatch (command : Command)
  /-- An acknowledgement is sent alone.  Behind `cancelGeneration` it is the
  second half of a session-control command, and lets the workers act in
  between. -/
  | acknowledge (kind : CommandKind) (data : Value) (sequence : UInt16)
  /-- The generation is cancelled from outside. -/
  | cancelGeneration
  /-- A free worker takes the oldest waiting job, if there are both. -/
  | startJob
  /-- The running job at a place ends. -/
  | finishJob (index : Nat)
  | shutdownPool
  /-- The transport takes the oldest outbound frame. -/
  | drain
  /-- The link takes no more outbound frames. -/
  | close

/-- The dispatcher behind an action. -/
def act (dispatcher : Dispatcher) : Action → Dispatcher
  | .dispatch command => dispatcher.dispatch command
  | .acknowledge kind data sequence => dispatcher.ack kind data sequence
  | .cancelGeneration => dispatcher.cancelGeneration.2
  | .startJob => dispatcher.startJob?.getD dispatcher
  | .finishJob index => dispatcher.finishJob index
  | .shutdownPool => dispatcher.shutdownPool
  | .drain => { dispatcher with link := dispatcher.link.drain.2 }
  | .close => { dispatcher with link := dispatcher.link.close }

/-- The dispatcher behind a run. -/
def actAll (dispatcher : Dispatcher) (actions : List Action) : Dispatcher :=
  actions.foldl act dispatcher

/-- What every action preserves, a run preserves. -/
theorem actAll_preserves {motive : Dispatcher → Prop}
    (hact : ∀ dispatcher action, motive dispatcher → motive (dispatcher.act action))
    {dispatcher : Dispatcher} (h : motive dispatcher) (actions : List Action) :
    motive (dispatcher.actAll actions) := by
  induction actions generalizing dispatcher with
  | nil => exact h
  | cons action rest ih => exact ih (hact dispatcher action h)

/-! ## Entries -/

/-- An entry of the history.  A test is known by the number of its guard
among the outstanding tests, which is never given out twice. -/
inductive Entry where
  | superseded
  /-- The acknowledgement of a command was queued for the transport. -/
  | acked (kind : CommandKind) (sequence : UInt16) (frame : Bytes)
  /-- A test was submitted to the pool, which took it or did not. -/
  | submitted (test : Nat) (accepted : Bool)
  /-- The report of a test was queued for the transport. -/
  | reported (test : Nat) (frame : Bytes)
  | drained
  | closed

/-- What an entry says about the outbound queue. -/
def Entry.replay (queue : Queue Bytes) : Entry → Queue Bytes
  | acked _ _ frame => (queue.push frame).2
  | reported _ frame => (queue.push frame).2
  | drained => queue.tryPop.2
  | closed => queue.close
  | superseded => queue
  | submitted _ _ => queue

/-- The entry of an acknowledgement that is queued. -/
def ackEntries (dispatcher : Dispatcher) (kind : CommandKind) (data : Value)
    (sequence : UInt16) : List Entry :=
  ((dispatcher.link.queued? (.ack kind data) sequence).map (.acked kind sequence)).toList

/-- What a session-control command is answered with. -/
def sessionData (dispatcher : Dispatcher) (kind : CommandKind) : Value :=
  if kind = .handshake then identityDocument dispatcher.identity else .null

/-- What the dispatch of a command adds to the history. -/
def dispatchEntries (dispatcher : Dispatcher) (command : Command) : List Entry :=
  match command.kind with
  | none => []
  | some (.other _) => []
  | some .setSystemTime => dispatcher.ackEntries .setSystemTime .null command.sequence
  | some kind =>
    if kind.isSessionControl then
      .superseded :: dispatcher.ackEntries kind (dispatcher.sessionData kind) command.sequence
    else
      match dispatcher.registry.resolve command with
      | .error _ => []
      | .ok _ =>
        dispatcher.ackEntries kind .null command.sequence ++
          [.submitted dispatcher.outstanding.next dispatcher.pool.takesJob]

/-- What the end of a test adds to the history. -/
def reportEntries (dispatcher : Dispatcher) (job : Job Work) (run : TestRun) : List Entry :=
  match TestRun.response? run with
  | none => []
  | some response =>
    if dispatcher.jobCancelled job then []
    else
      ((dispatcher.link.queued? response dispatcher.link.codec.encoder.reportSequence).map
        (.reported run.guard.id)).toList

/-- What the end of a job adds to the history. -/
def finishEntries (dispatcher : Dispatcher) (index : Nat) : List Entry :=
  match dispatcher.pool.running[index]? with
  | none => []
  | some job =>
    match job.work with
    | .test run => dispatcher.reportEntries job run
    | .clock _ => []

/-- What an action adds to the history. -/
def entries (dispatcher : Dispatcher) : Action → List Entry
  | .dispatch command => dispatcher.dispatchEntries command
  | .acknowledge kind data sequence => dispatcher.ackEntries kind data sequence
  | .cancelGeneration => [.superseded]
  | .startJob => []
  | .finishJob index => dispatcher.finishEntries index
  | .shutdownPool => []
  | .drain => [.drained]
  | .close => [.closed]

/-- The history of a run, earliest entry first. -/
def history (dispatcher : Dispatcher) : List Action → List Entry
  | [] => []
  | action :: rest => dispatcher.entries action ++ (dispatcher.act action).history rest

theorem history_append (dispatcher : Dispatcher) (first second : List Action) :
    dispatcher.history (first ++ second) =
      dispatcher.history first ++ (dispatcher.actAll first).history second := by
  induction first generalizing dispatcher with
  | nil => rfl
  | cons action rest ih =>
    rw [List.cons_append, history, history, ih, List.append_assoc]
    rfl

/-- What every action preserves while it adds to the history, a run
preserves. -/
theorem history_preserves {motive : List Entry → Dispatcher → Prop}
    (hact : ∀ told dispatcher action, motive told dispatcher →
      motive (told ++ dispatcher.entries action) (dispatcher.act action))
    {told : List Entry} {dispatcher : Dispatcher} (h : motive told dispatcher)
    (actions : List Action) :
    motive (told ++ dispatcher.history actions) (dispatcher.actAll actions) := by
  induction actions generalizing told dispatcher with
  | nil =>
    rw [history, List.append_nil]
    exact h
  | cons action rest ih =>
    rw [history, ← List.append_assoc]
    exact ih (hact told dispatcher action h)

/-! ## The account of the outbound queue -/

/-- What the dispatch of a command can do, with its entries. -/
inductive Dispatched (dispatcher : Dispatcher) (command : Command) :
    List Entry → Dispatcher → Prop where
  /-- The command has no known kind, or no executor. -/
  | dropped : Dispatched dispatcher command [] dispatcher
  /-- The clock is to be set. -/
  | clock (hkind : command.kind = some .setSystemTime) :
      Dispatched dispatcher command
        (dispatcher.ackEntries .setSystemTime .null command.sequence)
        ((dispatcher.ack .setSystemTime .null command.sequence).setClock command.payload)
  | control (kind : CommandKind) (hkind : command.kind = some kind)
      (hcontrol : kind.isSessionControl = true) :
      Dispatched dispatcher command
        (.superseded :: dispatcher.ackEntries kind (dispatcher.sessionData kind) command.sequence)
        (dispatcher.controlSession kind command.sequence)
  /-- A test with an executor. -/
  | test (kind : CommandKind) (executor : Executor) (hkind : command.kind = some kind)
      (htest : kind.isTestInvocation = true)
      (hresolve : dispatcher.registry.resolve command = .ok executor) :
      Dispatched dispatcher command
        (dispatcher.ackEntries kind .null command.sequence ++
          [.submitted dispatcher.outstanding.next dispatcher.pool.takesJob])
        ((dispatcher.ack kind .null command.sequence).submitTest kind command executor)

theorem startTest_cases {dispatcher : Dispatcher} {command : Command} {kind : CommandKind}
    (hkind : command.kind = some kind) (htest : kind.isTestInvocation = true) :
    Dispatched dispatcher command
      (match dispatcher.registry.resolve command with
      | .error _ => []
      | .ok _ =>
        dispatcher.ackEntries kind .null command.sequence ++
          [.submitted dispatcher.outstanding.next dispatcher.pool.takesJob])
      (dispatcher.startTest kind command) := by
  unfold startTest
  cases hresolve : dispatcher.registry.resolve command with
  | error failure => exact .dropped
  | ok executor => exact .test kind executor hkind htest hresolve

theorem dispatch_cases (dispatcher : Dispatcher) (command : Command) :
    Dispatched dispatcher command (dispatcher.dispatchEntries command)
      (dispatcher.dispatch command) := by
  unfold dispatchEntries dispatch
  cases hkind : command.kind with
  | none => exact .dropped
  | some kind =>
    cases kind with
    | other code => exact .dropped
    | setSystemTime => exact .clock hkind
    | handshake | beginTest | endTest => exact .control _ hkind rfl
    | singleTest | execOrder | combinedTest => exact startTest_cases hkind rfl

theorem replay_ackEntries (dispatcher : Dispatcher) (kind : CommandKind) (data : Value)
    (sequence : UInt16) :
    (dispatcher.ackEntries kind data sequence).foldl Entry.replay dispatcher.link.outbound =
      (dispatcher.ack kind data sequence).link.outbound := by
  show _ = (dispatcher.link.sendAck (.ack kind data) sequence).2.outbound
  rw [Link.outbound_sendAck, ackEntries]
  cases dispatcher.link.queued? (.ack kind data) sequence <;> rfl

theorem link_setClock (dispatcher : Dispatcher) (payload : Value) :
    (dispatcher.setClock payload).link = dispatcher.link := by
  unfold setClock
  split <;> rfl

theorem link_submitTest (dispatcher : Dispatcher) (kind : CommandKind) (command : Command)
    (executor : Executor) :
    (dispatcher.submitTest kind command executor).link = dispatcher.link := by
  unfold submitTest
  dsimp only
  split <;> rfl

theorem replay_dispatchEntries (dispatcher : Dispatcher) (command : Command) :
    (dispatcher.dispatchEntries command).foldl Entry.replay dispatcher.link.outbound =
      (dispatcher.dispatch command).link.outbound := by
  have h := dispatch_cases dispatcher command
  generalize dispatcher.dispatchEntries command = told at h ⊢
  generalize dispatcher.dispatch command = after at h ⊢
  cases h with
  | dropped => rfl
  | clock => rw [link_setClock, replay_ackEntries]
  | control kind => exact replay_ackEntries dispatcher.cancelGeneration.2 kind _ _
  | test kind executor =>
    rw [List.foldl_append, replay_ackEntries, link_submitTest]
    rfl

theorem replay_reportEntries (dispatcher : Dispatcher) (job : Job Work) (run : TestRun) :
    (dispatcher.reportEntries job run).foldl Entry.replay dispatcher.link.outbound =
      (dispatcher.sendReport job run).link.outbound := by
  unfold reportEntries sendReport
  cases TestRun.response? run with
  | none => rfl
  | some response =>
    dsimp only
    split_ifs
    · rfl
    · show _ = (dispatcher.link.sendReport response).2.outbound
      rw [Link.outbound_sendReport]
      cases dispatcher.link.queued? response dispatcher.link.codec.encoder.reportSequence <;> rfl

theorem link_forget (dispatcher : Dispatcher) (job : Job Work) :
    (dispatcher.forget job).link = dispatcher.link := by
  unfold forget
  split <;> rfl

theorem replay_finishEntries (dispatcher : Dispatcher) (index : Nat) :
    (dispatcher.finishEntries index).foldl Entry.replay dispatcher.link.outbound =
      (dispatcher.finishJob index).link.outbound := by
  unfold finishEntries finishJob
  cases dispatcher.pool.running[index]? with
  | none => rfl
  | some job =>
    show _ = ((dispatcher.complete job).forget job).link.outbound
    rw [link_forget, complete]
    dsimp only
    cases job.work with
    | test run => exact replay_reportEntries dispatcher job run
    | clock payload => rfl

/-- What is not among the outstanding tests stays when jobs are forgotten. -/
theorem foldl_forget_eq {α : Type} {view : Dispatcher → α}
    (h : ∀ dispatcher job, view (forget dispatcher job) = view dispatcher)
    (jobs : List (Job Work)) (dispatcher : Dispatcher) :
    view (jobs.foldl forget dispatcher) = view dispatcher := by
  induction jobs generalizing dispatcher with
  | nil => rfl
  | cons job rest ih => rw [List.foldl_cons, ih, h]

theorem link_foldl_forget (dispatcher : Dispatcher) (jobs : List (Job Work)) :
    (jobs.foldl forget dispatcher).link = dispatcher.link :=
  foldl_forget_eq link_forget jobs dispatcher

/-- What an action does to the outbound queue is what its entries say. -/
theorem outbound_act (dispatcher : Dispatcher) (action : Action) :
    (dispatcher.act action).link.outbound =
      (dispatcher.entries action).foldl Entry.replay dispatcher.link.outbound := by
  cases action with
  | dispatch command => exact (replay_dispatchEntries dispatcher command).symm
  | acknowledge kind data sequence =>
    exact (replay_ackEntries dispatcher kind data sequence).symm
  | cancelGeneration => rfl
  | startJob =>
    show (dispatcher.startJob?.getD dispatcher).link.outbound = _
    unfold startJob?
    cases dispatcher.pool.start? dispatcher.begin <;> rfl
  | finishJob index => exact (replay_finishEntries dispatcher index).symm
  | shutdownPool =>
    show (List.foldl forget _ _).link.outbound = _
    rw [link_foldl_forget]
    rfl
  | drain => rfl
  | close => rfl

/-- The outbound queue behind a run is the history of the run, replayed on
the queue before it. -/
theorem outbound_actAll (dispatcher : Dispatcher) (actions : List Action) :
    (dispatcher.actAll actions).link.outbound =
      (dispatcher.history actions).foldl Entry.replay dispatcher.link.outbound := by
  induction actions generalizing dispatcher with
  | nil => rfl
  | cons action rest ih =>
    rw [history, List.foldl_append, ← outbound_act]
    exact ih (dispatcher.act action)

end Dispatcher

end TestRig
