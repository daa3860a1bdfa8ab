import TestRig.Proofs.Dispatcher.Account
import TestRig.Proofs.Registry.Routes
import Mathlib.Tactic.IntervalCases

/-!
# Acknowledgements and the command stream

The acknowledgements that a run queues for the transport are those of the
commands that the station recognizes, one for each and in the order of
dispatch, however tests end, are cancelled or are reported in between.

* `Registry.Recognizes` says which commands these are, and
  `Registry.recognized?` computes it.
* `ackContent` is the content of an acknowledgement, written out, and
  `ackOf?` the entry that a command leaves in the history.
* `Configured` keeps what the acknowledgements depend on: the settings and
  the registry do not change in a run.
* `dispatch_of_unrecognized` says that any other command changes nothing.
-/

namespace TestRig

open Json (Value)
open Frame (maxContent assemble)

/-! ## Which commands are acknowledged -/

namespace Registry

variable {registry : Registry} {command : Command}

/-- The station answers the command: it controls the session, sets the
clock, or asks for a test that there is an executor for. -/
structure Recognizes (registry : Registry) (command : Command) (kind : CommandKind) : Prop where
  named : command.kind = some kind
  answered : kind.isSessionControl = true ∨ kind = .setSystemTime ∨
    registry.Routes command.payload kind

/-- The kind of a command that is answered. -/
def recognized? (registry : Registry) (command : Command) : Option CommandKind :=
  command.kind.filter fun kind =>
    kind.isSessionControl || kind = .setSystemTime || (registry.resolve command).isOk

theorem recognized?_eq_some_iff {kind : CommandKind} :
    registry.recognized? command = some kind ↔ registry.Recognizes command kind := by
  have hisOk : (registry.resolve command).isOk = true ↔
      ∃ executor, registry.resolve command = .ok executor := by
    cases registry.resolve command <;> simp [Except.isOk, Except.toBool]
  rw [recognized?, Option.filter_eq_some_iff]
  simp only [Bool.or_eq_true, decide_eq_true_iff, hisOk, or_assoc]
  constructor
  · intro ⟨hkind, hanswered⟩
    exact ⟨hkind, hanswered.imp_right (Or.imp_right (resolve_isOk_iff hkind).mp)⟩
  · intro ⟨hkind, hanswered⟩
    exact ⟨hkind, hanswered.imp_right (Or.imp_right (resolve_isOk_iff hkind).mpr)⟩

end Registry

namespace Dispatcher

/-! ## What an acknowledgement says -/

/-- What an acknowledgement brings: the identity of the station when a
session is opened, and nothing otherwise. -/
def ackData (identity : Identity) (kind : CommandKind) : Value :=
  if kind = .handshake then
    .ofMembers [("model", .string identity.model), ("version", .string identity.version)]
  else .null

/-- The content of the acknowledgement of a command. -/
def ackContent (config : Config) (kind : CommandKind) : Bytes :=
  (if config.legacyContentMarker then [Frame.legacyMarker] else []) ++
    (Value.object [("cmdType", .ofNat 2), ("subCommand", .ofInt kind.code.toInt),
      ("data", ackData config.identity kind), ("result", .string "true"),
      ("desc", .string "okay")]).bytes

/-- The entry that a command leaves in the history when its acknowledgement
is queued; none if it is not answered. -/
def ackOf? (config : Config) (registry : Registry) (command : Command) : Option Entry :=
  (registry.recognized? command).map fun kind =>
    .acked kind command.sequence (assemble command.sequence (ackContent config kind))

def Entry.isAck : Entry → Bool
  | acked _ _ _ => true
  | _ => false

/-- The acknowledgements of a history, in order. -/
def acksIn (told : List Entry) : List Entry :=
  told.filter Entry.isAck

theorem acksIn_append (first second : List Entry) :
    acksIn (first ++ second) = acksIn first ++ acksIn second :=
  List.filter_append ..

theorem acksIn_ackEntries (dispatcher : Dispatcher) (kind : CommandKind) (data : Value)
    (sequence : UInt16) :
    acksIn (dispatcher.ackEntries kind data sequence) =
      dispatcher.ackEntries kind data sequence := by
  refine List.filter_eq_self.mpr ?_
  intro entry hentry
  obtain ⟨frame, rfl⟩ := mem_ackEntries hentry
  rfl

/-- The command that an action answers.  A session-control command whose
generation is cancelled by an action of its own is answered by the
acknowledgement that follows. -/
def Action.asks? : Action → Option Command
  | dispatch command => some command
  | acknowledge kind _ sequence => some ⟨some kind, sequence, .null⟩
  | _ => none

/-- Where a command is dispatched, its own acknowledgement is all there is. -/
theorem acksIn_dispatchEntries (dispatcher : Dispatcher) (command : Command) :
    acksIn (dispatcher.dispatchEntries command) =
      match dispatcher.registry.recognized? command with
      | some kind => dispatcher.ackEntries kind (dispatcher.sessionData kind) command.sequence
      | none => [] := by
  unfold dispatchEntries Registry.recognized?
  cases hkind : command.kind with
  | none => rfl
  | some kind =>
    cases kind with
    | setSystemTime => exact acksIn_ackEntries ..
    | handshake | beginTest | endTest => exact acksIn_ackEntries ..
    | singleTest | execOrder | combinedTest =>
      cases hresolve : dispatcher.registry.resolve command with
      | error failure => rfl
      | ok executor =>
        show acksIn (dispatcher.ackEntries _ .null command.sequence ++ _) = _
        rw [acksIn_append, acksIn_ackEntries]
        exact List.append_nil _
    | other code =>
      have hnone : (dispatcher.registry.resolve command).isOk = false := by
        rw [Registry.resolve, hkind]
        rfl
      simp [Option.filter, CommandKind.isSessionControl, hnone, acksIn]

/-- A command that is not answered changes nothing. -/
theorem dispatch_of_unrecognized {dispatcher : Dispatcher} {command : Command}
    (h : dispatcher.registry.recognized? command = none) :
    dispatcher.dispatch command = dispatcher := by
  unfold dispatch startTest
  cases hkind : command.kind with
  | none => rfl
  | some kind =>
    rw [Registry.recognized?, hkind] at h
    cases kind with
    | setSystemTime | handshake | beginTest | endTest => cases h
    | other code => rfl
    | singleTest | execOrder | combinedTest =>
      cases hresolve : dispatcher.registry.resolve command with
      | error failure => rfl
      | ok executor =>
        rw [hresolve] at h
        cases h

/-- What is told of an action that answers no command holds no
acknowledgement. -/
theorem acksIn_entries_of_silent {dispatcher : Dispatcher} {action : Action}
    (h : action.asks? = none) : acksIn (dispatcher.entries action) = [] := by
  refine List.filter_eq_nil_iff.mpr ?_
  intro entry hentry hack
  cases action with
  | dispatch | acknowledge => cases h
  | finishJob index =>
    obtain ⟨job, _, run, frame, _, _, rfl⟩ := mem_finishEntries hentry
    cases hack
  | startJob | shutdownPool => exact absurd hentry List.not_mem_nil
  | cancelGeneration | drain | close =>
    rw [List.mem_singleton.mp hentry] at hack
    cases hack

/-! ## What the acknowledgements depend on -/

/-- The dispatcher works as it was set up. -/
structure Configured (config : Config) (registry : Registry) (timeHook : Option TimeHook)
    (dispatcher : Dispatcher) : Prop where
  setup_eq : dispatcher.setup = (registry, config.identity, timeHook)
  policy : dispatcher.link.outbound.policy = .dropOldest
  marker : dispatcher.link.codec.encoder.legacyMarker = config.legacyContentMarker

theorem configured_fresh (config : Config) (workers jobCapacity : Nat) (registry : Registry)
    (timeHook : Option TimeHook) :
    Configured config registry timeHook
      (fresh config workers jobCapacity registry timeHook) :=
  ⟨rfl, rfl, rfl⟩

theorem legacyMarker_sendReport (dispatcher : Dispatcher) (job : Job Work) (run : TestRun) :
    (dispatcher.sendReport job run).link.codec.encoder.legacyMarker =
      dispatcher.link.codec.encoder.legacyMarker := by
  unfold sendReport
  cases TestRun.response? run with
  | none => rfl
  | some response =>
    dsimp only
    split_ifs
    · rfl
    · rw [Link.encoder_sendReport]
      split_ifs <;> rfl

theorem legacyMarker_act (dispatcher : Dispatcher) (action : Action) :
    (dispatcher.act action).link.codec.encoder.legacyMarker =
      dispatcher.link.codec.encoder.legacyMarker := by
  cases action with
  | finishJob index =>
    show (dispatcher.finishJob index).link.codec.encoder.legacyMarker = _
    cases hjob : dispatcher.pool.running[index]? with
    | none =>
      unfold finishJob
      rw [hjob]
    | some job =>
      cases hwork : job.work with
      | test run => rw [link_finishJob hjob hwork, legacyMarker_sendReport]
      | clock payload =>
        rw [finishJob_eq hjob]
        show ((dispatcher.complete job).forget job).link.codec.encoder.legacyMarker = _
        rw [link_forget, complete, hwork]
  | _ => rw [codec_act dispatcher (by rintro index ⟨⟩)]

section Configured

variable {config : Config} {registry : Registry} {timeHook : Option TimeHook}
  {dispatcher : Dispatcher} {kind : CommandKind}

theorem Configured.act (h : Configured config registry timeHook dispatcher) (action : Action) :
    Configured config registry timeHook (dispatcher.act action) where
  setup_eq := (dispatcher.setup_act action).trans h.setup_eq
  policy := (dispatcher.policy_act action).trans h.policy
  marker := (dispatcher.legacyMarker_act action).trans h.marker

theorem Configured.actAll (h : Configured config registry timeHook dispatcher)
    (actions : List Action) :
    Configured config registry timeHook (dispatcher.actAll actions) :=
  actAll_preserves (fun _ action h => h.act action) h actions

theorem Configured.registry_eq (h : Configured config registry timeHook dispatcher) :
    dispatcher.registry = registry :=
  congrArg Prod.fst h.setup_eq

theorem Configured.timeHook_eq (h : Configured config registry timeHook dispatcher) :
    dispatcher.timeHook = timeHook :=
  congrArg (·.2.2) h.setup_eq

theorem Configured.sessionData_eq (h : Configured config registry timeHook dispatcher) :
    dispatcher.sessionData kind = ackData config.identity kind := by
  have hidentity : dispatcher.identity = config.identity := congrArg (·.2.1) h.setup_eq
  rw [sessionData, hidentity]
  rfl

/-- The acknowledgement that is sent is the one that was written out. -/
theorem Configured.content_eq (h : Configured config registry timeHook dispatcher) :
    dispatcher.link.codec.encoder.content (.ack kind (ackData config.identity kind)) =
      ackContent config kind := by
  rw [Encoder.content, h.marker]
  rfl

/-- The acknowledgement of a command that is answered is queued while the
link is open. -/
theorem Configured.ackEntries_eq (h : Configured config registry timeHook dispatcher)
    (hhandshake : (ackContent config .handshake).length ≤ maxContent)
    (hopen : dispatcher.link.outbound.closed = false) (hknown : ∀ code, kind ≠ .other code)
    (sequence : UInt16) :
    dispatcher.ackEntries kind (ackData config.identity kind) sequence =
      [.acked kind sequence (assemble sequence (ackContent config kind))] := by
  have hfits : (ackContent config kind).length ≤ maxContent := by
    by_cases hkind : kind = .handshake
    · rw [hkind]
      exact hhandshake
    · rw [← h.content_eq, ackData, if_neg hkind]
      exact length_content_ack _ hknown
  rw [← h.content_eq] at hfits
  rw [ackEntries, (Link.queued?_eq_some_iff h.policy).mpr ⟨hfits, hopen, rfl⟩, h.content_eq]
  rfl

theorem not_other_of_recognizes {command : Command} (h : registry.Recognizes command kind)
    (code : Int64) : kind ≠ .other code := by
  rintro rfl
  rcases h.answered with hcontrol | hclock | hroute
  · cases hcontrol
  · cases hclock
  · cases hroute

/-! ## One action -/

/-- The second half of a session-control command answers with what the whole
command would. -/
def Action.Proper (config : Config) : Action → Prop
  | acknowledge kind data _ => kind.isSessionControl = true ∧ data = ackData config.identity kind
  | _ => True

/-- An action that answers a command queues its acknowledgement, and no
other action queues one. -/
theorem Configured.acksIn_entries (h : Configured config registry timeHook dispatcher)
    (hhandshake : (ackContent config .handshake).length ≤ maxContent) {action : Action}
    (hproper : action.Proper config)
    (hopen : action.asks?.isSome = true → dispatcher.link.outbound.closed = false) :
    acksIn (dispatcher.entries action) =
      (action.asks?.bind (ackOf? config registry)).toList := by
  cases hasks : action.asks? with
  | none => exact acksIn_entries_of_silent hasks
  | some command =>
    have hlink : dispatcher.link.outbound.closed = false := hopen (by rw [hasks]; rfl)
    cases action with
    | dispatch other =>
      cases hasks
      show acksIn (dispatcher.dispatchEntries command) = (ackOf? config registry command).toList
      rw [acksIn_dispatchEntries, h.registry_eq, ackOf?]
      cases hrecognized : registry.recognized? command with
      | none => rfl
      | some kind =>
        have hknown := not_other_of_recognizes (Registry.recognized?_eq_some_iff.mp hrecognized)
        dsimp only
        rw [h.sessionData_eq, h.ackEntries_eq hhandshake hlink hknown]
        rfl
    | acknowledge kind data sequence =>
      cases hasks
      obtain ⟨hcontrol, rfl⟩ := hproper
      have hknown : ∀ code, kind ≠ .other code := by
        rintro code rfl
        cases hcontrol
      have hrecognized : registry.recognized? ⟨some kind, sequence, .null⟩ = some kind :=
        Registry.recognized?_eq_some_iff.mpr ⟨rfl, .inl hcontrol⟩
      show acksIn (dispatcher.ackEntries kind _ sequence) =
        (ackOf? config registry ⟨some kind, sequence, .null⟩).toList
      rw [acksIn_ackEntries, h.ackEntries_eq hhandshake hlink hknown, ackOf?, hrecognized]
      rfl
    | _ => cases hasks

/-! ## Runs -/

/-- The outbound queue is open where a run answers a command. -/
def OpenWhereAsked (dispatcher : Dispatcher) (actions : List Action) : Prop :=
  ∀ before action after, actions = before ++ action :: after → action.asks?.isSome = true →
    (dispatcher.actAll before).link.outbound.closed = false

theorem Configured.acksIn_history (h : Configured config registry timeHook dispatcher)
    (hhandshake : (ackContent config .handshake).length ≤ maxContent) {actions : List Action}
    (hproper : ∀ action ∈ actions, action.Proper config)
    (hopen : dispatcher.OpenWhereAsked actions) :
    acksIn (dispatcher.history actions) =
      (actions.filterMap Action.asks?).filterMap (ackOf? config registry) := by
  induction actions generalizing dispatcher with
  | nil => rfl
  | cons action rest ih =>
    have hrest : (dispatcher.act action).OpenWhereAsked rest := by
      intro before other after hsplit
      exact hopen (action :: before) other after (by rw [hsplit, List.cons_append])
    have hfirst := h.acksIn_entries hhandshake (hproper action List.mem_cons_self)
      (hopen [] action rest rfl)
    rw [history, acksIn_append, hfirst,
      ih (h.act action) (fun other hother => hproper other (List.mem_cons_of_mem _ hother)) hrest]
    cases hasks : action.asks? with
    | none => rw [List.filterMap_cons_none hasks]; rfl
    | some command =>
      rw [List.filterMap_cons_some hasks]
      show (ackOf? config registry command).toList ++ _ = _
      cases hentry : ackOf? config registry command with
      | none => rw [List.filterMap_cons_none hentry]; rfl
      | some entry => rw [List.filterMap_cons_some hentry]; rfl

end Configured

theorem pool_setClock (dispatcher : Dispatcher) (payload : Value) :
    (dispatcher.setClock payload).pool = match dispatcher.timeHook with
      | none => dispatcher.pool
      | some _ => (dispatcher.pool.submit (.clock payload)).2 := by
  unfold setClock
  cases dispatcher.timeHook <;> rfl

/-- What a run does where it dispatches a command, apart from the
acknowledgement: a command that is not answered does nothing, and one that
sets the clock has the time hook submitted, if there is one. -/
structure Answers (timeHook : Option TimeHook) (registry : Registry) (command : Command)
    (reached behind : Dispatcher) : Prop where
  /-- The link, the pool, the tokens, the generation, the outstanding tests
  and the number of the next report stay what they were. -/
  dropped : (∀ kind, ¬ registry.Recognizes command kind) → behind = reached
  clock : command.kind = some .setSystemTime →
    behind.generation = reached.generation ∧ behind.tokens = reached.tokens ∧
      behind.outstanding = reached.outstanding ∧
      behind.pool = match timeHook with
        | none => reached.pool
        | some _ => (reached.pool.submit (.clock command.payload)).2

theorem Configured.answers {config : Config} {registry : Registry}
    {timeHook : Option TimeHook} {dispatcher : Dispatcher}
    (h : Configured config registry timeHook dispatcher) (command : Command) :
    Answers timeHook registry command dispatcher (dispatcher.act (.dispatch command)) where
  dropped := by
    intro hunknown
    refine dispatch_of_unrecognized (Option.eq_none_iff_forall_ne_some.mpr ?_)
    intro kind hkind
    rw [h.registry_eq] at hkind
    exact hunknown kind (Registry.recognized?_eq_some_iff.mp hkind)
  clock := by
    intro hkind
    have hdispatch : dispatcher.act (.dispatch command) =
        (dispatcher.ack .setSystemTime .null command.sequence).setClock command.payload := by
      rw [Dispatcher.act, Dispatcher.dispatch, hkind]
    obtain ⟨htokens, hgeneration, houtstanding⟩ :=
      (dispatcher.ack .setSystemTime .null command.sequence).setClock_kept command.payload
    rw [hdispatch, pool_setClock, ← h.timeHook_eq]
    exact ⟨hgeneration, htokens, houtstanding, rfl⟩

/-- The acknowledgements of a run are those of its commands.

Take any run from a fresh dispatcher that answers commands while the link
is open, with an identity that fits a frame; tests start, end and are
cancelled anywhere in it.  The acknowledgements that it queues are, in the
order of dispatch, one for each command that is recognized, under the
sequence number of the command and with its code, a positive result, the
note "okay", and the identity as data for a handshake and none for the
others.  A command is recognized if it controls the session, sets the clock,
or names a test that there is an executor for; any other changes nothing at
all.  The last part ties the history to the outbound queue. -/
theorem acks_of_commands (config : Config) (workers jobCapacity : Nat) (registry : Registry)
    (timeHook : Option TimeHook) (actions : List Action)
    (hhandshake : (ackContent config .handshake).length ≤ maxContent)
    (hproper : ∀ action ∈ actions, action.Proper config)
    (hopen : (fresh config workers jobCapacity registry timeHook).OpenWhereAsked actions) :
    let start := fresh config workers jobCapacity registry timeHook
    acksIn (start.history actions) =
        (actions.filterMap Action.asks?).filterMap (ackOf? config registry) ∧
      (∀ command kind, registry.recognized? command = some kind ↔
        registry.Recognizes command kind) ∧
      (∀ before command after, actions = before ++ .dispatch command :: after →
        Answers timeHook registry command (start.actAll before)
          ((start.actAll before).act (.dispatch command))) ∧
      (start.actAll actions).link.outbound =
        (start.history actions).foldl Entry.replay start.link.outbound := by
  intro start
  have hstart := configured_fresh config workers jobCapacity registry timeHook
  refine ⟨hstart.acksIn_history hhandshake hproper hopen,
    fun command kind => Registry.recognized?_eq_some_iff, ?_, outbound_actAll start actions⟩
  intro before command after _
  exact (hstart.actAll before).answers command

/-- A session opens, a test passes and the clock is set; a command without a
kind, and a test that nobody knows, stay without an answer. -/
def openingRun : List Action :=
  [.dispatch ⟨some .handshake, 1, .null⟩, .dispatch ⟨none, 2, .null⟩, askForTest 3, .startJob,
    .dispatch ⟨some .singleTest, 4, .ofMembers [("type", .string "door")]⟩, .finishJob 0,
    .dispatch ⟨some .setSystemTime, 5, .null⟩, .cancelGeneration, .close]

/-- A station with one executor and a clock that can be set. -/
def withClock : Dispatcher :=
  fresh {} 1 4 oneExecutor (some fun _ => .ok ())

theorem openWhereAsked_openingRun : withClock.OpenWhereAsked openingRun := by
  intro before action after hsplit hasks
  have hbefore : before = openingRun.take before.length := by
    rw [hsplit, List.take_left]
  have hlength : before.length < 9 := by
    have h := congrArg List.length hsplit
    rw [List.length_append, List.length_cons] at h
    change 9 = _ at h
    omega
  rw [hbefore]
  generalize before.length = n at hlength
  interval_cases n <;> rfl

/-- Three acknowledgements are queued: those of the handshake, of the known
test and of the clock. -/
theorem acks_of_commands_opening :
    (ackContent {} .handshake).length ≤ maxContent ∧
      (∀ action ∈ openingRun, action.Proper {}) ∧ withClock.OpenWhereAsked openingRun ∧
      acksIn (withClock.history openingRun) =
        [.acked .handshake 1 (assemble 1 (ackContent {} .handshake)),
          .acked .singleTest 3 (assemble 3 (ackContent {} .singleTest)),
          .acked .setSystemTime 5 (assemble 5 (ackContent {} .setSystemTime))] := by
  have hhandshake : (ackContent {} .handshake).length ≤ maxContent := by decide +kernel
  have hproper : ∀ action ∈ openingRun, action.Proper {} := by
    simp [openingRun, askForTest, Action.Proper]
  have h := acks_of_commands {} 1 4 oneExecutor (some fun _ => .ok ()) openingRun hhandshake
    hproper openWhereAsked_openingRun
  exact ⟨hhandshake, hproper, openWhereAsked_openingRun, h.1.trans rfl⟩

end Dispatcher

end TestRig
