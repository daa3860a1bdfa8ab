import TestRig.Proofs.Dispatcher.Step

/-!
# Generations and the order of reports

No report of a superseded test is queued behind the point at which its
generation was superseded.  Two invariants of a run carry this.

* `Orderly`: every test in the pool descends from the current generation,
  or is cancelled already.  Superseding the generation therefore leaves no
  test in the pool that is not cancelled.
* `Renewed`: every test in the pool is cancelled, or was submitted in a
  given part of the history.  It holds of the empty part where a
  generation is superseded, and the part grows with the run.  A test that
  is reported is not cancelled, so it was submitted behind that point.

The numbers of tests rise along a run (`submitted_bounds`), so a test that
was submitted before that point is none of those.
-/

namespace TestRig.Dispatcher

/-- The action supersedes the generation: a session-control command, or a
cancellation from outside. -/
def Action.supersedes : Action → Bool
  | .dispatch command => command.kind.any CommandKind.isSessionControl
  | .cancelGeneration => true
  | _ => false

/-! ## Numbers of tests -/

theorem next_le_actAll (dispatcher : Dispatcher) (actions : List Action) :
    dispatcher.outstanding.next ≤ (dispatcher.actAll actions).outstanding.next :=
  actAll_preserves (fun before action h => Nat.le_trans h (before.act_advances action).next_le)
    (Nat.le_refl _) actions

/-- A run numbers its tests from the next number on. -/
theorem submitted_bounds {dispatcher : Dispatcher} {actions : List Action} {test : Nat}
    {accepted : Bool} (h : .submitted test accepted ∈ dispatcher.history actions) :
    dispatcher.outstanding.next ≤ test ∧
      test < (dispatcher.actAll actions).outstanding.next := by
  induction actions generalizing dispatcher with
  | nil => exact absurd h List.not_mem_nil
  | cons action rest ih =>
    have hact := dispatcher.act_advances action
    rw [history, List.mem_append] at h
    rcases h with h | h
    · obtain ⟨rfl, hlt⟩ := hact.submitted h
      exact ⟨Nat.le_refl _, Nat.lt_of_lt_of_le hlt (next_le_actAll _ rest)⟩
    · obtain ⟨hle, hlt⟩ := ih h
      exact ⟨Nat.le_trans hact.next_le hle, hlt⟩

/-! ## Tests of the current generation -/

/-- Every test in the pool descends from the current generation, or is
cancelled. -/
def Orderly (dispatcher : Dispatcher) : Prop :=
  ∀ test token, dispatcher.Holds test token →
    ∃ child : Token, token = some child ∧
      (dispatcher.generation.id ∈ child.lineage ∨ dispatcher.tokens.isCancelled child = true)

theorem orderly_fresh (config : Config) (workers jobCapacity : Nat) (registry : Registry)
    (timeHook : Option TimeHook) :
    Orderly (fresh config workers jobCapacity registry timeHook) := by
  rintro test token ⟨job, hjob, _⟩
  exact absurd hjob List.not_mem_nil

/-- One action keeps the tests of the pool in order: those that were there
stay below their generation, which is cancelled if it is replaced. -/
theorem Orderly.act {dispatcher : Dispatcher} (h : Orderly dispatcher) (action : Action) :
    Orderly (dispatcher.act action) := by
  have hact := dispatcher.act_advances action
  intro test token hholds
  rcases hact.holds hholds with hbefore | ⟨_, hgeneration, child, htoken, hlineage⟩
  · obtain ⟨child, htoken, hlineage | hcancelled⟩ := h test token hbefore
    · refine ⟨child, htoken, ?_⟩
      rcases hact.generation with hsame | hreplaced
      · exact Or.inl (hsame ▸ hlineage)
      · exact Or.inr (Tokens.isCancelled_iff.mpr ⟨_, hlineage, hreplaced⟩)
    · exact ⟨child, htoken, Or.inr (Tokens.isCancelled_mono hact.cancelled hcancelled)⟩
  · exact ⟨child, htoken, Or.inl (hgeneration ▸ hlineage)⟩

theorem Orderly.actAll {dispatcher : Dispatcher} (h : Orderly dispatcher)
    (actions : List Action) : Orderly (dispatcher.actAll actions) :=
  actAll_preserves (fun _ action h => h.act action) h actions

/-! ## Tests submitted since -/

/-- Every test in the pool is cancelled, or the entries tell that it was
submitted. -/
def Renewed (told : List Entry) (dispatcher : Dispatcher) : Prop :=
  ∀ test token, dispatcher.Holds test token →
    (∃ child : Token, token = some child ∧ dispatcher.tokens.isCancelled child = true) ∨
      .submitted test true ∈ told

theorem Renewed.act {told : List Entry} {dispatcher : Dispatcher} (h : Renewed told dispatcher)
    (action : Action) : Renewed (told ++ dispatcher.entries action) (dispatcher.act action) := by
  have hact := dispatcher.act_advances action
  intro test token hholds
  rcases hact.holds hholds with hbefore | ⟨hsubmitted, _⟩
  · rcases h test token hbefore with ⟨child, htoken, hcancelled⟩ | htold
    · exact Or.inl ⟨child, htoken, Tokens.isCancelled_mono hact.cancelled hcancelled⟩
    · exact Or.inr (List.mem_append_left _ htold)
  · exact Or.inr (List.mem_append_right _ hsubmitted)

/-- A test that an action reports is in the pool and not cancelled, so its
submission was told. -/
theorem Renewed.submitted_of_reported {told : List Entry} {dispatcher : Dispatcher}
    (h : Renewed told dispatcher) {action : Action} {test : Nat} {frame : Bytes}
    (hreported : .reported test frame ∈ dispatcher.entries action) :
    .submitted test true ∈ told := by
  obtain ⟨token, hholds, hlive⟩ := (dispatcher.act_advances action).reported hreported
  rcases h test token hholds with ⟨child, htoken, hcancelled⟩ | htold
  · rw [hlive child htoken] at hcancelled
    cases hcancelled
  · exact htold

theorem Renewed.submitted_of_mem_history {told : List Entry} {dispatcher : Dispatcher}
    (h : Renewed told dispatcher) {actions : List Action} {test : Nat} {frame : Bytes}
    (hreported : .reported test frame ∈ dispatcher.history actions) :
    .submitted test true ∈ told ++ dispatcher.history actions := by
  induction actions generalizing told dispatcher with
  | nil => exact absurd hreported List.not_mem_nil
  | cons action rest ih =>
    rw [history, List.mem_append] at hreported
    rcases hreported with hreported | hreported
    · exact List.mem_append_left _ (h.submitted_of_reported hreported)
    · rw [history, ← List.append_assoc]
      exact ih (h.act action) hreported

/-! ## Superseded generations -/

/-- The acknowledgement of a session-control command; there is none if the
generation is cancelled from outside. -/
def controlEntries (dispatcher : Dispatcher) : Action → List Entry
  | .dispatch command =>
    match command.kind with
    | some kind => dispatcher.ackEntries kind (dispatcher.sessionData kind) command.sequence
    | none => []
  | _ => []

/-- A superseding action cancels the generation and leaves the pool alone;
the acknowledgement comes behind that. -/
theorem act_of_supersedes (dispatcher : Dispatcher) {action : Action}
    (h : action.supersedes = true) :
    dispatcher.entries action = .superseded :: dispatcher.controlEntries action ∧
      (dispatcher.act action).pool = dispatcher.pool ∧
      (dispatcher.act action).tokens = dispatcher.cancelGeneration.2.tokens := by
  cases action with
  | cancelGeneration => exact ⟨rfl, rfl, rfl⟩
  | dispatch command =>
    show dispatcher.dispatchEntries command = _ ∧ (dispatcher.dispatch command).pool = _ ∧
      (dispatcher.dispatch command).tokens = _
    unfold dispatchEntries dispatch controlEntries
    dsimp only
    change command.kind.any CommandKind.isSessionControl = true at h
    cases hkind : command.kind with
    | none =>
      rw [hkind] at h
      cases h
    | some kind =>
      rw [hkind] at h
      cases kind with
      | handshake | beginTest | endTest => exact ⟨rfl, rfl, rfl⟩
      | singleTest | execOrder | combinedTest | setSystemTime | other => cases h
  | acknowledge | startJob | finishJob | shutdownPool | drain | close => cases h

theorem reported_notMem_controlEntries {dispatcher : Dispatcher} {action : Action} {test : Nat}
    {frame : Bytes} : .reported test frame ∉ dispatcher.controlEntries action := by
  cases action with
  | dispatch command =>
    unfold controlEntries
    dsimp only
    cases command.kind with
    | none => exact List.not_mem_nil
    | some kind => exact reported_notMem_ackEntries
  | _ => exact List.not_mem_nil

/-- Where a generation is superseded, every test in the pool is
cancelled. -/
theorem Orderly.renewed {dispatcher : Dispatcher} (h : Orderly dispatcher) {action : Action}
    (hsupersedes : action.supersedes = true) : Renewed [] (dispatcher.act action) := by
  obtain ⟨_, hpool, htokens⟩ := dispatcher.act_of_supersedes hsupersedes
  have hcancelled := dispatcher.cancelled_subset_cancelGeneration
  intro test token hholds
  have hbefore : dispatcher.Holds test token := by
    rw [Holds, hpool] at hholds
    exact hholds
  refine Or.inl ?_
  obtain ⟨child, htoken, hlineage | hchild⟩ := h test token hbefore
  · refine ⟨child, htoken, Tokens.isCancelled_iff.mpr ⟨_, hlineage, ?_⟩⟩
    rw [htokens]
    exact hcancelled (dispatcher.tokens.mem_cancel dispatcher.generation)
  · refine ⟨child, htoken, Tokens.isCancelled_mono ?_ hchild⟩
    rw [htokens]
    exact List.Subset.trans (dispatcher.tokens.cancelled_subset_cancel _) hcancelled

/-- No report of a superseded test follows the point at which its
generation is superseded.

Take any run from a fresh dispatcher, and in it a session-control command
or a cancellation from outside.  Its entry stands in the history in front
of the acknowledgement of the command, if that is queued, and of everything
that is told later.  The test of a report behind it was submitted, and
taken by the pool, behind it; a test that was submitted before, whether it
waited, ran or had its response ready, is reported before it or never.  The
last part ties the history to the outbound queue. -/
theorem no_report_of_superseded (config : Config) (workers jobCapacity : Nat)
    (registry : Registry) (timeHook : Option TimeHook) (earlier later : List Action)
    (action : Action) (haction : action.supersedes = true) :
    let start := fresh config workers jobCapacity registry timeHook
    let reached := start.actAll earlier
    let behind := (reached.act action).history later
    start.history (earlier ++ action :: later) =
        start.history earlier ++ .superseded :: (reached.controlEntries action ++ behind) ∧
      (∀ test frame, .reported test frame ∈ reached.controlEntries action ++ behind →
        .submitted test true ∈ behind ∧
          ∀ accepted, .submitted test accepted ∉ start.history earlier) ∧
      (start.actAll (earlier ++ action :: later)).link.outbound =
        (start.history (earlier ++ action :: later)).foldl Entry.replay start.link.outbound := by
  intro start reached behind
  have hreached : Orderly reached :=
    (orderly_fresh config workers jobCapacity registry timeHook).actAll earlier
  obtain ⟨hentries, hpool, _⟩ := reached.act_of_supersedes haction
  refine ⟨?_, ?_, outbound_actAll start _⟩
  · rw [history_append, history, hentries, List.cons_append]
  · intro test frame hreported
    have hbehind : .reported test frame ∈ behind :=
      (List.mem_append.mp hreported).resolve_left reported_notMem_controlEntries
    have hsubmitted : .submitted test true ∈ behind :=
      (hreached.renewed haction).submitted_of_mem_history hbehind
    refine ⟨hsubmitted, ?_⟩
    intro accepted hearlier
    have hlt : test < reached.outstanding.next := (submitted_bounds hearlier).2
    have hle : (reached.act action).outstanding.next ≤ test := (submitted_bounds hsubmitted).1
    have hnext := (reached.act_advances action).next_le
    omega

/-- A registry with one executor, which passes. -/
def oneExecutor : Registry :=
  Registry.register {} .singleTest "fan" fun invocation payload =>
    .respond (invocation.report payload true)

/-- The test for that executor is asked for. -/
def askForTest (sequence : UInt16) : Action :=
  .dispatch ⟨some .singleTest, sequence, .ofMembers [("type", .string "fan")]⟩

/-- Two tests run, and one of them ends. -/
def twoTests : List Action :=
  [askForTest 1, askForTest 2, .startJob, .startJob, .finishJob 0]

/-- The other one ends, and so does a third. -/
def thirdTest : List Action :=
  [.finishJob 0, askForTest 4, .startJob, .finishJob 0]

/-- Three tests of one kind.  The first is reported before a new generation
begins; the second runs by then and is not reported, and the third belongs
to the new generation and is. -/
theorem no_report_of_superseded_running :
    ∃ action : Action, action.supersedes = true ∧
      .submitted 1 true ∈ (fresh {} 2 4 oneExecutor none).history twoTests ∧
      ∃ told,
        (fresh {} 2 4 oneExecutor none).history (twoTests ++ action :: thirdTest) =
          (fresh {} 2 4 oneExecutor none).history twoTests ++ .superseded :: told ∧
        (∃ frame, .reported 0 frame ∈ (fresh {} 2 4 oneExecutor none).history twoTests) ∧
        (∀ frame, .reported 1 frame ∉ told) ∧ ∃ frame, .reported 2 frame ∈ told := by
  have h := no_report_of_superseded {} 2 4 oneExecutor none twoTests thirdTest
    (.dispatch ⟨some .beginTest, 3, .null⟩) rfl
  have hsubmitted : .submitted 1 true ∈ (fresh {} 2 4 oneExecutor none).history twoTests :=
    List.mem_of_getElem? (i := 3) rfl
  refine ⟨.dispatch ⟨some .beginTest, 3, .null⟩, rfl, hsubmitted, _, h.1, ?_, ?_, ?_⟩
  · exact ⟨_, List.mem_of_getElem? (i := 4) rfl⟩
  · intro frame hframe
    exact (h.2.1 1 frame hframe).2 true hsubmitted
  · exact ⟨_, List.mem_of_getElem? (i := 3) rfl⟩

end TestRig.Dispatcher
