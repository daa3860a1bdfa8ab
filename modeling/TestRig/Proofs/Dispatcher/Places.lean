import TestRig.Proofs.Dispatcher.Account

/-!
# Every test has a place

The number of a test says where to look for it.  A number that was given
out belongs to one job at most, which waits or runs, and a number that was
not is that of no job.  `Placed` is this invariant of runs, and
`Placed.whereabouts` reads the place of a test off it.

Numbers are given out by the dispatch of tests alone, one at a time
(`next_act`).
-/

namespace TestRig.Dispatcher

variable {dispatcher : Dispatcher}

/-- Only the dispatch of a test with an executor gives out a number. -/
theorem next_act (dispatcher : Dispatcher) (action : Action) :
    (dispatcher.act action).outstanding.next = dispatcher.outstanding.next ∨
      (dispatcher.act action).outstanding.next = dispatcher.outstanding.next + 1 ∧
        ∃ command kind executor, action = .dispatch command ∧
          dispatcher.act action =
            (dispatcher.ack kind .null command.sequence).submitTest kind command executor := by
  cases action with
  | dispatch command =>
    have hdispatched := dispatcher.dispatch_cases command
    show (dispatcher.dispatch command).outstanding.next = _ ∨
      (dispatcher.dispatch command).outstanding.next = _ ∧
        ∃ other kind executor, Action.dispatch command = .dispatch other ∧
          dispatcher.dispatch command = _
    generalize dispatcher.dispatchEntries command = told at hdispatched
    generalize dispatcher.dispatch command = after at hdispatched ⊢
    cases hdispatched with
    | dropped | control => exact .inl rfl
    | clock =>
      obtain ⟨_, _, houtstanding⟩ :=
        (dispatcher.ack .setSystemTime .null command.sequence).setClock_kept command.payload
      exact .inl (congrArg TokenSet.next houtstanding)
    | test kind executor =>
      obtain ⟨_, _, hnext, _⟩ :=
        (dispatcher.ack kind .null command.sequence).submitTest_cases kind command executor rfl
      exact .inr ⟨hnext, command, kind, executor, rfl, rfl⟩
  | startJob =>
    rcases dispatcher.startJob_cases with heq | ⟨oldest, rest, _, heq⟩
    · exact .inl (congrArg (·.outstanding.next) heq)
    · exact .inl (congrArg (·.outstanding.next) heq)
  | finishJob index => exact .inl (dispatcher.finishJob_cases index).2.2.2
  | shutdownPool => exact .inl (foldl_forget_kept _ _).next
  | acknowledge | cancelGeneration | drain | close => exact .inl rfl

/-- A number that was given out has one place, and no other has any. -/
structure Placed (dispatcher : Dispatcher) : Prop where
  numbered : Numbered dispatcher
  given : ∀ test < dispatcher.outstanding.next, ∃ job, Whereabouts dispatcher test job

theorem placed_fresh (config : Config) (workers jobCapacity : Nat) (registry : Registry)
    (timeHook : Option TimeHook) :
    Placed (fresh config workers jobCapacity registry timeHook) where
  numbered := by
    rintro test token ⟨job, hjob, _⟩
    exact absurd hjob List.not_mem_nil
  given test hlt := absurd hlt (Nat.not_lt_zero test)

theorem Placed.act (h : Placed dispatcher) (action : Action) :
    Placed (dispatcher.act action) where
  numbered := h.numbered.act action
  given := by
    intro test hlt
    by_cases hold : test < dispatcher.outstanding.next
    · obtain ⟨job, hwhere⟩ := h.given test hold
      by_cases hends : dispatcher.Ends test action
      · obtain ⟨index, rfl, hruns⟩ := hends
        exact ⟨job, .gone (hwhere.finishJob_of_runs hruns).2⟩
      · exact ⟨job, (hwhere.act hold hends).1⟩
    · rcases dispatcher.next_act action with hnext | ⟨hnext, command, kind, executor, _, heq⟩
      · exact absurd (hnext ▸ hlt) hold
      · have htest : test = dispatcher.outstanding.next := by omega
        rw [heq, htest]
        exact ⟨_, (@whereabouts_submitTest (dispatcher.ack kind .null command.sequence) command
          kind executor ⟨h.numbered.gone.pending, h.numbered.gone.running⟩).1⟩

theorem Placed.actAll (h : Placed dispatcher) (actions : List Action) :
    Placed (dispatcher.actAll actions) :=
  actAll_preserves (fun _ action h => h.act action) h actions

/-- The place of a test; a number that was not given out is that of no
job. -/
theorem Placed.whereabouts (h : Placed dispatcher) (test : Nat) :
    ∃ job, Whereabouts dispatcher test job := by
  by_cases hlt : test < dispatcher.outstanding.next
  · exact h.given test hlt
  · refine ⟨{ work := .clock .null }, .gone (gone_iff.mpr ?_)⟩
    intro token hholds
    exact hlt (h.numbered test token hholds)

end TestRig.Dispatcher
