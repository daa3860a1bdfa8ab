import TestRig.Proofs.Dispatcher.Places
import Mathlib.Data.List.Induction

/-!
# The books of a generation

Two mechanisms keep track of the tests of a generation: the token of the
generation, which is above theirs, and the set of outstanding tests, which
an end takes a test out of.  Both are replaced where a generation is
superseded, and an old test may end long after that.

* `currentTests` is the account of the history: the tests that the pool
  took since the last supersession.
* `Ledger` is the invariant that keeps both mechanisms in step with that
  account.  An action supersedes the generation (`ledger_of_renewed`),
  admits a test (`Ledger.admit`), or does neither (`Ledger.keep`).
* `Rooted` is the invariant that the token of the generation is not
  cancelled: every other token that can be cancelled has another number.
* `generation_books` puts together what they say of every state that can
  be reached.
-/

namespace TestRig

namespace Dispatcher

variable {dispatcher before after : Dispatcher}

/-! ## The token of the generation -/

/-- The number of a token that was handed out, and is not that of the
generation. -/
structure Foreign (dispatcher : Dispatcher) (id : Nat) : Prop where
  lt : id < dispatcher.tokens.next
  ne : id ≠ dispatcher.generation.id

/-- The token of the generation is the root of its tests: nothing is above
it, and whatever is cancelled, or can be cancelled through a registry, is
another token. -/
structure Rooted (dispatcher : Dispatcher) : Prop where
  root : dispatcher.generation.ancestors = []
  given : dispatcher.generation.id < dispatcher.tokens.next
  cancelled : ∀ id ∈ dispatcher.tokens.cancelled, dispatcher.Foreign id
  outstanding : ∀ entry ∈ dispatcher.outstanding.entries, dispatcher.Foreign entry.2.id
  live : ∀ entry ∈ dispatcher.pool.live.entries, dispatcher.Foreign entry.2.id

theorem rooted_fresh (config : Config) (workers jobCapacity : Nat) (registry : Registry)
    (timeHook : Option TimeHook) :
    Rooted (fresh config workers jobCapacity registry timeHook) where
  root := rfl
  given := Nat.zero_lt_one
  cancelled _ hid := absurd hid List.not_mem_nil
  outstanding _ hentry := absurd hentry List.not_mem_nil
  live _ hentry := absurd hentry List.not_mem_nil

theorem Rooted.isCancelled_generation (h : Rooted dispatcher) :
    dispatcher.tokens.isCancelled dispatcher.generation = false := by
  refine Bool.eq_false_iff.mpr ?_
  intro hcancelled
  obtain ⟨id, hlineage, hid⟩ := Tokens.isCancelled_iff.mp hcancelled
  rw [Token.lineage, h.root, List.mem_singleton] at hlineage
  exact (h.cancelled id hid).ne hlineage

/-- The generation stays; what is cancelled or listed now was handed out
before as another token, or is the token handed out just now. -/
theorem Rooted.keep (h : Rooted before) (hgeneration : after.generation = before.generation)
    (hnext : before.tokens.next ≤ after.tokens.next)
    (hcancelled : ∀ id ∈ after.tokens.cancelled, before.Foreign id)
    (houtstanding : ∀ entry ∈ after.outstanding.entries, before.Foreign entry.2.id ∨
      entry.2.id = before.tokens.next ∧ before.tokens.next < after.tokens.next)
    (hlive : ∀ entry ∈ after.pool.live.entries, before.Foreign entry.2.id ∨
      entry.2.id = before.tokens.next ∧ before.tokens.next < after.tokens.next) :
    Rooted after := by
  have hold : ∀ {id}, before.Foreign id → after.Foreign id := by
    intro id hid
    exact ⟨Nat.lt_of_lt_of_le hid.lt hnext, hgeneration ▸ hid.ne⟩
  have hnew : ∀ {id}, before.Foreign id ∨
      id = before.tokens.next ∧ before.tokens.next < after.tokens.next → after.Foreign id := by
    rintro id (hid | ⟨rfl, hlt⟩)
    · exact hold hid
    · exact ⟨hlt, hgeneration ▸ Nat.ne_of_gt h.given⟩
  refine ⟨hgeneration ▸ h.root, ?_, ?_, ?_, ?_⟩
  · rw [hgeneration]
    exact Nat.lt_of_lt_of_le h.given hnext
  · exact fun id hid => hold (hcancelled id hid)
  · exact fun entry hentry => hnew (houtstanding entry hentry)
  · exact fun entry hentry => hnew (hlive entry hentry)

/-- Tokens are neither handed out nor cancelled, and no test is admitted. -/
theorem Rooted.retain (h : Rooted before) (hretains : Retains before after)
    (htokens : after.tokens = before.tokens)
    (hgeneration : after.generation = before.generation) : Rooted after := by
  refine h.keep hgeneration (Nat.le_of_eq (by rw [htokens])) ?_ ?_ ?_
  · rw [htokens]
    exact h.cancelled
  · exact fun entry hentry => .inl (h.outstanding entry (hretains.outstanding hentry))
  · exact fun entry hentry => .inl (h.live entry (hretains.live hentry))

/-- The next generation has a token of its own, which comes behind all that
are cancelled. -/
theorem Rooted.cancelGeneration (h : Rooted dispatcher) :
    Rooted dispatcher.cancelGeneration.2 := by
  have hnext : dispatcher.cancelGeneration.2.tokens.next = dispatcher.tokens.next + 1 :=
    TokenSet.next_cancelAll ..
  have hforeign : ∀ {id}, id < dispatcher.tokens.next →
      dispatcher.cancelGeneration.2.Foreign id := by
    intro id hlt
    exact ⟨by omega, Nat.ne_of_lt hlt⟩
  refine ⟨rfl, ?_, ?_, ?_, ?_⟩
  · rw [hnext]
    exact Nat.lt_succ_self _
  · intro id hid
    refine hforeign ?_
    rcases TokenSet.mem_cancelled_cancelAll.mp hid with hid | ⟨entry, hentry, rfl⟩
    · rcases List.mem_cons.mp hid with rfl | hid
      · exact h.given
      · exact (h.cancelled id hid).lt
    · exact (h.outstanding entry hentry).lt
  · intro entry hentry
    exact absurd hentry List.not_mem_nil
  · intro entry hentry
    exact hforeign (h.live entry hentry).lt

/-- A test gets a token that was not handed out before. -/
theorem Rooted.submitTest (h : Rooted dispatcher) (kind : CommandKind) (command : Command)
    (executor : Executor) : Rooted (dispatcher.submitTest kind command executor) := by
  have hinsert : ∀ (set : TokenSet) (entry : Nat × Token),
      entry ∈ (set.insert (dispatcher.tokens.child dispatcher.generation).1).2.entries →
        entry ∈ set.entries ∨ entry.2.id = dispatcher.tokens.next ∧
          dispatcher.tokens.next < dispatcher.tokens.next + 1 := by
    intro set entry hentry
    refine (List.mem_append.mp hentry).imp_right ?_
    intro hentry
    rw [List.mem_singleton.mp hentry]
    exact ⟨rfl, Nat.lt_succ_self _⟩
  rcases dispatcher.submitTest_eq kind command executor with ⟨_, heq⟩ | ⟨_, heq⟩
  · rw [heq]
    refine h.keep rfl (Nat.le_succ _) h.cancelled ?_ ?_
    · exact fun entry hentry => (hinsert _ entry hentry).imp_left (h.outstanding entry)
    · exact fun entry hentry => (hinsert _ entry hentry).imp_left (h.live entry)
  · rw [heq]
    refine h.keep rfl (Nat.le_succ _) h.cancelled ?_ ?_
    · exact fun entry hentry =>
        .inl (h.outstanding entry (TokenSet.entries_insert_drop _ _ hentry))
    · exact fun entry hentry => .inl (h.live entry (TokenSet.entries_insert_drop _ _ hentry))

/-- The live tokens are cancelled; that of the generation is none of them. -/
theorem Rooted.shutdownPool (h : Rooted dispatcher) : Rooted dispatcher.shutdownPool := by
  have hkept : Kept _ dispatcher.shutdownPool := foldl_forget_kept _ _
  have hretains := dispatcher.retains_shutdownPool
  refine h.keep hkept.generation ?_ ?_ ?_ ?_
  · rw [hkept.tokens]
    exact Nat.le_of_eq (TokenSet.next_cancelAll ..).symm
  · intro id hid
    rw [hkept.tokens] at hid
    rcases TokenSet.mem_cancelled_cancelAll.mp hid with hid | ⟨entry, hentry, rfl⟩
    · exact h.cancelled id hid
    · exact h.live entry hentry
  · exact fun entry hentry => .inl (h.outstanding entry (hretains.outstanding hentry))
  · exact fun entry hentry => .inl (h.live entry (hretains.live hentry))

/-- A change of the link alone. -/
theorem Rooted.ack (h : Rooted dispatcher) (kind : CommandKind) (data : Json.Value)
    (sequence : UInt16) : Rooted (dispatcher.ack kind data sequence) :=
  h.retain (.of_jobs rfl (List.Subset.refl _) (List.Subset.refl _) (Nat.le_refl _)) rfl rfl

theorem Rooted.dispatch (h : Rooted dispatcher) (command : Command) :
    Rooted (dispatcher.dispatch command) := by
  have hdispatched := dispatcher.dispatch_cases command
  generalize dispatcher.dispatchEntries command = told at hdispatched
  generalize dispatcher.dispatch command = after at hdispatched ⊢
  cases hdispatched with
  | dropped => exact h
  | clock =>
    have hack := h.ack .setSystemTime .null command.sequence
    obtain ⟨htokens, hgeneration, _⟩ :=
      (dispatcher.ack .setSystemTime .null command.sequence).setClock_kept command.payload
    exact hack.retain (retains_setClock _ command.payload) htokens hgeneration
  | control kind => exact h.cancelGeneration.ack kind _ command.sequence
  | test kind executor =>
    exact (h.ack kind .null command.sequence).submitTest kind command executor

theorem Rooted.act (h : Rooted dispatcher) (action : Action) :
    Rooted (dispatcher.act action) := by
  cases action with
  | dispatch command => exact h.dispatch command
  | acknowledge kind data sequence => exact h.ack kind data sequence
  | cancelGeneration => exact h.cancelGeneration
  | startJob =>
    have hretains := dispatcher.retains_startJob
    show Rooted (dispatcher.startJob?.getD dispatcher)
    rcases dispatcher.startJob_cases with heq | ⟨oldest, rest, _, heq⟩
    · rw [heq]
      exact h
    · rw [heq] at hretains ⊢
      exact h.retain hretains rfl rfl
  | finishJob index =>
    obtain ⟨_, htokens, hgeneration, _⟩ := dispatcher.finishJob_cases index
    exact h.retain (dispatcher.retains_finishJob index) htokens hgeneration
  | shutdownPool => exact h.shutdownPool
  | drain | close =>
    exact h.retain (.of_jobs rfl (List.Subset.refl _) (List.Subset.refl _) (Nat.le_refl _)) rfl rfl

theorem Rooted.actAll (h : Rooted dispatcher) (actions : List Action) :
    Rooted (dispatcher.actAll actions) :=
  actAll_preserves (fun _ action h => h.act action) h actions

/-! ## The tests of the generation -/

/-- What an entry says about the tests that the pool took since the last
supersession. -/
def Entry.enroll (tests : List Nat) : Entry → List Nat
  | superseded => []
  | submitted test true => tests ++ [test]
  | submitted _ false | acked _ _ _ | reported _ _ | drained | closed => tests

/-- The tests that the pool took since the last supersession, in order. -/
def currentTests (told : List Entry) : List Nat :=
  told.foldl Entry.enroll []

/-- Entries that neither supersede the generation nor admit a test. -/
theorem foldl_enroll_of_notMem {told : List Entry} (hsuperseded : .superseded ∉ told)
    (hsubmitted : ∀ test, .submitted test true ∉ told) (tests : List Nat) :
    told.foldl Entry.enroll tests = tests := by
  induction told generalizing tests with
  | nil => rfl
  | cons entry rest ih =>
    have hentry : Entry.enroll tests entry = tests := by
      cases entry with
      | superseded => exact absurd List.mem_cons_self hsuperseded
      | submitted test accepted =>
        cases accepted with
        | true => exact absurd List.mem_cons_self (hsubmitted test)
        | false => rfl
      | acked | reported | drained | closed => rfl
    rw [List.foldl_cons, hentry]
    exact ih (fun h => hsuperseded (List.mem_cons_of_mem _ h))
      (fun test h => hsubmitted test (List.mem_cons_of_mem _ h)) tests

theorem foldl_enroll_ackEntries (dispatcher : Dispatcher) (kind : CommandKind)
    (data : Json.Value) (sequence : UInt16) (tests : List Nat) :
    (dispatcher.ackEntries kind data sequence).foldl Entry.enroll tests = tests := by
  refine foldl_enroll_of_notMem ?_ (fun test => submitted_notMem_ackEntries) tests
  intro h
  obtain ⟨frame, heq⟩ := mem_ackEntries h
  cases heq

/-- A test that the pool took, and that is not of the generation, was
submitted before a supersession. -/
theorem superseded_of_notMem_currentTests {told : List Entry} {test : Nat}
    (hsubmitted : .submitted test true ∈ told) (hnot : test ∉ currentTests told) :
    ∃ front back, told = front ++ .superseded :: back ∧ .submitted test true ∈ front := by
  induction told using List.reverseRecOn with
  | nil => exact absurd hsubmitted List.not_mem_nil
  | append_singleton front last ih =>
    have hfold : currentTests (front ++ [last]) = Entry.enroll (currentTests front) last :=
      List.foldl_append
    rw [hfold] at hnot
    by_cases hlast : last = .superseded
    · rw [hlast, List.mem_append, List.mem_singleton] at hsubmitted
      refine ⟨front, [], by rw [hlast], hsubmitted.resolve_right ?_⟩
      rintro ⟨⟩
    · -- Any other entry takes no test out.
      have hkept : test ∉ currentTests front ∧ Entry.submitted test true ≠ last := by
        cases last with
        | superseded => exact absurd rfl hlast
        | submitted other accepted =>
          cases accepted with
          | true =>
            rw [Entry.enroll, List.mem_append, List.mem_singleton, not_or] at hnot
            exact ⟨hnot.1, fun heq => hnot.2 (Entry.submitted.inj heq).1⟩
          | false => exact ⟨hnot, fun heq => by cases heq⟩
        | acked | reported | drained | closed => exact ⟨hnot, fun heq => by cases heq⟩
      rw [List.mem_append, List.mem_singleton] at hsubmitted
      obtain ⟨earlier, back, hsplit, hmem⟩ := ih (hsubmitted.resolve_right hkept.2) hkept.1
      exact ⟨earlier, back ++ [last], by rw [hsplit, List.append_assoc, List.cons_append], hmem⟩

/-- Both mechanisms are in step with the tests of the generation. -/
structure Ledger (tests : List Nat) (dispatcher : Dispatcher) : Prop where
  sorted : tests.Pairwise (· < ·)
  numbered : ∀ test ∈ tests, test < dispatcher.outstanding.next
  /-- The set has one entry at most for each of these tests, and no
  others. -/
  listed : (dispatcher.outstanding.entries.map Prod.fst).Sublist tests
  /-- These tests are below the generation, and in the set. -/
  current : ∀ test ∈ tests, ∀ token, dispatcher.Holds test token →
    ∃ child : Token, token = some child ∧ child.ancestors = dispatcher.generation.lineage ∧
      (test, child) ∈ dispatcher.outstanding.entries
  /-- The others are cancelled. -/
  others : ∀ test ∉ tests, ∀ token, dispatcher.Holds test token →
    ∃ child : Token, token = some child ∧ dispatcher.tokens.isCancelled child = true

theorem ledger_fresh (config : Config) (workers jobCapacity : Nat) (registry : Registry)
    (timeHook : Option TimeHook) :
    Ledger [] (fresh config workers jobCapacity registry timeHook) where
  sorted := .nil
  numbered _ htest := absurd htest List.not_mem_nil
  listed := .slnil
  current _ htest := absurd htest List.not_mem_nil
  others := by
    rintro test _ token ⟨job, hjob, _⟩
    exact absurd hjob List.not_mem_nil

/-- The generation stays and no test is admitted; an entry goes only with
its test. -/
theorem Ledger.keep {tests : List Nat} {told : List Entry} (h : Ledger tests before)
    (hadvances : Advances before told after) (hnone : ∀ test, .submitted test true ∉ told)
    (hgeneration : after.generation = before.generation)
    (hlisted : after.outstanding.entries.Sublist before.outstanding.entries)
    (hstays : ∀ entry ∈ before.outstanding.entries,
      entry ∈ after.outstanding.entries ∨ after.Gone entry.1) :
    Ledger tests after := by
  have hbefore : ∀ {test token}, after.Holds test token → before.Holds test token := by
    intro test token hholds
    rcases hadvances.holds hholds with hold | ⟨hnew, _⟩
    · exact hold
    · exact absurd hnew (hnone test)
  refine ⟨h.sorted, ?_, (hlisted.map _).trans h.listed, ?_, ?_⟩
  · exact fun test htest => Nat.lt_of_lt_of_le (h.numbered test htest) hadvances.next_le
  · intro test htest token hholds
    obtain ⟨child, htoken, hancestors, hentry⟩ := h.current test htest token (hbefore hholds)
    refine ⟨child, htoken, hgeneration.symm ▸ hancestors, ?_⟩
    rcases hstays _ hentry with hstill | hgone
    · exact hstill
    · exact absurd hholds (gone_iff.mp hgone token)
  · intro test htest token hholds
    obtain ⟨child, htoken, hcancelled⟩ := h.others test htest token (hbefore hholds)
    exact ⟨child, htoken, Tokens.isCancelled_mono hadvances.cancelled hcancelled⟩

/-- A new generation begins without tests. -/
theorem ledger_of_renewed (hempty : after.outstanding.entries = []) (hrenewed : Renewed [] after) :
    Ledger [] after where
  sorted := .nil
  numbered _ htest := absurd htest List.not_mem_nil
  listed := by
    rw [hempty]
    exact .slnil
  current _ htest := absurd htest List.not_mem_nil
  others test _ token hholds := (hrenewed test token hholds).resolve_right List.not_mem_nil

/-- A test is admitted below the generation, under a number that no job in
the pool has. -/
theorem Ledger.admit {tests : List Nat} (h : Ledger tests dispatcher)
    (hnumbered : Numbered dispatcher) (htakes : dispatcher.pool.takesJob = true)
    (kind : CommandKind) (command : Command) (executor : Executor) :
    Ledger (tests ++ [dispatcher.outstanding.next])
      (dispatcher.submitTest kind command executor) := by
  obtain ⟨hcancelled, hgeneration, hnext, hjobs⟩ :=
    dispatcher.submitTest_cases kind command executor rfl
  have hentries : (dispatcher.submitTest kind command executor).outstanding.entries =
      dispatcher.outstanding.entries ++
        [(dispatcher.outstanding.next, (dispatcher.tokens.child dispatcher.generation).1)] := by
    rcases dispatcher.submitTest_eq kind command executor with ⟨_, heq⟩ | ⟨hfull, _⟩
    · rw [heq]
      rfl
    · rw [htakes] at hfull
      cases hfull
  have hholds : ∀ test token, (dispatcher.submitTest kind command executor).Holds test token →
      dispatcher.Holds test token ∨ test = dispatcher.outstanding.next ∧
        token = some (dispatcher.tokens.child dispatcher.generation).1 := by
    rintro test token ⟨job, hjob, htest, htoken⟩
    rcases hjobs job hjob with hold | ⟨_, hnew, hchild⟩
    · exact .inl ⟨job, hold, htest, htoken⟩
    · exact .inr ⟨Option.some.inj (htest.symm.trans hnew), htoken.symm.trans hchild⟩
  refine ⟨?_, ?_, ?_, ?_, ?_⟩
  · refine List.pairwise_append.mpr ⟨h.sorted, List.pairwise_singleton _ _, ?_⟩
    intro test htest next hlast
    rw [List.mem_singleton.mp hlast]
    exact h.numbered test htest
  · intro test htest
    rw [hnext]
    rcases List.mem_append.mp htest with htest | htest
    · exact Nat.lt_succ_of_lt (h.numbered test htest)
    · rw [List.mem_singleton.mp htest]
      exact Nat.lt_succ_self _
  · rw [hentries, List.map_append]
    exact h.listed.append (List.Sublist.refl _)
  · intro test htest token hheld
    rw [hgeneration, hentries]
    rcases hholds test token hheld with hold | ⟨rfl, rfl⟩
    · have hmem : test ∈ tests := by
        rcases List.mem_append.mp htest with htest | htest
        · exact htest
        · exact absurd (List.mem_singleton.mp htest) (Nat.ne_of_lt (hnumbered test token hold))
      obtain ⟨child, htoken, hancestors, hentry⟩ := h.current test hmem token hold
      exact ⟨child, htoken, hancestors, List.mem_append_left _ hentry⟩
    · exact ⟨_, rfl, rfl, List.mem_append_right _ (List.mem_singleton.mpr rfl)⟩
  · intro test htest token hheld
    rw [List.mem_append, List.mem_singleton, not_or] at htest
    rcases hholds test token hheld with hold | ⟨hnew, _⟩
    · obtain ⟨child, htoken, hchild⟩ := h.others test htest.1 token hold
      refine ⟨child, htoken, Tokens.isCancelled_mono ?_ hchild⟩
      rw [hcancelled]
      exact List.Subset.refl _
    · exact absurd hnew htest.2

/-- A test that the pool refuses is put into the set and taken out at once. -/
theorem Ledger.refuse {tests : List Nat} (h : Ledger tests dispatcher)
    (hfull : dispatcher.pool.takesJob = false) (kind : CommandKind) (command : Command)
    (executor : Executor) :
    Ledger tests
      ((dispatcher.ack kind .null command.sequence).submitTest kind command executor) := by
  have hadvances := dispatcher.test_advances kind command executor
  rcases (dispatcher.ack kind .null command.sequence).submitTest_eq kind command executor with
    ⟨htakes, _⟩ | ⟨_, heq⟩
  · rw [show dispatcher.pool.takesJob = true from htakes] at hfull
    cases hfull
  · rw [heq, hfull] at hadvances
    rw [heq]
    refine h.keep hadvances ?_ rfl ?_ ?_
    · intro test htest
      rcases List.mem_append.mp htest with htest | htest
      · exact submitted_notMem_ackEntries htest
      · cases List.mem_singleton.mp htest
    · exact TokenSet.insert_drop_sublist _ _
    · intro entry hentry
      refine .inl (TokenSet.mem_drop.mpr ⟨List.mem_append_left _ hentry, ?_⟩)
      have hmem := h.listed.subset (List.mem_map_of_mem hentry)
      exact Nat.ne_of_lt (h.numbered _ hmem)

theorem outstanding_finishJob {index : Nat} {ended : Job Work}
    (hended : dispatcher.pool.running[index]? = some ended) :
    (dispatcher.finishJob index).outstanding = (dispatcher.forget ended).outstanding := by
  obtain ⟨link, hookRuns, heq⟩ := dispatcher.complete_eq ended
  rw [finishJob_eq hended, heq]
  unfold forget
  cases ended.work <;> rfl

theorem sublist_forget (dispatcher : Dispatcher) (job : Job Work) :
    (dispatcher.forget job).outstanding.entries.Sublist dispatcher.outstanding.entries := by
  unfold forget
  cases job.work with
  | test run => exact List.filter_sublist
  | clock payload => exact List.Sublist.refl _

theorem sublist_foldl_forget (jobs : List (Job Work)) (dispatcher : Dispatcher) :
    (jobs.foldl forget dispatcher).outstanding.entries.Sublist
      dispatcher.outstanding.entries := by
  induction jobs generalizing dispatcher with
  | nil => exact List.Sublist.refl _
  | cons job rest ih => exact (ih (dispatcher.forget job)).trans (dispatcher.sublist_forget job)

/-- A test ends, and takes its own entry along, if there is one. -/
theorem Ledger.finishJob {tests : List Nat} (h : Ledger tests dispatcher)
    (hplaced : Placed dispatcher) (index : Nat) : Ledger tests (dispatcher.finishJob index) := by
  cases hended : dispatcher.pool.running[index]? with
  | none =>
    unfold Dispatcher.finishJob
    rw [hended]
    exact h
  | some ended =>
    have houtstanding := outstanding_finishJob hended
    refine h.keep (dispatcher.finishJob_advances index) ?_
      (dispatcher.finishJob_cases index).2.2.1 ?_ ?_
    · intro test htest
      obtain ⟨job, _, run, frame, _, _, heq⟩ := mem_finishEntries htest
      cases heq
    · rw [houtstanding]
      exact dispatcher.sublist_forget ended
    · intro entry hentry
      rw [houtstanding]
      by_cases htest : ended.work.test? = some entry.1
      · obtain ⟨job, hwhere⟩ := hplaced.whereabouts entry.1
        exact .inr (hwhere.finishJob_of_runs ⟨ended, hended, beq_iff_eq.mpr htest⟩).2
      · exact .inl (mem_outstanding_forget.mpr ⟨hentry, htest⟩)

/-- The waiting tests are discarded, and take their entries along. -/
theorem Ledger.shutdownPool {tests : List Nat} (h : Ledger tests dispatcher)
    (hplaced : Placed dispatcher) : Ledger tests dispatcher.shutdownPool := by
  have hkept : Kept _ dispatcher.shutdownPool := foldl_forget_kept _ _
  refine h.keep dispatcher.shutdownPool_advances (fun test => List.not_mem_nil) hkept.generation
    (sublist_foldl_forget _ _) ?_
  intro entry hentry
  by_cases hdiscarded : ∃ job ∈ dispatcher.pool.pending, job.work.test? = some entry.1
  · obtain ⟨job, hjob, htest⟩ := hdiscarded
    have hwaits : dispatcher.pool.pending.filter (isTest entry.1) ≠ [] :=
      List.ne_nil_of_mem (List.mem_filter.mpr ⟨hjob, beq_iff_eq.mpr htest⟩)
    refine .inr ?_
    obtain ⟨only, hwhere⟩ := hplaced.whereabouts entry.1
    cases hwhere with
    | waiting _ hidle => exact ⟨by rw [hkept.pool]; rfl, by rw [hkept.pool]; exact hidle⟩
    | running _ hnone => exact absurd hnone hwaits
    | gone hgone => exact absurd hgone.pending hwaits
  · refine .inl (mem_outstanding_foldl_forget.mpr ⟨hentry, ?_⟩)
    intro job hjob htest
    exact hdiscarded ⟨job, hjob, htest⟩

/-- An action that the set is of no concern to. -/
theorem Ledger.silent {tests : List Nat} {told : List Entry} (h : Ledger tests before)
    (hadvances : Advances before told after) (hnone : ∀ test, .submitted test true ∉ told)
    (hgeneration : after.generation = before.generation)
    (hsame : after.outstanding = before.outstanding) : Ledger tests after := by
  refine h.keep hadvances hnone hgeneration ?_ ?_
  · rw [hsame]
  · intro entry hentry
    rw [hsame]
    exact .inl hentry

theorem Ledger.dispatch {tests : List Nat} (h : Ledger tests dispatcher)
    (hplaced : Placed dispatcher) (horderly : Orderly dispatcher) (command : Command) :
    Ledger ((dispatcher.dispatchEntries command).foldl Entry.enroll tests)
      (dispatcher.dispatch command) := by
  have hrenewed : (Action.dispatch command).supersedes = true →
      Renewed [] (dispatcher.dispatch command) := horderly.renewed
  have hdispatched := dispatcher.dispatch_cases command
  generalize dispatcher.dispatchEntries command = told at hdispatched ⊢
  generalize dispatcher.dispatch command = after at hdispatched hrenewed ⊢
  cases hdispatched with
  | dropped => exact h
  | clock =>
    rw [foldl_enroll_ackEntries]
    obtain ⟨_, hgeneration, hsame⟩ :=
      (dispatcher.ack .setSystemTime .null command.sequence).setClock_kept command.payload
    exact h.silent (dispatcher.clock_advances command.payload command.sequence)
      (fun test => submitted_notMem_ackEntries) hgeneration hsame
  | control kind hkind hcontrol =>
    rw [List.foldl_cons, foldl_enroll_ackEntries]
    refine ledger_of_renewed rfl (hrenewed ?_)
    rw [Action.supersedes, hkind]
    exact hcontrol
  | test kind executor =>
    rw [List.foldl_append, foldl_enroll_ackEntries]
    cases htakes : dispatcher.pool.takesJob with
    | true =>
      have hack : Ledger tests (dispatcher.ack kind .null command.sequence) :=
        h.silent (dispatcher.ack_advances kind .null command.sequence)
          (fun test => submitted_notMem_ackEntries) rfl rfl
      exact hack.admit hplaced.numbered htakes kind command executor
    | false => exact h.refuse htakes kind command executor

theorem Ledger.act {tests : List Nat} (h : Ledger tests dispatcher)
    (hplaced : Placed dispatcher) (horderly : Orderly dispatcher) (action : Action) :
    Ledger ((dispatcher.entries action).foldl Entry.enroll tests) (dispatcher.act action) := by
  have hadvances := dispatcher.act_advances action
  cases action with
  | dispatch command => exact h.dispatch hplaced horderly command
  | acknowledge kind data sequence =>
    rw [entries, foldl_enroll_ackEntries]
    exact h.silent hadvances (fun test => submitted_notMem_ackEntries) rfl rfl
  | cancelGeneration => exact ledger_of_renewed rfl (horderly.renewed rfl)
  | startJob =>
    have hadvances := dispatcher.startJob_advances
    show Ledger tests (dispatcher.startJob?.getD dispatcher)
    rcases dispatcher.startJob_cases with heq | ⟨oldest, rest, _, heq⟩
    · rw [heq]
      exact h
    · rw [heq] at hadvances ⊢
      exact h.silent hadvances (fun test => List.not_mem_nil) rfl rfl
  | finishJob index =>
    rw [entries, foldl_enroll_of_notMem]
    · exact h.finishJob hplaced index
    · intro htold
      obtain ⟨job, _, run, frame, _, _, heq⟩ := mem_finishEntries htold
      cases heq
    · intro test htold
      obtain ⟨job, _, run, frame, _, _, heq⟩ := mem_finishEntries htold
      cases heq
  | shutdownPool => exact h.shutdownPool hplaced
  | drain | close =>
    refine h.silent hadvances ?_ rfl rfl
    intro test htest
    cases List.mem_singleton.mp htest

theorem Ledger.actAll {tests : List Nat} (h : Ledger tests dispatcher)
    (hplaced : Placed dispatcher) (horderly : Orderly dispatcher) (actions : List Action) :
    Ledger ((dispatcher.history actions).foldl Entry.enroll tests)
      (dispatcher.actAll actions) := by
  induction actions generalizing tests dispatcher with
  | nil => exact h
  | cons action rest ih =>
    rw [history, List.foldl_append]
    exact ih (h.act hplaced horderly action) (hplaced.act action) (horderly.act action)

/-! ## The books -/

/-- The tests in the pool were submitted to it. -/
def Submitted (told : List Entry) (dispatcher : Dispatcher) : Prop :=
  ∀ test token, dispatcher.Holds test token → .submitted test true ∈ told

theorem Submitted.act {told : List Entry} (h : Submitted told dispatcher) (action : Action) :
    Submitted (told ++ dispatcher.entries action) (dispatcher.act action) := by
  intro test token hholds
  rcases (dispatcher.act_advances action).holds hholds with hbefore | ⟨hsubmitted, _⟩
  · exact List.mem_append_left _ (h test token hbefore)
  · exact List.mem_append_right _ hsubmitted

/-- The job of a test has neither ended nor been discarded. -/
def unfinished (dispatcher : Dispatcher) (test : Nat) : Bool :=
  dispatcher.pool.jobs.any (isTest test)

theorem unfinished_iff {test : Nat} :
    dispatcher.unfinished test = true ↔ ∃ token, dispatcher.Holds test token := by
  rw [unfinished, List.any_eq_true]
  constructor
  · intro ⟨job, hjob, htest⟩
    exact ⟨job.token, job, hjob, beq_iff_eq.mp htest, rfl⟩
  · intro ⟨token, job, hjob, htest, _⟩
    exact ⟨job, hjob, beq_iff_eq.mpr htest⟩

/-- The entries of the set are the unfinished tests of the generation. -/
theorem Ledger.size_outstanding {tests : List Nat} (h : Ledger tests dispatcher)
    (hregistered : Registered dispatcher) :
    dispatcher.outstanding.size = tests.countP dispatcher.unfinished := by
  have hnodup : tests.Nodup := h.sorted.imp Nat.ne_of_lt
  have hperm : (dispatcher.outstanding.entries.map Prod.fst).Perm
      (tests.filter dispatcher.unfinished) := by
    refine (List.perm_ext_iff_of_nodup (h.listed.nodup hnodup) (hnodup.filter _)).mpr ?_
    intro test
    rw [List.mem_filter, unfinished_iff]
    constructor
    · intro htest
      obtain ⟨entry, hentry, rfl⟩ := List.mem_map.mp htest
      exact ⟨h.listed.subset htest, _, hregistered.outstanding entry hentry⟩
    · intro ⟨htest, token, hholds⟩
      obtain ⟨child, _, _, hentry⟩ := h.current test htest token hholds
      exact List.mem_map_of_mem hentry
  rw [List.countP_eq_length_filter, ← hperm.length_eq, List.length_map]
  rfl

/-- The end of a test without an entry leaves the set as it is. -/
theorem outstanding_finishJob_of_notMem {index test : Nat} (hruns : dispatcher.Runs test index)
    (hnone : ∀ token, (test, token) ∉ dispatcher.outstanding.entries) :
    (dispatcher.finishJob index).outstanding = dispatcher.outstanding := by
  obtain ⟨ended, hended, htest⟩ := hruns
  rw [outstanding_finishJob hended]
  unfold forget
  unfold isTest at htest
  cases hwork : ended.work with
  | clock payload => rfl
  | test run =>
    rw [hwork, Work.test?, beq_iff_eq] at htest
    cases htest
    refine TokenSet.drop_eq_self ?_
    intro entry hentry heq
    exact hnone entry.2 (heq ▸ hentry)

/-- The books of the current generation, with the history that led to it. -/
structure Books (told : List Entry) (dispatcher : Dispatcher) : Prop where
  /-- The token of the generation is not cancelled. -/
  live : dispatcher.tokens.isCancelled dispatcher.generation = false
  /-- No test is listed twice. -/
  nodup : (currentTests told).Nodup
  /-- An unfinished test of the generation has a token right below that of
  the generation, and is in the set with it. -/
  current : ∀ test ∈ currentTests told, ∀ token, dispatcher.Holds test token →
    ∃ child : Token, token = some child ∧ child.ancestors = dispatcher.generation.lineage ∧
      (test, child) ∈ dispatcher.outstanding.entries
  /-- Any other unfinished test was submitted before a supersession; its
  token is cancelled, and it is not in the set. -/
  others : ∀ test ∉ currentTests told, ∀ token, dispatcher.Holds test token →
    (∃ front back, told = front ++ .superseded :: back ∧ .submitted test true ∈ front) ∧
      (∃ child : Token, token = some child ∧ dispatcher.tokens.isCancelled child = true) ∧
      ∀ child, (test, child) ∉ dispatcher.outstanding.entries
  /-- The size of the set is the number of unfinished tests of the
  generation. -/
  count : dispatcher.outstanding.size = (currentTests told).countP dispatcher.unfinished
  /-- To cancel the generation tells that number, and leaves none. -/
  cancel : dispatcher.cancelGeneration.1 = (currentTests told).countP dispatcher.unfinished ∧
    dispatcher.cancelGeneration.2.outstanding.size = 0
  /-- The end of any other test leaves the set as it is. -/
  late : ∀ index test, dispatcher.Runs test index → test ∉ currentTests told →
    (dispatcher.finishJob index).outstanding = dispatcher.outstanding

/-- The books of the generation are right in every state.

Take any run from a fresh dispatcher: commands, cancellations, refusals by
the pool, starts of jobs and their ends, and shutdowns, in any order.
Behind it the token of the generation is not cancelled, the unfinished
tests that the pool took since the last supersession are those in the set,
each under a token right below that of the generation, and every older one
is cancelled and out of the set, so that its end changes nothing there. -/
theorem generation_books (config : Config) (workers jobCapacity : Nat) (registry : Registry)
    (timeHook : Option TimeHook) (actions : List Action) :
    let start := fresh config workers jobCapacity registry timeHook
    Books (start.history actions) (start.actAll actions) := by
  intro start
  have hledger : Ledger (currentTests (start.history actions)) (start.actAll actions) :=
    (ledger_fresh config workers jobCapacity registry timeHook).actAll
      (placed_fresh config workers jobCapacity registry timeHook)
      (orderly_fresh config workers jobCapacity registry timeHook) actions
  have hrooted := (rooted_fresh config workers jobCapacity registry timeHook).actAll actions
  have hregistered := (registered_fresh config workers jobCapacity registry timeHook).actAll actions
  have hsubmitted : Submitted (start.history actions) (start.actAll actions) := by
    have hempty : Submitted [] start := by
      rintro test token ⟨job, hjob, _⟩
      exact absurd hjob List.not_mem_nil
    exact history_preserves (fun _ _ action h => h.act action) hempty actions
  have hcount := hledger.size_outstanding hregistered
  have houtside : ∀ test ∉ currentTests (start.history actions), ∀ child,
      (test, child) ∉ (start.actAll actions).outstanding.entries := by
    intro test htest child hentry
    exact htest (hledger.listed.subset (List.mem_map_of_mem hentry))
  exact {
    live := hrooted.isCancelled_generation
    nodup := hledger.sorted.imp Nat.ne_of_lt
    current := hledger.current
    others := fun test htest token hholds =>
      ⟨superseded_of_notMem_currentTests (hsubmitted test token hholds) htest,
        hledger.others test htest token hholds, houtside test htest⟩
    count := hcount
    cancel := ⟨hcount, rfl⟩
    late := fun index test hruns htest =>
      outstanding_finishJob_of_notMem hruns (houtside test htest) }

/-- A test ends behind the generation that it belongs to; the test of the
next generation stays outstanding. -/
example : ((fresh {} 1 4 oneExecutor none).actAll [askForTest 1, .startJob, .cancelGeneration,
    askForTest 2, .finishJob 0]).outstanding.size = 1 :=
  rfl

end Dispatcher

end TestRig
