import TestRig.Proofs.Pool.LiveTokens

/-!
# The account of a pool

Whatever the callers and the workers of a pool do, in whatever order, every
job that was accepted is taken once, in order, or dropped at the end, and
the counters are exact.

* `Sound` holds the invariants together; `sound_run` is the induction over
  a run.
* `isCancelled_run` says which tokens are cancelled behind a run.
* `Account` is what follows for every state that can be reached, and
  `account_run` says that it holds there.
-/

namespace TestRig.Pool

variable {α : Type}

/-! ## The invariants of a run -/

/-- The three invariants. -/
structure Sound (size capacity : Nat) (told : List (Event α)) (shop : Workshop α) : Prop where
  flow : Flow size capacity told shop.pool
  guarded : Guarded told shop.pool
  handed : Handed shop

theorem sound_run (size capacity : Nat) (acts : List (Act α)) :
    let reached := (Workshop.idle size capacity : Workshop α).run acts
    Sound size capacity reached.1 reached.2 := by
  have hidle : Sound size capacity [] (Workshop.idle size capacity : Workshop α) :=
    ⟨flow_idle size capacity, ⟨rfl, nofun, .nil, nofun⟩, ⟨nofun, nofun, nofun⟩⟩
  refine Workshop.run_preserves ?_ hidle acts
  intro told shop act hact h
  have hchange := change_act h.guarded.fresh hact
  exact ⟨h.flow.change hchange, h.guarded.change h.flow.goneIn_subset hchange, h.handed.act hact⟩

/-! ## Cancelled tokens -/

theorem mem_cancelled_submitTold (shop : Workshop α) (submission : Submission α) :
    (shop.submitTold submission).2.tokens.cancelled = shop.tokens.cancelled ∧
      cancelledIn (shop.submitTold submission).1 = [] := by
  have hcancelled : (shop.submit submission).2.tokens.cancelled = shop.tokens.cancelled := by
    cases submission with
    | plain work => rfl
    | cancellable work =>
      simp only [Workshop.submit, submitCancellable]
      generalize shop.pool.submitWithToken shop.tokens.root.1 work = result
      obtain ⟨_ | _, pool⟩ := result <;> rfl
    | under token work => rfl
  rw [Workshop.submitTold_snd]
  refine ⟨hcancelled, ?_⟩
  unfold Workshop.submitTold
  split
  · rename_i after _
    cases after.pool.pending.getLast? <;> rfl
  · rfl

/-- The tokens that an act cancels are those that it tells. -/
theorem mem_cancelled_act (shop : Workshop α) {act : Act α} (hact : act ≠ .shutdown)
    (number : Nat) :
    number ∈ (shop.act act).2.tokens.cancelled ↔
      number ∈ shop.tokens.cancelled ∨
        ∃ token ∈ cancelledIn (shop.act act).1, token.id = number := by
  have hnone : ∀ {told : List (Event α)} {after : Workshop α},
      after.tokens.cancelled = shop.tokens.cancelled ∧ cancelledIn told = [] →
        (number ∈ after.tokens.cancelled ↔
          number ∈ shop.tokens.cancelled ∨ ∃ token ∈ cancelledIn told, token.id = number) := by
    rintro told after ⟨hcancelled, htold⟩
    rw [hcancelled, htold]
    exact ⟨.inl, fun h => h.resolve_right nofun⟩
  cases act with
  | root => exact hnone ⟨rfl, rfl⟩
  | child index =>
    simp only [Workshop.act]
    cases shop.held[index]? <;> exact hnone ⟨rfl, rfl⟩
  | cancel index =>
    simp only [Workshop.act]
    cases shop.held[index]? with
    | some token =>
      show number ∈ token.id :: shop.tokens.cancelled ↔ _
      rw [List.mem_cons, or_comm]
      simp [eq_comm]
    | none => exact hnone ⟨rfl, rfl⟩
  | submit work => exact hnone (mem_cancelled_submitTold shop _)
  | submitCancellable work => exact hnone (mem_cancelled_submitTold shop _)
  | submitUnder index work =>
    simp only [Workshop.act]
    cases shop.held[index]? with
    | some token => exact hnone (mem_cancelled_submitTold shop _)
    | none => exact hnone ⟨rfl, rfl⟩
  | start =>
    simp only [Workshop.act]
    cases shop.pool.start? id with
    | some pool =>
      refine hnone ⟨rfl, ?_⟩
      cases shop.pool.pending.head? <;> rfl
    | none => exact hnone ⟨rfl, rfl⟩
  | finish index panicked =>
    simp only [Workshop.act]
    cases shop.pool.running[index]? <;> exact hnone ⟨rfl, rfl⟩
  | cancelAll =>
    refine TokenSet.mem_cancelled_cancelAll.trans (or_congr_right ?_)
    have hlive : cancelledIn (shop.act .cancelAll).1 = shop.pool.live.entries.map Prod.snd :=
      List.append_nil _
    rw [hlive]
    constructor
    · rintro ⟨entry, hentry, heq⟩
      exact ⟨entry.2, List.mem_map_of_mem hentry, heq⟩
    · rintro ⟨token, htoken, heq⟩
      obtain ⟨entry, hentry, rfl⟩ := List.mem_map.mp htoken
      exact ⟨entry, hentry, heq⟩
  | close => exact hnone ⟨rfl, rfl⟩
  | discard =>
    simp only [Workshop.act]
    split
    · refine hnone ⟨rfl, rfl⟩
    · exact hnone ⟨rfl, rfl⟩
  | shutdown => exact absurd rfl hact

theorem mem_cancelled_run (shop : Workshop α) (acts : List (Act α)) (id : Nat) :
    id ∈ (shop.run acts).2.tokens.cancelled ↔
      id ∈ shop.tokens.cancelled ∨ ∃ own ∈ cancelledIn (shop.run acts).1, own.id = id := by
  have hstart : id ∈ shop.tokens.cancelled ↔
      id ∈ shop.tokens.cancelled ∨ ∃ own ∈ cancelledIn ([] : List (Event α)), own.id = id :=
    ⟨.inl, fun h => h.resolve_right nofun⟩
  refine @Workshop.run_preserves α (fun told after => id ∈ after.tokens.cancelled ↔
    id ∈ shop.tokens.cancelled ∨ ∃ own ∈ cancelledIn told, own.id = id) ?_ [] shop hstart acts
  intro told before act hact h
  have happend : cancelledIn (told ++ (before.act act).1) =
      cancelledIn told ++ cancelledIn (before.act act).1 := List.flatMap_append
  rw [mem_cancelled_act before hact, h, happend, or_assoc]
  simp only [List.mem_append, or_and_right, exists_or]

/-- A token is cancelled in a run exactly if it, or one above it, is
cancelled itself. -/
theorem isCancelled_run (shop : Workshop α) (acts : List (Act α)) (token : Token) :
    (shop.run acts).2.tokens.isCancelled token = true ↔
      shop.tokens.isCancelled token = true ∨
        ∃ own ∈ cancelledIn (shop.run acts).1, own.id ∈ token.lineage := by
  simp only [Tokens.isCancelled_iff, mem_cancelled_run, and_or_left, exists_or]
  refine or_congr_right ⟨?_, ?_⟩
  · rintro ⟨_, hid, own, hown, rfl⟩
    exact ⟨own, hown, hid⟩
  · rintro ⟨own, hown, hid⟩
    exact ⟨own.id, hid, own, hown, rfl⟩

/-! ## The account -/

/-- A job was cancelled by the broadcast. -/
def Above (jobs : List (Job α)) (token : Token) : Prop :=
  ∃ job ∈ jobs, ∃ own, job.token = some own ∧ own.id ∈ token.lineage

/-- What holds of a pool behind a run. -/
structure Account (size capacity : Nat) (told : List (Event α)) (shop : Workshop α) : Prop where
  /-- No more jobs run than there are workers. -/
  workers : shop.pool.running.length ≤ max size 1
  /-- No more jobs wait than there are places. -/
  places : shop.pool.pending.length ≤ max capacity 1
  /-- Every accepted job stops waiting once, in the order of submission. -/
  order : acceptedIn told = takenIn told ++ shop.pool.pending
  /-- It stops waiting because a worker takes it, or because it is dropped. -/
  taken : (takenIn told).Perm (startedIn told ++ discardedIn told)
  /-- Jobs start in the order of submission. -/
  sequence : (startedIn told).Sublist (acceptedIn told)
  /-- Every job that started has ended, once, or runs. -/
  started : (startedIn told).Perm (endedIn told ++ shop.pool.running)
  /-- Jobs are dropped only behind the begin of a shutdown. -/
  discards : told.any Event.isClosed = false → discardedIn told = []
  /-- A free worker takes the oldest waiting job, whatever became of the jobs
  before it. -/
  next : ∀ job rest, shop.pool.pending = job :: rest → shop.pool.running.length < max size 1 →
    (shop.act .start).1 = [.started job]
  /-- A submission fails behind a shutdown, -/
  shutdown : ∀ submission, (shop.submit submission).1 = .error .poolShutdown ↔
    told.any Event.isClosed = true
  /-- and before it only if there is no place. -/
  full : ∀ submission, (shop.submit submission).1 = .error (.queueFull (max capacity 1)) ↔
    told.any Event.isClosed = false ∧ shop.pool.pending.length = max capacity 1
  /-- There are no other failures, and a failure leaves everything as it is. -/
  refused : ∀ submission failure, (shop.submit submission).1 = .error failure →
    (failure = .poolShutdown ∨ failure = .queueFull (max capacity 1)) ∧
      (shop.submit submission).2.pool.pending = shop.pool.pending ∧
      (shop.submit submission).2.pool.running = shop.pool.running ∧
      (shop.submit submission).2.pool.live.entries = shop.pool.live.entries
  /-- An accepted job waits behind the others, and is to run what was
  submitted.  A cancellable one is under its token, which its guard keeps
  live; a plain one has neither.  It is not cancelled yet, unless it was
  submitted under a token that is. -/
  accepted : ∀ submission, (shop.submit submission).1 = .ok () → ∃ job,
    (shop.submitTold submission).1 = [.accepted job] ∧
      (shop.submit submission).2.pool.pending = shop.pool.pending ++ [job] ∧
      job.work = submission.work ∧ job.token = shop.tokenOf? submission ∧
      job.guard.isSome = job.token.isSome ∧
      ∀ token, job.token = some token →
        (∃ guard, job.guard = some guard ∧
          (guard.id, token) ∈ (shop.submit submission).2.pool.live.entries) ∧
        (shop.submit submission).2.tokens.isCancelled token = shop.startsCancelled submission
  /-- A caller gets the token that was made for its job. -/
  handed : ∀ submission, (shop.submit submission).1 = .ok () →
    (shop.submit submission).2.held = shop.held ++ shop.handsOut submission
  /-- However a job ends, its worker is free again and its token is not live. -/
  finish : ∀ (index : Nat) (job : Job α) (panicked : Bool), shop.pool.running[index]? = some job →
    (shop.act (.finish index panicked)).1 = [.ended job panicked] ∧
      (shop.act (.finish index panicked)).2.pool.running = shop.pool.running.eraseIdx index ∧
      (shop.act (.finish index panicked)).2.pool.pending = shop.pool.pending ∧
      ∀ entry ∈ (shop.act (.finish index panicked)).2.pool.live.entries,
        job.guard ≠ some ⟨entry.1⟩
  /-- A job is known by its guard. -/
  distinct : ((acceptedIn told).filterMap Job.guard).Nodup
  /-- The live tokens are those of the open jobs. -/
  live : shop.pool.live.size = (openJobs told).length
  /-- Without a job there is no live token. -/
  idle : shop.pool.pending = [] → shop.pool.running = [] → shop.pool.live.size = 0
  /-- To cancel all tells their number, and leaves none. -/
  cancelAll : (shop.pool.cancelAll shop.tokens).1 = (openJobs told).length ∧
    (shop.pool.cancelAll shop.tokens).2.1.live.size = 0
  /-- It cancels their tokens and what is below them, and no others. -/
  cancels : ∀ token, (shop.pool.cancelAll shop.tokens).2.2.isCancelled token = true ↔
    shop.tokens.isCancelled token = true ∨ Above (openJobs told) token
  /-- A shutdown leaves no waiting job and no live token; the jobs that run
  come to their end later. -/
  stops : (shop.act .shutdown).2.pool.pending = [] ∧
    (shop.act .shutdown).2.pool.live.size = 0 ∧
    (shop.act .shutdown).2.pool.running = shop.pool.running
  /-- A token that is made now is not cancelled, nor one below a token that
  is not cancelled. -/
  root : shop.tokens.root.2.isCancelled shop.tokens.root.1 = false
  child : ∀ parent, (shop.tokens.child parent).2.isCancelled (shop.tokens.child parent).1 =
    shop.tokens.isCancelled parent
  /-- From now on a token is cancelled exactly if it, or one above it, is
  cancelled by a caller or was live when all live tokens were cancelled. -/
  later : ∀ acts token, (shop.run acts).2.tokens.isCancelled token = true ↔
    shop.tokens.isCancelled token = true ∨
      ∃ own ∈ cancelledIn (shop.run acts).1, own.id ∈ token.lineage

theorem Handed.isCancelled_root {shop : Workshop α} (h : Handed shop) :
    shop.tokens.root.2.isCancelled shop.tokens.root.1 = false := by
  rw [Bool.eq_false_iff]
  intro hcancelled
  obtain ⟨id, hid, hmem⟩ := Tokens.isCancelled_iff.mp hcancelled
  rw [List.mem_singleton.mp hid] at hmem
  exact Nat.lt_irrefl _ (h.cancelled _ hmem)

theorem Handed.isCancelled_child {shop : Workshop α} (h : Handed shop) (parent : Token) :
    (shop.tokens.child parent).2.isCancelled (shop.tokens.child parent).1 =
      shop.tokens.isCancelled parent := by
  rw [Bool.eq_iff_iff, Tokens.isCancelled_iff, Tokens.isCancelled_iff]
  constructor
  · rintro ⟨id, hid, hmem⟩
    rcases List.mem_cons.mp hid with rfl | hid
    · exact absurd (h.cancelled _ hmem) (Nat.lt_irrefl _)
    · exact ⟨id, hid, hmem⟩
  · rintro ⟨id, hid, hmem⟩
    exact ⟨id, List.mem_cons_of_mem _ hid, hmem⟩

/-- A job that a submission adds.  It is under a new token, under the given
one, or under none. -/
theorem accepted_of_submit {shop : Workshop α} (h : Handed shop) {submission : Submission α}
    (hok : (shop.submit submission).1 = .ok ()) :
    ∃ job, (shop.submitTold submission).1 = [.accepted job] ∧
      (shop.submit submission).2.pool.pending = shop.pool.pending ++ [job] ∧
      job.work = submission.work ∧ job.token = shop.tokenOf? submission ∧
      job.guard.isSome = job.token.isSome ∧
      ∀ token, job.token = some token →
        (∃ guard, job.guard = some guard ∧
          (guard.id, token) ∈ (shop.submit submission).2.pool.live.entries) ∧
        (shop.submit submission).2.tokens.isCancelled token =
          shop.startsCancelled submission := by
  unfold Workshop.submitTold
  cases submission with
  | plain work =>
    rcases shop.pool.submit_cases work with ⟨_, heq⟩ | ⟨_, heq⟩
    · simp only [Workshop.submit, heq, List.getLast?_concat]
      refine ⟨_, rfl, rfl, rfl, rfl, rfl, ?_⟩
      intro token htoken
      cases htoken
    · simp only [Workshop.submit, heq] at hok
      cases hok
  | cancellable work =>
    rcases shop.pool.submitWithToken_cases shop.tokens.root.1 work with ⟨_, heq⟩ | ⟨_, heq⟩
    · simp only [Workshop.submit, submitCancellable, heq, List.getLast?_concat]
      refine ⟨_, rfl, rfl, rfl, rfl, rfl, ?_⟩
      intro token htoken
      cases htoken
      exact ⟨⟨_, rfl, List.mem_concat_self⟩, h.isCancelled_root⟩
    · simp only [Workshop.submit, submitCancellable, heq] at hok
      cases hok
  | under given work =>
    rcases shop.pool.submitWithToken_cases given work with ⟨_, heq⟩ | ⟨_, heq⟩
    · simp only [Workshop.submit, heq, List.getLast?_concat]
      refine ⟨_, rfl, rfl, rfl, rfl, rfl, ?_⟩
      intro token htoken
      cases htoken
      exact ⟨⟨_, rfl, List.mem_concat_self⟩, rfl⟩
    · simp only [Workshop.submit, heq] at hok
      cases hok

theorem held_submit {shop : Workshop α} {submission : Submission α}
    (hok : (shop.submit submission).1 = .ok ()) :
    (shop.submit submission).2.held = shop.held ++ shop.handsOut submission := by
  cases submission with
  | plain work | under token work => exact (List.append_nil _).symm
  | cancellable work =>
    rcases shop.pool.submitWithToken_cases shop.tokens.root.1 work with ⟨_, heq⟩ | ⟨_, heq⟩
    · simp only [Workshop.submit, submitCancellable, heq]
      rfl
    · simp only [Workshop.submit, submitCancellable, heq] at hok
      cases hok

/-- An open job has a guard and a token. -/
theorem Guarded.listing_of_mem {told : List (Event α)} {pool : Pool α} (h : Guarded told pool)
    {job : Job α} (hjob : job ∈ openJobs told) :
    ∃ guard token, job.token = some token ∧ listing job = some (guard, token) := by
  have hguard : job.guard.isSome = true :=
    (Bool.and_eq_true_iff.mp (List.mem_filter.mp hjob).2).1
  have htoken := h.paired job (openJobs_subset told hjob)
  rw [hguard] at htoken
  obtain ⟨guard, hguard⟩ := Option.isSome_iff_exists.mp hguard
  obtain ⟨token, htoken⟩ := Option.isSome_iff_exists.mp htoken
  exact ⟨guard.id, token, htoken, listing_eq_some hguard htoken⟩

theorem Guarded.size_live {told : List (Event α)} {pool : Pool α} (h : Guarded told pool) :
    pool.live.size = (openJobs told).length := by
  rw [TokenSet.size, h.entries, List.length_filterMap_eq_countP, List.countP_eq_length]
  intro job hjob
  obtain ⟨guard, token, _, hentry⟩ := h.listing_of_mem hjob
  rw [hentry]
  rfl

/-- All live tokens are cancelled, and with them what is below them. -/
theorem Guarded.isCancelled_cancelAll {told : List (Event α)} {pool : Pool α}
    (h : Guarded told pool) (tokens : Tokens) (token : Token) :
    (pool.cancelAll tokens).2.2.isCancelled token = true ↔
      tokens.isCancelled token = true ∨ Above (openJobs told) token := by
  show (pool.live.cancelAll tokens).2.2.isCancelled token = true ↔ _
  simp only [Tokens.isCancelled_iff, TokenSet.mem_cancelled_cancelAll, and_or_left, exists_or]
  refine or_congr_right ?_
  rw [h.entries]
  constructor
  · rintro ⟨_, hid, entry, hentry, rfl⟩
    obtain ⟨job, hjob, heq⟩ := List.mem_filterMap.mp hentry
    obtain ⟨guard, own, htoken, hown⟩ := h.listing_of_mem hjob
    rw [hown] at heq
    cases heq
    exact ⟨job, hjob, own, htoken, hid⟩
  · rintro ⟨job, hjob, own, htoken, hid⟩
    obtain ⟨guard, own', htoken', hentry⟩ := h.listing_of_mem hjob
    rw [htoken] at htoken'
    cases htoken'
    exact ⟨own.id, hid, (guard, own), List.mem_filterMap.mpr ⟨job, hjob, hentry⟩, rfl⟩

theorem takesJob_eq_true_iff {pool : Pool α} :
    pool.takesJob = true ↔ pool.accepting = true ∧ pool.pending.length < pool.capacity := by
  rw [takesJob, Bool.and_eq_true_iff, decide_eq_true_iff]

/-- Why a submission fails. -/
theorem Sound.refused {size capacity : Nat} {told : List (Event α)} {shop : Workshop α}
    (h : Sound size capacity told shop) (submission : Submission α) (failure : Failure) :
    (shop.submit submission).1 = .error failure ↔
      told.any Event.isClosed = true ∧ failure = .poolShutdown ∨
        told.any Event.isClosed = false ∧ shop.pool.pending.length = max capacity 1 ∧
          failure = .queueFull (max capacity 1) := by
  have hclosed := h.flow.closed
  have hplaces := h.flow.places
  have hcapacity := h.flow.capacity
  rcases submit_outcome h.guarded.fresh submission with
    ⟨htakes, hok, _⟩ | ⟨hrefuses, herror, _⟩
  · obtain ⟨haccepting, hroom⟩ := takesJob_eq_true_iff.mp htakes
    rw [hok]
    constructor
    · nofun
    · rintro (⟨hshut, _⟩ | ⟨_, hfull, _⟩)
      · rw [hclosed, hshut] at haccepting
        cases haccepting
      · omega
  · have hfull : ¬ (shop.pool.accepting = true ∧
        shop.pool.pending.length < shop.pool.capacity) := by
      rw [← takesJob_eq_true_iff, hrefuses]
      exact Bool.false_ne_true
    rw [herror, refusal, Except.error.injEq]
    cases hany : told.any Event.isClosed with
    | true =>
      rw [hany] at hclosed
      rw [hclosed]
      simp [eq_comm]
    | false =>
      rw [hany] at hclosed
      rw [hclosed] at hfull ⊢
      have hlength : shop.pool.pending.length = max capacity 1 := by
        simp only [Bool.not_false, true_and] at hfull
        omega
      simp [hlength, hcapacity, eq_comm]

theorem Sound.unchanged {size capacity : Nat} {told : List (Event α)} {shop : Workshop α}
    (h : Sound size capacity told shop) {submission : Submission α} {failure : Failure}
    (hrefused : (shop.submit submission).1 = .error failure) :
    (shop.submit submission).2.pool.pending = shop.pool.pending ∧
      (shop.submit submission).2.pool.running = shop.pool.running ∧
      (shop.submit submission).2.pool.live.entries = shop.pool.live.entries := by
  rcases submit_outcome h.guarded.fresh submission with ⟨_, hok, _⟩ | ⟨_, _, next, _, hpool⟩
  · rw [hok] at hrefused
    cases hrefused
  · rw [hpool]
    exact ⟨rfl, rfl, rfl⟩

/-- A free worker takes the oldest waiting job. -/
theorem act_start {shop : Workshop α} {job : Job α} {rest : List (Job α)}
    (hpending : shop.pool.pending = job :: rest)
    (hfree : shop.pool.running.length < shop.pool.size) :
    (shop.act .start).1 = [.started job] := by
  have hstart : shop.pool.start? id =
      some { shop.pool with pending := rest, running := shop.pool.running ++ [job] } := by
    unfold start?
    rw [hpending]
    exact if_pos hfree
  simp only [Workshop.act, hstart, hpending]
  rfl

theorem act_finish {shop : Workshop α} {index : Nat} {job : Job α}
    (hrunning : shop.pool.running[index]? = some job) (panicked : Bool) :
    shop.act (.finish index panicked) =
      ([.ended job panicked], { shop with
        pool := { shop.pool with running := shop.pool.running.eraseIdx index }.release job }) := by
  simp only [Workshop.act, finish, hrunning]

theorem Sound.account {size capacity : Nat} {told : List (Event α)} {shop : Workshop α}
    (h : Sound size capacity told shop) : Account size capacity told shop := by
  have hsize := h.guarded.size_live
  have hflow := h.flow
  have hclosed := hflow.closed
  exact {
    workers := hflow.size ▸ hflow.workers
    places := hflow.capacity ▸ hflow.places
    order := hflow.order
    taken := hflow.taken
    sequence := hflow.order ▸ hflow.sequence.trans (List.sublist_append_left _ _)
    started := hflow.started
    discards := fun hopen => hflow.discards (by rw [hclosed, hopen]; rfl)
    next := fun job rest hpending hfree => act_start hpending (hflow.size ▸ hfree)
    shutdown := fun submission => by simp [h.refused]
    full := fun submission => by simp [h.refused]
    refused := fun submission failure hrefused =>
      ⟨((h.refused submission failure).mp hrefused).imp And.right fun hfull => hfull.2.2,
        h.unchanged hrefused⟩
    accepted := fun submission => accepted_of_submit h.handed
    handed := fun submission => held_submit
    finish := by
      intro index job panicked hrunning
      rw [act_finish hrunning, release_eq]
      exact ⟨rfl, rfl, rfl, fun entry hentry => (mem_live_release hentry).2⟩
    distinct := h.guarded.distinct
    live := hsize
    idle := by
      intro hpending hrunning
      rw [hsize, List.length_eq_zero_iff, List.eq_nil_iff_forall_not_mem]
      intro job hjob
      have hgone := hflow.subset_goneIn hpending hrunning (openJobs_subset told hjob)
      have hany := (Bool.and_eq_true_iff.mp (List.mem_filter.mp hjob).2).2
      rw [Bool.not_eq_true', List.any_eq_false] at hany
      exact hany job hgone (beq_self_eq_true _)
    cancelAll := ⟨hsize, rfl⟩
    cancels := h.guarded.isCancelled_cancelAll shop.tokens
    stops := ⟨rfl, rfl, rfl⟩
    root := h.handed.isCancelled_root
    child := h.handed.isCancelled_child
    later := isCancelled_run shop }

/-- The account of a pool is right behind every run.

Take any number of workers and places, and any acts in any order:
submissions of all kinds, starts, ends by return or by panic, tokens that
are made and cancelled, broadcasts, and shutdowns, at once or step by step
with other acts in between. -/
theorem account_run (size capacity : Nat) (acts : List (Act α)) :
    let reached := (Workshop.idle size capacity : Workshop α).run acts
    Account size capacity reached.1 reached.2 :=
  (sound_run size capacity acts).account

/-- One worker and one place.  The broadcast finds a running job, so that
the job submitted behind it is the only open one, also when the first one
panics. -/
example : ((Workshop.idle 0 0 : Workshop Nat).run [.submitCancellable 1, .start, .cancelAll,
    .submitCancellable 2, .finish 0 true]).2.pool.live.size = 1 :=
  rfl

end TestRig.Pool
