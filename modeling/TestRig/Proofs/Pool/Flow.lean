import TestRig.Proofs.Pool.Workshop
import Mathlib.Data.List.Perm.Basic

/-!
# The way of a job through a pool

A job is accepted, waits, is taken by a worker or dropped, and ends.

* `Change` says what an act can do to a pool, and what it tells of it; every
  act but a shutdown, which is made of other acts, is one (`change_act`).
* `Flow` is the invariant on the jobs: they are taken in the order in which
  they were accepted, and a job that was started ended or runs.
-/

namespace TestRig.Pool

variable {α : Type}

/-! ## What an act changes -/

/-- What an act can do to a pool, and what it tells of it. -/
inductive Change (pool : Pool α) : List (Event α) → Pool α → Prop where
  /-- The jobs stay as they are; the number of a guard may be used up. -/
  | quiet (told : List (Event α)) (htold : told = [] ∨ (∃ failure, told = [.refused failure]) ∨
      ∃ token, told = [.cancelled token]) (next : Nat) (hnext : pool.live.next ≤ next) :
      Change pool told { pool with live := { pool.live with next } }
  /-- A job is accepted; it has no token. -/
  | plain (work : α) (htakes : pool.takesJob = true) :
      Change pool [.accepted { work }] { pool with pending := pool.pending ++ [{ work }] }
  /-- A job is accepted, and its token is live. -/
  | cancellable (work : α) (token : Token) (htakes : pool.takesJob = true) :
      Change pool [.accepted ⟨work, some token, some ⟨pool.live.next⟩⟩]
        { pool with
          live := (pool.live.insert token).2
          pending := pool.pending ++ [⟨work, some token, some ⟨pool.live.next⟩⟩] }
  | started (job : Job α) (rest : List (Job α)) (hpending : pool.pending = job :: rest)
      (hfree : pool.running.length < pool.size) :
      Change pool [.started job] { pool with pending := rest, running := pool.running ++ [job] }
  | ended (index : Nat) (job : Job α) (hrunning : pool.running[index]? = some job)
      (panicked : Bool) :
      Change pool [.ended job panicked]
        ({ pool with running := pool.running.eraseIdx index }.release job)
  | discarded (job : Job α) (rest : List (Job α)) (hclosed : pool.accepting = false)
      (hpending : pool.pending = job :: rest) :
      Change pool [.discarded job] ({ pool with pending := rest }.release job)
  | broadcast :
      Change pool [.broadcast (pool.live.entries.map Prod.snd)]
        { pool with live := { pool.live with entries := [] } }
  | closed : Change pool [.closed] { pool with accepting := false }

theorem Change.refl (pool : Pool α) {told : List (Event α)}
    (htold : told = [] ∨ (∃ failure, told = [.refused failure]) ∨
      ∃ token, told = [.cancelled token]) : Change pool told pool :=
  .quiet told htold pool.live.next (Nat.le_refl _)

/-- No entry of the live tokens has the number of the next guard. -/
def Fresh (pool : Pool α) : Prop :=
  ∀ entry ∈ pool.live.entries, entry.1 < pool.live.next

/-- A job that is submitted is accepted, and waits behind the others, or it is refused. -/
theorem submit_outcome {shop : Workshop α} (hfresh : Fresh shop.pool)
    (submission : Submission α) :
    (shop.pool.takesJob = true ∧ (shop.submit submission).1 = .ok () ∧
      Change shop.pool (shop.submitTold submission).1 (shop.submit submission).2.pool) ∨
    (shop.pool.takesJob = false ∧ (shop.submit submission).1 = .error shop.pool.refusal ∧
      ∃ next, shop.pool.live.next ≤ next ∧ (shop.submit submission).2.pool =
        { shop.pool with live := { shop.pool.live with next } }) := by
  unfold Workshop.submitTold
  cases submission with
  | plain work =>
    rcases shop.pool.submit_cases work with ⟨htakes, heq⟩ | ⟨htakes, heq⟩
    · refine .inl ⟨htakes, ?_⟩
      simp only [Workshop.submit, heq, List.getLast?_concat]
      exact ⟨trivial, .plain work htakes⟩
    · refine .inr ⟨htakes, ?_⟩
      simp only [Workshop.submit, heq]
      exact ⟨trivial, _, Nat.le_refl _, rfl⟩
  | cancellable work =>
    rcases shop.pool.submitWithToken_cases shop.tokens.root.1 work with
      ⟨htakes, heq⟩ | ⟨htakes, heq⟩
    · refine .inl ⟨htakes, ?_⟩
      simp only [Workshop.submit, submitCancellable, heq, List.getLast?_concat]
      exact ⟨trivial, .cancellable work _ htakes⟩
    · refine .inr ⟨htakes, ?_⟩
      rw [TokenSet.insert_drop_eq hfresh] at heq
      simp only [Workshop.submit, submitCancellable, heq]
      exact ⟨trivial, _, Nat.le_succ _, rfl⟩
  | under token work =>
    rcases shop.pool.submitWithToken_cases token work with ⟨htakes, heq⟩ | ⟨htakes, heq⟩
    · refine .inl ⟨htakes, ?_⟩
      simp only [Workshop.submit, heq, List.getLast?_concat]
      exact ⟨trivial, .cancellable work _ htakes⟩
    · refine .inr ⟨htakes, ?_⟩
      rw [TokenSet.insert_drop_eq hfresh] at heq
      simp only [Workshop.submit, heq]
      exact ⟨trivial, _, Nat.le_succ _, rfl⟩

theorem change_submitTold {shop : Workshop α} (hfresh : Fresh shop.pool)
    (submission : Submission α) :
    Change shop.pool (shop.submitTold submission).1 (shop.submitTold submission).2.pool := by
  rw [Workshop.submitTold_snd]
  rcases submit_outcome hfresh submission with ⟨_, _, hchange⟩ | ⟨_, hrefused, next, hnext, hpool⟩
  · exact hchange
  · rw [hpool]
    have htold : (shop.submitTold submission).1 = [.refused shop.pool.refusal] := by
      unfold Workshop.submitTold
      generalize shop.submit submission = result at hrefused
      obtain ⟨answer, after⟩ := result
      subst hrefused
      rfl
    rw [htold]
    exact .quiet _ (.inr (.inl ⟨_, rfl⟩)) next hnext

/-- Every act but a shutdown, which is made of the others, is a change. -/
theorem change_act {shop : Workshop α} (hfresh : Fresh shop.pool) {act : Act α}
    (hact : act ≠ .shutdown) : Change shop.pool (shop.act act).1 (shop.act act).2.pool := by
  cases act with
  | root => exact .refl _ (.inl rfl)
  | child index =>
    simp only [Workshop.act]
    cases shop.held[index]? <;> exact .refl _ (.inl rfl)
  | cancel index =>
    simp only [Workshop.act]
    cases shop.held[index]? with
    | some token => exact .refl _ (.inr (.inr ⟨token, rfl⟩))
    | none => exact .refl _ (.inl rfl)
  | submit work => exact change_submitTold hfresh _
  | submitCancellable work => exact change_submitTold hfresh _
  | submitUnder index work =>
    simp only [Workshop.act]
    cases shop.held[index]? with
    | some token => exact change_submitTold hfresh _
    | none => exact .refl _ (.inl rfl)
  | start =>
    simp only [Workshop.act]
    cases hstart : shop.pool.start? id with
    | some pool =>
      obtain ⟨job, rest, hpending, hfree, rfl⟩ := start?_eq_some hstart
      dsimp only
      rw [hpending]
      exact .started job rest hpending hfree
    | none => exact .refl _ (.inl rfl)
  | finish index panicked =>
    simp only [Workshop.act]
    cases hrunning : shop.pool.running[index]? with
    | some job =>
      have hfinish : shop.pool.finish index =
          ({ shop.pool with running := shop.pool.running.eraseIdx index }.release job) := by
        rw [finish, hrunning]
      dsimp only
      rw [hfinish]
      exact .ended index job hrunning panicked
    | none => exact .refl _ (.inl rfl)
  | cancelAll => exact .broadcast
  | close => exact .closed
  | discard =>
    simp only [Workshop.act]
    split
    · rename_i job rest hclosed hpending
      exact .discarded job rest hclosed hpending
    · exact .refl _ (.inl rfl)
  | shutdown => exact absurd rfl hact

/-! ## Where the jobs go -/

/-- The jobs of a pool, and what was told of them. -/
structure Flow (size capacity : Nat) (told : List (Event α)) (pool : Pool α) : Prop where
  size : pool.size = max size 1
  capacity : pool.capacity = max capacity 1
  workers : pool.running.length ≤ pool.size
  places : pool.pending.length ≤ pool.capacity
  /-- Jobs stop waiting in the order in which they were accepted. -/
  order : acceptedIn told = takenIn told ++ pool.pending
  /-- A job stops waiting because a worker takes it, or because it is dropped. -/
  taken : (takenIn told).Perm (startedIn told ++ discardedIn told)
  sequence : (startedIn told).Sublist (takenIn told)
  /-- A job that was started ended, or runs. -/
  started : (startedIn told).Perm (endedIn told ++ pool.running)
  closed : pool.accepting = !told.any Event.isClosed
  discards : pool.accepting = true → discardedIn told = []

theorem flow_idle (size capacity : Nat) :
    Flow size capacity [] (Pool.idle size capacity : Pool α) where
  size := rfl
  capacity := rfl
  workers := Nat.zero_le _
  places := Nat.zero_le _
  order := rfl
  taken := .nil
  sequence := .slnil
  started := .nil
  closed := rfl
  discards _ := rfl

section Flow

variable {size capacity : Nat} {told : List (Event α)} {pool after : Pool α}

/-- An event that is not about a job, nor about closing. -/
theorem Flow.aside (h : Flow size capacity told pool) {event : Event α}
    (hevent : (∃ failure, event = .refused failure) ∨ (∃ token, event = .cancelled token) ∨
      ∃ tokens, event = .broadcast tokens) (live : TokenSet) :
    Flow size capacity (told ++ [event]) { pool with live } := by
  rcases hevent with ⟨_, rfl⟩ | ⟨_, rfl⟩ | ⟨_, rfl⟩
  all_goals
    exact {
      size := h.size
      capacity := h.capacity
      workers := h.workers
      places := h.places
      order := by simpa [List.filterMap_cons] using h.order
      taken := by simpa [List.filterMap_cons] using h.taken
      sequence := by simpa [List.filterMap_cons] using h.sequence
      started := by simpa [List.filterMap_cons] using h.started
      closed := by simpa using h.closed
      discards := by simpa using h.discards }

/-- A job is accepted. -/
theorem Flow.accepted (h : Flow size capacity told pool) (htakes : pool.takesJob = true)
    (job : Job α) (live : TokenSet) :
    Flow size capacity (told ++ [.accepted job])
      { pool with pending := pool.pending ++ [job], live } := by
  obtain ⟨haccepting, hroom⟩ := Bool.and_eq_true_iff.mp htakes
  have horder := h.order
  exact {
    size := h.size
    capacity := h.capacity
    workers := h.workers
    places := by
      rw [List.length_append]
      exact of_decide_eq_true hroom
    order := by simp [List.filterMap_cons, horder]
    taken := by simpa [List.filterMap_cons] using h.taken
    sequence := by simpa [List.filterMap_cons] using h.sequence
    started := by simpa [List.filterMap_cons] using h.started
    closed := by simpa using h.closed
    discards := by simpa using h.discards }

/-- A worker takes the oldest job. -/
theorem Flow.started_job (h : Flow size capacity told pool) {job : Job α} {rest : List (Job α)}
    (hpending : pool.pending = job :: rest) (hfree : pool.running.length < pool.size) :
    Flow size capacity (told ++ [.started job])
      { pool with pending := rest, running := pool.running ++ [job] } := by
  have horder := h.order
  have hplaces := h.places
  have htaken : (takenIn told ++ [job]).Perm (startedIn told ++ job :: discardedIn told) := by
    refine (h.taken.append_right [job]).trans ?_
    rw [List.append_assoc]
    exact (List.perm_append_singleton job _).append_left _
  have hstarted := h.started.append_right [job]
  rw [hpending] at horder
  rw [hpending, List.length_cons] at hplaces
  rw [List.append_assoc] at hstarted
  exact {
    size := h.size
    capacity := h.capacity
    workers := by
      rw [List.length_append]
      exact hfree
    places := Nat.le_of_succ_le hplaces
    order := by simp [List.filterMap_cons, horder]
    taken := by simpa [List.filterMap_cons] using htaken
    sequence := by
      simpa [List.filterMap_cons] using h.sequence.append_right [job]
    started := by simpa [List.filterMap_cons] using hstarted
    closed := by simpa using h.closed
    discards := by simpa using h.discards }

/-- A running job ends. -/
theorem Flow.ended_job (h : Flow size capacity told pool) {index : Nat} {job : Job α}
    (hrunning : pool.running[index]? = some job) (panicked : Bool) (live : TokenSet) :
    Flow size capacity (told ++ [.ended job panicked])
      { pool with running := pool.running.eraseIdx index, live } := by
  have herase := List.length_eraseIdx_le pool.running index
  obtain ⟨hindex, rfl⟩ := List.getElem?_eq_some_iff.mp hrunning
  have hsplit := List.getElem_cons_eraseIdx_perm hindex
  have hstarted := h.started.trans (hsplit.symm.append_left (endedIn told))
  exact {
    size := h.size
    capacity := h.capacity
    workers := Nat.le_trans herase h.workers
    places := h.places
    order := by simpa [List.filterMap_cons] using h.order
    taken := by simpa [List.filterMap_cons] using h.taken
    sequence := by simpa [List.filterMap_cons] using h.sequence
    started := by simpa [List.filterMap_cons] using hstarted
    closed := by simpa using h.closed
    discards := by simpa using h.discards }

/-- A waiting job is dropped. -/
theorem Flow.discarded_job (h : Flow size capacity told pool) {job : Job α}
    {rest : List (Job α)} (hclosed : pool.accepting = false) (hpending : pool.pending = job :: rest)
    (live : TokenSet) :
    Flow size capacity (told ++ [.discarded job]) { pool with pending := rest, live } := by
  have horder := h.order
  have hplaces := h.places
  have htaken := h.taken.append_right [job]
  rw [hpending] at horder
  rw [hpending, List.length_cons] at hplaces
  rw [List.append_assoc] at htaken
  exact {
    size := h.size
    capacity := h.capacity
    workers := h.workers
    places := Nat.le_of_succ_le hplaces
    order := by simp [List.filterMap_cons, horder]
    taken := by simpa [List.filterMap_cons] using htaken
    sequence := by
      simpa [List.filterMap_cons] using h.sequence.trans (List.sublist_append_left _ [job])
    started := by simpa [List.filterMap_cons] using h.started
    closed := by simpa using h.closed
    discards := by
      intro haccepting
      rw [hclosed] at haccepting
      cases haccepting }

/-- The pool is closed. -/
theorem Flow.close (h : Flow size capacity told pool) :
    Flow size capacity (told ++ [.closed]) { pool with accepting := false } where
  size := h.size
  capacity := h.capacity
  workers := h.workers
  places := h.places
  order := by simpa [List.filterMap_cons] using h.order
  taken := by simpa [List.filterMap_cons] using h.taken
  sequence := by simpa [List.filterMap_cons] using h.sequence
  started := by simpa [List.filterMap_cons] using h.started
  closed := by simp
  discards := nofun

theorem Flow.change (h : Flow size capacity told pool) {told' : List (Event α)}
    (hchange : Change pool told' after) : Flow size capacity (told ++ told') after := by
  cases hchange with
  | quiet _ htold next hnext =>
    rcases htold with rfl | ⟨failure, rfl⟩ | ⟨token, rfl⟩
    · rw [List.append_nil]
      exact ⟨h.size, h.capacity, h.workers, h.places, h.order, h.taken, h.sequence, h.started,
        h.closed, h.discards⟩
    · exact h.aside (.inl ⟨failure, rfl⟩) _
    · exact h.aside (.inr (.inl ⟨token, rfl⟩)) _
  | plain work htakes => exact h.accepted htakes _ pool.live
  | cancellable work token htakes => exact h.accepted htakes _ _
  | started job rest hpending hfree => exact h.started_job hpending hfree
  | ended index job hrunning panicked =>
    rw [release_eq]
    exact h.ended_job hrunning panicked _
  | discarded job rest hclosed hpending =>
    rw [release_eq]
    exact h.discarded_job hclosed hpending _
  | broadcast => exact h.aside (.inr (.inr ⟨_, rfl⟩)) _
  | closed => exact h.close

end Flow

theorem mem_goneIn {told : List (Event α)} {job : Job α} :
    job ∈ goneIn told ↔ job ∈ endedIn told ∨ job ∈ discardedIn told := by
  simp only [goneIn, endedIn, discardedIn, List.mem_filterMap, ← exists_or, ← and_or_left]
  refine exists_congr fun event => and_congr_right fun _ => ?_
  cases event <;> simp

/-- Only a job that was accepted ends or is dropped. -/
theorem Flow.goneIn_subset {size capacity : Nat} {told : List (Event α)} {pool : Pool α}
    (h : Flow size capacity told pool) : goneIn told ⊆ acceptedIn told := by
  intro job hjob
  rw [h.order]
  refine List.mem_append_left _ (h.taken.mem_iff.mpr (List.mem_append.mpr ?_))
  exact (mem_goneIn.mp hjob).imp_left fun hended =>
    h.started.mem_iff.mpr (List.mem_append_left _ hended)

/-- If no job waits or runs, all that were accepted are gone. -/
theorem Flow.subset_goneIn {size capacity : Nat} {told : List (Event α)} {pool : Pool α}
    (h : Flow size capacity told pool) (hpending : pool.pending = [])
    (hrunning : pool.running = []) :
    acceptedIn told ⊆ goneIn told := by
  intro job hjob
  rw [h.order, hpending, List.append_nil, h.taken.mem_iff, List.mem_append] at hjob
  refine mem_goneIn.mpr (hjob.imp_left fun hstarted => ?_)
  rwa [h.started.mem_iff, hrunning, List.append_nil] at hstarted

end TestRig.Pool
