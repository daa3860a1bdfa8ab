import TestRig.Pool
import Mathlib.Data.List.Basic
import Mathlib.Tactic.SplitIfs

/-!
# Cancelled tokens and the jobs of a pool

What the operations on tokens and on a pool do to the two things that the
users of a pool reason about: the tokens that are cancelled, and the jobs
that wait or run.

Tokens are only ever added to the cancelled ones, so a cancelled token
stays cancelled (`Tokens.isCancelled_mono`).  The tokens of a set are
cancelled together, and no others (`TokenSet.mem_cancelled_cancelAll`).  A
submission is inverted by
`Pool.submit_cases` and `Pool.submitWithToken_cases`, and the start of a
job by `Pool.start?_eq_some`.
-/

namespace TestRig

/-! ## Cancelled tokens -/

namespace Tokens

theorem isCancelled_iff {tokens : Tokens} {token : Token} :
    tokens.isCancelled token = true ↔ ∃ id ∈ token.lineage, id ∈ tokens.cancelled := by
  rw [isCancelled, List.any_eq_true]
  simp only [List.contains_iff_mem]

/-- Cancellation is not taken back. -/
theorem isCancelled_mono {before after : Tokens} (h : before.cancelled ⊆ after.cancelled)
    {token : Token} (hcancelled : before.isCancelled token = true) :
    after.isCancelled token = true := by
  rw [isCancelled_iff] at hcancelled ⊢
  obtain ⟨id, hid, hmem⟩ := hcancelled
  exact ⟨id, hid, h hmem⟩

theorem mem_cancel (tokens : Tokens) (token : Token) :
    token.id ∈ (tokens.cancel token).cancelled :=
  List.mem_cons_self

theorem cancelled_subset_cancel (tokens : Tokens) (token : Token) :
    tokens.cancelled ⊆ (tokens.cancel token).cancelled :=
  List.subset_cons_self _ _

end Tokens

/-! ## Tokens that are cancelled together -/

namespace TokenSet

/-- The tokens of the set are cancelled, and no others. -/
theorem mem_cancelled_cancelAll {set : TokenSet} {tokens : Tokens} {id : Nat} :
    id ∈ (set.cancelAll tokens).2.2.cancelled ↔
      id ∈ tokens.cancelled ∨ ∃ entry ∈ set.entries, entry.2.id = id := by
  unfold cancelAll
  generalize set.entries = entries
  induction entries generalizing tokens with
  | nil => simp
  | cons entry rest ih =>
    rw [List.foldl_cons]
    refine ih.trans ?_
    have hentry : id ∈ (tokens.cancel entry.2).cancelled ↔
        entry.2.id = id ∨ id ∈ tokens.cancelled := by
      rw [eq_comm]
      exact List.mem_cons
    rw [hentry, List.exists_mem_cons_iff, or_assoc, or_left_comm]

theorem cancelled_subset_cancelAll (set : TokenSet) (tokens : Tokens) :
    tokens.cancelled ⊆ (set.cancelAll tokens).2.2.cancelled :=
  fun _ hid => mem_cancelled_cancelAll.mpr (.inl hid)

theorem next_cancelAll (set : TokenSet) (tokens : Tokens) :
    (set.cancelAll tokens).2.2.next = tokens.next := by
  unfold cancelAll
  generalize set.entries = entries
  induction entries generalizing tokens with
  | nil => rfl
  | cons entry rest ih => exact ih (tokens.cancel entry.2)

theorem mem_drop {set : TokenSet} {guard : TokenGuard} {entry : Nat × Token} :
    entry ∈ (set.drop guard).entries ↔ entry ∈ set.entries ∧ entry.1 ≠ guard.id := by
  rw [drop, List.mem_filter, bne_iff_ne]

/-- A guard without an entry takes nothing out. -/
theorem drop_eq_self {set : TokenSet} {guard : TokenGuard}
    (h : ∀ entry ∈ set.entries, entry.1 ≠ guard.id) : set.drop guard = set := by
  unfold drop
  rw [List.filter_eq_self.mpr]
  intro entry hentry
  exact bne_iff_ne.mpr (h entry hentry)

/-- A token that is put in and taken out at once leaves the others in
order. -/
theorem insert_drop_sublist (set : TokenSet) (token : Token) :
    ((set.insert token).2.drop (set.insert token).1).entries.Sublist set.entries := by
  rw [drop, insert, List.filter_append, List.filter_cons_of_neg (by simp), List.filter_nil,
    List.append_nil]
  exact List.filter_sublist

/-- If the numbers of guards are not used again, the others stay as well. -/
theorem insert_drop_eq {set : TokenSet} (h : ∀ entry ∈ set.entries, entry.1 < set.next)
    (token : Token) :
    (set.insert token).2.drop (set.insert token).1 = { set with next := set.next + 1 } := by
  have hkept : set.entries.filter (fun entry => entry.1 != set.next) = set.entries := by
    rw [List.filter_eq_self]
    intro entry hentry
    exact bne_iff_ne.mpr (Nat.ne_of_lt (h entry hentry))
  rw [drop, insert, List.filter_append, List.filter_cons_of_neg (by simp), List.filter_nil,
    List.append_nil]
  exact congrArg _ hkept

/-- It leaves nothing behind. -/
theorem entries_insert_drop (set : TokenSet) (token : Token) :
    ((set.insert token).2.drop (set.insert token).1).entries ⊆ set.entries :=
  (set.insert_drop_sublist token).subset

end TokenSet

/-! ## Jobs -/

namespace Pool

variable {α : Type}

/-- The jobs that wait or run. -/
def jobs (pool : Pool α) : List (Job α) :=
  pool.pending ++ pool.running

/-- The pool takes a job that is submitted now. -/
def takesJob (pool : Pool α) : Bool :=
  pool.accepting && decide (pool.pending.length < pool.capacity)

theorem mem_jobs {pool : Pool α} {job : Job α} :
    job ∈ pool.jobs ↔ job ∈ pool.pending ∨ job ∈ pool.running :=
  List.mem_append

/-- The failure of a submission that is not taken. -/
def refusal (pool : Pool α) : Failure :=
  if pool.accepting then .queueFull pool.capacity else .poolShutdown

/-- A job is put behind the waiting ones, or it is refused. -/
theorem enqueue_cases (pool : Pool α) (job : Job α) :
    pool.takesJob = true ∧
        pool.enqueue job = .ok { pool with pending := pool.pending ++ [job] } ∨
      pool.takesJob = false ∧ pool.enqueue job = .error pool.refusal := by
  unfold enqueue takesJob refusal
  cases pool.accepting with
  | false => exact Or.inr ⟨rfl, rfl⟩
  | true =>
    by_cases hroom : pool.pending.length < pool.capacity
    · exact Or.inl ⟨by simp [hroom], by simp [hroom]⟩
    · exact Or.inr ⟨by simp [hroom], by simp [hroom]⟩

theorem submit_cases (pool : Pool α) (work : α) :
    pool.takesJob = true ∧
        pool.submit work = (.ok (), { pool with pending := pool.pending ++ [{ work }] }) ∨
      pool.takesJob = false ∧ pool.submit work = (.error pool.refusal, pool) := by
  unfold submit
  rcases pool.enqueue_cases { work } with ⟨htakes, heq⟩ | ⟨htakes, heq⟩
  · exact Or.inl ⟨htakes, by rw [heq]⟩
  · exact Or.inr ⟨htakes, by rw [heq]⟩

/-- A job is submitted under a token: either it waits behind the others,
with its token live, or it leaves no trace but the number of a guard. -/
theorem submitWithToken_cases (pool : Pool α) (token : Token) (work : α) :
    pool.takesJob = true ∧
        pool.submitWithToken token work =
          (.ok (), { pool with
            live := (pool.live.insert token).2
            pending := pool.pending ++
              [{ work, token := some token, guard := some (pool.live.insert token).1 }] }) ∨
      pool.takesJob = false ∧
        pool.submitWithToken token work =
          (.error pool.refusal, { pool with
            live := (pool.live.insert token).2.drop (pool.live.insert token).1 }) := by
  unfold submitWithToken
  rcases ({ pool with live := (pool.live.insert token).2 } : Pool α).enqueue_cases
      { work, token := some token, guard := some (pool.live.insert token).1 } with
    ⟨htakes, heq⟩ | ⟨htakes, heq⟩
  · refine Or.inl ⟨htakes, ?_⟩
    dsimp only at heq ⊢
    rw [heq]
  · refine Or.inr ⟨htakes, ?_⟩
    dsimp only at heq ⊢
    rw [heq]
    rfl

/-- A job starts: it was the oldest waiting one, and a worker was free. -/
theorem start?_eq_some {pool after : Pool α} {begin : Job α → Job α}
    (h : pool.start? begin = some after) :
    ∃ job rest, pool.pending = job :: rest ∧ pool.running.length < pool.size ∧
      after = { pool with pending := rest, running := pool.running ++ [begin job] } := by
  unfold start? at h
  cases hpending : pool.pending with
  | nil =>
    rw [hpending] at h
    cases h
  | cons job rest =>
    rw [hpending] at h
    dsimp only at h
    split_ifs at h with hfree
    cases h
    exact ⟨job, rest, rfl, hfree, rfl⟩

/-- A job that is released leaves the others where they are. -/
theorem release_eq (pool : Pool α) (job : Job α) :
    pool.release job = { pool with live := (pool.release job).live } := by
  unfold release
  cases job.guard <;> rfl

@[simp] theorem pending_release (pool : Pool α) (job : Job α) :
    (pool.release job).pending = pool.pending := by
  rw [release_eq]

@[simp] theorem running_release (pool : Pool α) (job : Job α) :
    (pool.release job).running = pool.running := by
  rw [release_eq]

@[simp] theorem accepting_release (pool : Pool α) (job : Job α) :
    (pool.release job).accepting = pool.accepting := by
  rw [release_eq]

theorem jobs_release (pool : Pool α) (job : Job α) : (pool.release job).jobs = pool.jobs := by
  rw [jobs, pending_release, running_release, jobs]

/-- Where no token is live, there is nothing to release. -/
theorem release_of_nil {pool : Pool α} (h : pool.live.entries = []) (job : Job α) :
    pool.release job = pool := by
  unfold release
  cases job.guard with
  | none => rfl
  | some guard =>
    have hdrop : pool.live.drop guard = pool.live := by
      refine TokenSet.drop_eq_self ?_
      intro entry hentry
      rw [h] at hentry
      cases hentry
    dsimp only
    rw [hdrop]

/-- A job that is released leaves no entry of its guard. -/
theorem mem_live_release {pool : Pool α} {job : Job α} {entry : Nat × Token}
    (h : entry ∈ (pool.release job).live.entries) :
    entry ∈ pool.live.entries ∧ job.guard ≠ some ⟨entry.1⟩ := by
  unfold release at h
  cases hguard : job.guard with
  | none =>
    rw [hguard] at h
    exact ⟨h, by rintro ⟨⟩⟩
  | some guard =>
    rw [hguard] at h
    obtain ⟨hentry, hne⟩ := TokenSet.mem_drop.mp h
    refine ⟨hentry, ?_⟩
    intro heq
    cases heq
    exact hne rfl

theorem jobs_finish_subset (pool : Pool α) (index : Nat) :
    (pool.finish index).jobs ⊆ pool.jobs := by
  unfold finish
  cases pool.running[index]? with
  | none => exact List.Subset.refl _
  | some job =>
    show (release { pool with running := pool.running.eraseIdx index } job).jobs ⊆ pool.jobs
    rw [jobs_release]
    intro other hother
    rw [mem_jobs] at hother ⊢
    exact hother.imp_right List.mem_of_mem_eraseIdx

theorem cancelled_subset_shutdown (pool : Pool α) (tokens : Tokens) :
    tokens.cancelled ⊆ (pool.shutdown tokens).2.2.cancelled :=
  pool.live.cancelled_subset_cancelAll tokens

end Pool

end TestRig
