import TestRig.Proofs.Pool.Flow

/-!
# The live tokens of a pool

A token is live from the submission of its job until the job ends, is
dropped, or all live tokens are cancelled together.

* `openJobs` says the same of the history; three lemmas say what an event
  adds to it or takes out.
* `Guarded` is the invariant: the entries of the live tokens are those of the
  open jobs, in order.
* `Handed` is the invariant on the numbers of tokens: one that is in use was
  handed out, so a new one is not cancelled.
-/

namespace TestRig.Pool

variable {α : Type}

/-! ## Open jobs -/

theorem sinceBroadcast_append_singleton (told : List (Event α)) (event : Event α) :
    sinceBroadcast (told ++ [event]) =
      if event.isBroadcast then [] else sinceBroadcast told ++ [event] := by
  rw [sinceBroadcast, List.reverse_append, List.reverse_singleton, List.singleton_append,
    List.takeWhile_cons]
  cases event.isBroadcast with
  | true => rfl
  | false =>
    rw [Bool.not_false, if_pos rfl, if_neg Bool.false_ne_true, List.reverse_cons, sinceBroadcast]

theorem openJobs_broadcast (told : List (Event α)) {event : Event α}
    (h : event.isBroadcast = true) : openJobs (told ++ [event]) = [] := by
  rw [openJobs, sinceBroadcast_append_singleton, if_pos h]
  rfl

/-- Any other event adds a job, takes one out, or does neither. -/
theorem openJobs_append_singleton (told : List (Event α)) {event : Event α}
    (h : event.isBroadcast = false) :
    openJobs (told ++ [event]) =
      (acceptedIn (sinceBroadcast told) ++ event.accepted?.toList).filter fun job =>
        job.guard.isSome &&
          !(goneIn told ++ event.gone?.toList).any fun gone => gone.guard == job.guard := by
  have haccepted : [event].filterMap Event.accepted? = event.accepted?.toList := by
    cases event <;> rfl
  have hgone : [event].filterMap Event.gone? = event.gone?.toList := by
    cases event <;> rfl
  rw [openJobs, sinceBroadcast_append_singleton, h, if_neg Bool.false_ne_true, acceptedIn,
    List.filterMap_append, haccepted, goneIn, List.filterMap_append, hgone]

theorem openJobs_of_quiet (told : List (Event α)) {event : Event α}
    (h : event.isBroadcast = false) (haccepted : event.accepted? = none)
    (hgone : event.gone? = none) : openJobs (told ++ [event]) = openJobs told := by
  rw [openJobs_append_singleton told h, haccepted, hgone, Option.toList_none, List.append_nil,
    List.append_nil]
  rfl

/-- A job that is accepted under a guard of its own is open. -/
theorem openJobs_accepted (told : List (Event α)) {job : Job α}
    (hgone : job.guard.isSome = true → ∀ gone ∈ goneIn told, gone.guard ≠ job.guard) :
    openJobs (told ++ [.accepted job]) =
      openJobs told ++ [job].filter fun job => job.guard.isSome := by
  rw [openJobs_append_singleton told rfl]
  show ((acceptedIn (sinceBroadcast told) ++ [job]).filter fun job => job.guard.isSome &&
    !(goneIn told ++ []).any fun gone => gone.guard == job.guard) = _
  rw [List.append_nil, List.filter_append]
  congr 1
  cases hguard : job.guard with
  | none => simp [hguard]
  | some guard =>
    have hnone : (goneIn told).any (fun gone => gone.guard == some guard) = false := by
      rw [List.any_eq_false]
      intro gone hmem heq
      exact hgone (hguard ▸ rfl) gone hmem (hguard ▸ eq_of_beq heq)
    rw [List.filter_cons, List.filter_cons, hguard, hnone]
    rfl

/-- A job that is gone is not open. -/
theorem openJobs_gone (told : List (Event α)) {event : Event α} {job : Job α}
    (h : event.isBroadcast = false) (haccepted : event.accepted? = none)
    (hgone : event.gone? = some job) :
    openJobs (told ++ [event]) =
      (openJobs told).filter fun other => !(job.guard == other.guard) := by
  rw [openJobs_append_singleton told h, haccepted, hgone, Option.toList_none, List.append_nil,
    openJobs, List.filter_filter]
  congr 1
  funext other
  rw [Option.toList_some, List.any_append, Bool.not_or, ← Bool.and_assoc, Bool.and_comm]
  simp only [List.any_cons, List.any_nil, Bool.or_false]

/-! ## Which tokens are live -/

/-- The entry of a job among the live tokens. -/
def listing (job : Job α) : Option (Nat × Token) :=
  match job.guard, job.token with
  | some guard, some token => some (guard.id, token)
  | _, _ => none

theorem openJobs_subset (told : List (Event α)) : openJobs told ⊆ acceptedIn told := by
  have hsince : (sinceBroadcast told).Sublist told := by
    have hwhile := List.takeWhile_sublist (fun event : Event α => !event.isBroadcast)
      (l := told.reverse)
    have hreverse := hwhile.reverse
    rwa [List.reverse_reverse] at hreverse
  exact List.Subset.trans (List.filter_subset_self _) (hsince.filterMap _).subset

theorem guard_of_listing {job : Job α} {entry : Nat × Token} (h : listing job = some entry) :
    job.guard = some ⟨entry.1⟩ := by
  unfold listing at h
  split at h
  · rename_i guard token hguard htoken
    cases h
    exact hguard
  · cases h

theorem listing_eq_some {job : Job α} {guard : TokenGuard} {token : Token}
    (hguard : job.guard = some guard) (htoken : job.token = some token) :
    listing job = some (guard.id, token) := by
  rw [listing, hguard, htoken]

/-- Dropping a guard takes out the entry of its job. -/
theorem filterMap_listing_filter (guard : Option TokenGuard) (jobs : List (Job α)) :
    (jobs.filter fun other => !(guard == other.guard)).filterMap listing =
      (jobs.filterMap listing).filter fun entry => !(guard == some ⟨entry.1⟩) := by
  induction jobs with
  | nil => rfl
  | cons job jobs ih =>
    rw [List.filter_cons, List.filterMap_cons]
    cases hentry : listing job with
    | none =>
      split_ifs
      · rw [List.filterMap_cons, hentry, ih]
      · exact ih
    | some entry =>
      rw [guard_of_listing hentry]
      dsimp only
      rw [List.filter_cons]
      split_ifs
      · rw [List.filterMap_cons, hentry, ih]
      · exact ih

theorem entries_release (pool : Pool α) (job : Job α) :
    (pool.release job).live.entries =
      pool.live.entries.filter fun entry => !(job.guard == some ⟨entry.1⟩) := by
  unfold release
  cases job.guard with
  | none => exact (List.filter_eq_self.mpr fun _ _ => rfl).symm
  | some guard =>
    refine List.filter_congr fun entry _ => ?_
    rw [Bool.eq_iff_iff, bne_iff_ne, Bool.not_eq_true', beq_eq_false_iff_ne]
    obtain ⟨id⟩ := guard
    simp only [ne_eq, Option.some.injEq, TokenGuard.mk.injEq]
    rw [eq_comm]

/-- The live tokens, and what was told of the jobs under them. -/
structure Guarded (told : List (Event α)) (pool : Pool α) : Prop where
  entries : pool.live.entries = (openJobs told).filterMap listing
  given : ∀ guard ∈ (acceptedIn told).filterMap Job.guard, guard.id < pool.live.next
  distinct : ((acceptedIn told).filterMap Job.guard).Nodup
  /-- The jobs with a guard are those with a token. -/
  paired : ∀ job ∈ acceptedIn told, job.token.isSome = job.guard.isSome

section Guarded

variable {told : List (Event α)} {pool after : Pool α}

theorem Guarded.fresh (h : Guarded told pool) : Fresh pool := by
  intro entry hentry
  rw [h.entries, List.mem_filterMap] at hentry
  obtain ⟨job, hjob, hentry⟩ := hentry
  exact h.given ⟨entry.1⟩
    (List.mem_filterMap.mpr ⟨job, openJobs_subset told hjob, guard_of_listing hentry⟩)

theorem acceptedIn_append_singleton (told : List (Event α)) {event : Event α}
    (h : event.accepted? = none) : acceptedIn (told ++ [event]) = acceptedIn told := by
  rw [acceptedIn, List.filterMap_append, List.filterMap_cons, h]
  exact List.append_nil _

/-- An event that is not about a job. -/
theorem Guarded.aside (h : Guarded told pool) {event : Event α}
    (hbroadcast : event.isBroadcast = false) (haccepted : event.accepted? = none)
    (hgone : event.gone? = none) (hentries : after.live.entries = pool.live.entries)
    (hnext : pool.live.next ≤ after.live.next) : Guarded (told ++ [event]) after := by
  have haccepted' := acceptedIn_append_singleton told haccepted
  exact {
    entries := by rw [hentries, h.entries, openJobs_of_quiet told hbroadcast haccepted hgone]
    given := fun guard hguard => Nat.lt_of_lt_of_le (h.given guard (haccepted' ▸ hguard)) hnext
    distinct := haccepted' ▸ h.distinct
    paired := haccepted' ▸ h.paired }

/-- A job that is gone. -/
theorem Guarded.gone (h : Guarded told pool) {event : Event α} {job : Job α}
    (hbroadcast : event.isBroadcast = false) (haccepted : event.accepted? = none)
    (hgone : event.gone? = some job) (hlive : after.live = pool.live) :
    Guarded (told ++ [event]) (after.release job) := by
  have haccepted' := acceptedIn_append_singleton told haccepted
  have hnext : (after.release job).live.next = pool.live.next := by
    rw [← hlive]
    unfold release
    cases job.guard <;> rfl
  exact {
    entries := by
      rw [entries_release, hlive, h.entries, openJobs_gone told hbroadcast haccepted hgone,
        filterMap_listing_filter]
    given := fun guard hguard => hnext ▸ h.given guard (haccepted' ▸ hguard)
    distinct := haccepted' ▸ h.distinct
    paired := haccepted' ▸ h.paired }

/-- A job is accepted, under the next guard or without one. -/
theorem Guarded.accepted (h : Guarded told pool) (hgone : goneIn told ⊆ acceptedIn told)
    {job : Job α} {live : TokenSet} (hlive : after.live = live)
    (hjob : (job.token = none ∧ job.guard = none ∧ live = pool.live) ∨
      ∃ token, job.token = some token ∧ job.guard = some ⟨pool.live.next⟩ ∧
        live = (pool.live.insert token).2) : Guarded (told ++ [.accepted job]) after := by
  have haccepted : acceptedIn (told ++ [.accepted job]) = acceptedIn told ++ [job] :=
    List.filterMap_append
  have hpaired : ∀ other ∈ acceptedIn (told ++ [.accepted job]),
      other.token.isSome = other.guard.isSome := by
    intro other hother
    rw [haccepted, List.mem_append, List.mem_singleton] at hother
    rcases hother with hother | rfl
    · exact h.paired other hother
    · rcases hjob with ⟨htoken, hguard, _⟩ | ⟨_, htoken, hguard, _⟩
      · rw [htoken, hguard]
        rfl
      · rw [htoken, hguard]
        rfl
  rcases hjob with ⟨htoken, hguard, rfl⟩ | ⟨token, htoken, hguard, rfl⟩
  · have hguards : (acceptedIn (told ++ [.accepted job])).filterMap Job.guard =
        (acceptedIn told).filterMap Job.guard := by
      rw [haccepted, List.filterMap_append, List.filterMap_cons, hguard]
      exact List.append_nil _
    have hopen : openJobs (told ++ [.accepted job]) = openJobs told := by
      rw [openJobs_accepted told (by rw [hguard]; nofun), List.filter_cons, hguard]
      exact List.append_nil _
    exact {
      entries := by rw [hlive, h.entries, hopen]
      given := by rw [hguards, hlive]; exact h.given
      distinct := by rw [hguards]; exact h.distinct
      paired := hpaired }
  · have hguards : (acceptedIn (told ++ [.accepted job])).filterMap Job.guard =
        (acceptedIn told).filterMap Job.guard ++ [⟨pool.live.next⟩] := by
      rw [haccepted, List.filterMap_append, List.filterMap_cons, hguard]
      rfl
    have hnew : (⟨pool.live.next⟩ : TokenGuard) ∉ (acceptedIn told).filterMap Job.guard :=
      fun hmem => Nat.lt_irrefl _ (h.given _ hmem)
    have hopen : openJobs (told ++ [.accepted job]) = openJobs told ++ [job] := by
      rw [openJobs_accepted, List.filter_cons, hguard]
      · rfl
      · intro _ gone hmem hsame
        exact hnew (List.mem_filterMap.mpr ⟨gone, hgone hmem, hsame.trans hguard⟩)
    have hentry : listing job = some (pool.live.next, token) := listing_eq_some hguard htoken
    exact {
      entries := by
        rw [hlive, hopen, List.filterMap_append, List.filterMap_cons, hentry, ← h.entries]
        rfl
      given := by
        intro guard hmem
        rw [hguards, List.mem_append, List.mem_singleton] at hmem
        rw [hlive]
        rcases hmem with hmem | rfl
        · exact Nat.lt_succ_of_lt (h.given guard hmem)
        · exact Nat.lt_succ_self _
      distinct := by
        rw [hguards, List.nodup_append]
        refine ⟨h.distinct, by simp, ?_⟩
        intro guard hmem other hother hsame
        rw [List.mem_singleton] at hother
        exact hnew (hother ▸ hsame ▸ hmem)
      paired := hpaired }

theorem Guarded.change (h : Guarded told pool) (hgone : goneIn told ⊆ acceptedIn told)
    {told' : List (Event α)} (hchange : Change pool told' after) :
    Guarded (told ++ told') after := by
  cases hchange with
  | quiet _ htold next hnext =>
    rcases htold with rfl | ⟨failure, rfl⟩ | ⟨token, rfl⟩
    · rw [List.append_nil]
      exact ⟨h.entries, fun guard hguard => Nat.lt_of_lt_of_le (h.given guard hguard) hnext,
        h.distinct, h.paired⟩
    · exact h.aside rfl rfl rfl rfl hnext
    · exact h.aside rfl rfl rfl rfl hnext
  | plain work htakes => exact h.accepted hgone rfl (.inl ⟨rfl, rfl, rfl⟩)
  | cancellable work token htakes => exact h.accepted hgone rfl (.inr ⟨token, rfl, rfl, rfl⟩)
  | started job rest hpending hfree => exact h.aside rfl rfl rfl rfl (Nat.le_refl _)
  | ended index job hrunning panicked => exact h.gone rfl rfl rfl rfl
  | discarded job rest hclosed hpending => exact h.gone rfl rfl rfl rfl
  | broadcast =>
    have haccepted := @acceptedIn_append_singleton _ told
      (.broadcast (pool.live.entries.map Prod.snd)) rfl
    exact ⟨by rw [openJobs_broadcast told rfl]; rfl, haccepted ▸ h.given,
      haccepted ▸ h.distinct, haccepted ▸ h.paired⟩
  | closed => exact h.aside rfl rfl rfl rfl (Nat.le_refl _)

end Guarded

/-! ## Tokens that are handed out -/

/-- A token that is in use was handed out. -/
structure Handed (shop : Workshop α) : Prop where
  cancelled : ∀ id ∈ shop.tokens.cancelled, id < shop.tokens.next
  held : ∀ token ∈ shop.held, token.id < shop.tokens.next
  live : ∀ entry ∈ shop.pool.live.entries, entry.2.id < shop.tokens.next

/-- The token of a submission is live from then on, or nothing is new. -/
theorem mem_live_submitWithToken {pool : Pool α} {token : Token} {work : α} {next : Nat}
    (htoken : token.id < next) {entry : Nat × Token}
    (h : entry ∈ (pool.submitWithToken token work).2.live.entries) :
    entry ∈ pool.live.entries ∨ entry.2.id < next := by
  rcases pool.submitWithToken_cases token work with ⟨_, heq⟩ | ⟨_, heq⟩
  · rw [heq] at h
    rcases List.mem_append.mp h with hmem | hmem
    · exact .inl hmem
    · rw [List.mem_singleton.mp hmem]
      exact .inr htoken
  · rw [heq] at h
    exact .inl (TokenSet.entries_insert_drop _ _ h)

theorem Handed.more {shop after : Workshop α} (h : Handed shop)
    (hnext : shop.tokens.next ≤ after.tokens.next)
    (hcancelled : after.tokens.cancelled = shop.tokens.cancelled)
    (hheld : ∀ token ∈ after.held, token ∈ shop.held ∨ token.id < after.tokens.next)
    (hlive : ∀ entry ∈ after.pool.live.entries,
      entry ∈ shop.pool.live.entries ∨ entry.2.id < after.tokens.next) : Handed after where
  cancelled id hid := Nat.lt_of_lt_of_le (h.cancelled id (hcancelled ▸ hid)) hnext
  held token htoken := (hheld token htoken).elim
    (fun hmem => Nat.lt_of_lt_of_le (h.held token hmem) hnext) id
  live entry hentry := (hlive entry hentry).elim
    (fun hmem => Nat.lt_of_lt_of_le (h.live entry hmem) hnext) id

theorem mem_held_concat {held : List Token} {new token : Token} {next : Nat}
    (hnew : new.id < next) (h : token ∈ held ++ [new]) : token ∈ held ∨ token.id < next := by
  rcases List.mem_append.mp h with hmem | hmem
  · exact .inl hmem
  · rw [List.mem_singleton.mp hmem]
    exact .inr hnew

theorem Handed.submit {shop : Workshop α} (h : Handed shop) {submission : Submission α}
    (htoken : ∀ token work, submission = .under token work → token.id < shop.tokens.next) :
    Handed (shop.submit submission).2 := by
  cases submission with
  | plain work =>
    refine h.more (Nat.le_refl _) rfl (fun _ => .inl) ?_
    intro entry hentry
    rcases shop.pool.submit_cases work with ⟨_, heq⟩ | ⟨_, heq⟩ <;>
    · simp only [Workshop.submit, heq] at hentry
      exact .inl hentry
  | cancellable work =>
    have hroot : shop.tokens.root.1.id < shop.tokens.root.2.next := Nat.lt_succ_self _
    have hlive := @mem_live_submitWithToken _ shop.pool _ work _ hroot
    simp only [Workshop.submit, submitCancellable]
    generalize shop.pool.submitWithToken shop.tokens.root.1 work = result at hlive
    obtain ⟨answer, pool⟩ := result
    cases answer with
    | ok _ =>
      refine h.more (Nat.le_succ _) rfl (fun _ => mem_held_concat hroot) ?_
      exact fun entry hentry => hlive hentry
    | error failure =>
      refine h.more (Nat.le_succ _) rfl (fun _ => .inl) ?_
      exact fun entry hentry => hlive hentry
  | under token work =>
    refine h.more (Nat.le_refl _) rfl (fun _ => .inl) ?_
    exact fun entry hentry => mem_live_submitWithToken (htoken token work rfl) hentry

theorem Handed.act {shop : Workshop α} (h : Handed shop) {act : Act α} (hact : act ≠ .shutdown) :
    Handed (shop.act act).2 := by
  cases act with
  | root =>
    exact h.more (Nat.le_succ _) rfl (fun _ => mem_held_concat (Nat.lt_succ_self _)) fun _ => .inl
  | child index =>
    simp only [Workshop.act]
    cases shop.held[index]? with
    | some parent =>
      exact h.more (Nat.le_succ _) rfl (fun _ => mem_held_concat (Nat.lt_succ_self _))
        fun _ => .inl
    | none => exact h
  | cancel index =>
    simp only [Workshop.act]
    cases htoken : shop.held[index]? with
    | some token =>
      refine ⟨?_, h.held, h.live⟩
      intro id hid
      rcases List.mem_cons.mp hid with rfl | hid
      · exact h.held token (List.mem_of_getElem? htoken)
      · exact h.cancelled id hid
    | none => exact h
  | submit work =>
    simp only [Workshop.act, Workshop.submitTold_snd]
    refine h.submit ?_
    intro _ _ heq
    cases heq
  | submitCancellable work =>
    simp only [Workshop.act, Workshop.submitTold_snd]
    refine h.submit ?_
    intro _ _ heq
    cases heq
  | submitUnder index work =>
    simp only [Workshop.act]
    cases htoken : shop.held[index]? with
    | some token =>
      simp only [Workshop.submitTold_snd]
      refine h.submit ?_
      intro token' work' heq
      cases heq
      exact h.held token (List.mem_of_getElem? htoken)
    | none => exact h
  | start =>
    simp only [Workshop.act]
    cases hstart : shop.pool.start? id with
    | some pool =>
      obtain ⟨job, rest, hpending, hfree, rfl⟩ := start?_eq_some hstart
      exact ⟨h.cancelled, h.held, h.live⟩
    | none => exact h
  | finish index panicked =>
    simp only [Workshop.act]
    cases hrunning : shop.pool.running[index]? with
    | some job =>
      refine h.more (Nat.le_refl _) rfl (fun _ => .inl) ?_
      intro entry hentry
      simp only [finish, hrunning] at hentry
      exact .inl (mem_live_release hentry).1
    | none => exact h
  | cancelAll =>
    have hnext := TokenSet.next_cancelAll shop.pool.live shop.tokens
    refine ⟨?_, fun token htoken => hnext ▸ h.held token htoken,
      fun _ hentry => absurd hentry List.not_mem_nil⟩
    intro id hid
    show id < (shop.pool.live.cancelAll shop.tokens).2.2.next
    rw [hnext]
    rcases TokenSet.mem_cancelled_cancelAll.mp hid with hid | ⟨entry, hentry, rfl⟩
    · exact h.cancelled id hid
    · exact h.live entry hentry
  | close => exact ⟨h.cancelled, h.held, h.live⟩
  | discard =>
    simp only [Workshop.act]
    split
    · exact h.more (Nat.le_refl _) rfl (fun _ => .inl)
        fun entry hentry => .inl (mem_live_release hentry).1
    · exact h
  | shutdown => exact absurd rfl hact

end TestRig.Pool
