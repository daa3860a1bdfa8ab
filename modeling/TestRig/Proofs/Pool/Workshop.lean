import TestRig.Proofs.Pool.Jobs
import Mathlib.Data.List.Basic

/-!
# A pool and its callers

The callers of a pool hold tokens, submit jobs under them and cancel them,
workers take jobs and end them, and all of this comes in any order.  What
happens is told event by event.

* `Workshop` is a pool with the tokens that its callers hold, `Act` what can
  be done, and `Workshop.run` a list of acts with what they tell.
* A shutdown is one act, and it can also be made step by step, with other
  acts in between: the pool is closed, the live tokens are cancelled, and
  the waiting jobs are discarded.  `act_shutdown` says that it is the same.
* `openJobs` are the jobs that a history leaves under a live token.
-/

namespace TestRig.Pool

variable {α : Type}

/-! ## What happens -/

/-- What happened to a pool. -/
inductive Event (α : Type) where
  | accepted (job : Job α)
  | refused (failure : Failure)
  | started (job : Job α)
  | ended (job : Job α) (panicked : Bool)
  /-- A waiting job was dropped. -/
  | discarded (job : Job α)
  /-- A token was cancelled by one who holds it. -/
  | cancelled (token : Token)
  /-- The live tokens were cancelled, all at once. -/
  | broadcast (tokens : List Token)
  /-- From here on no job is accepted. -/
  | closed

namespace Event

/-- The job that was accepted. -/
@[simp] def accepted? : Event α → Option (Job α)
  | accepted job => some job
  | _ => none

/-- The job that a worker took. -/
@[simp] def started? : Event α → Option (Job α)
  | started job => some job
  | _ => none

/-- The job that came to its end. -/
@[simp] def ended? : Event α → Option (Job α)
  | ended job _ => some job
  | _ => none

/-- The job that was dropped. -/
@[simp] def discarded? : Event α → Option (Job α)
  | discarded job => some job
  | _ => none

/-- The job that does not wait any more. -/
@[simp] def taken? : Event α → Option (Job α)
  | started job | discarded job => some job
  | _ => none

/-- The job that neither waits nor runs any more. -/
@[simp] def gone? : Event α → Option (Job α)
  | ended job _ | discarded job => some job
  | _ => none

/-- The live tokens were cancelled. -/
@[simp] def isBroadcast : Event α → Bool
  | broadcast _ => true
  | _ => false

/-- The pool was closed. -/
@[simp] def isClosed : Event α → Bool
  | closed => true
  | _ => false

/-- The tokens that were cancelled themselves. -/
@[simp] def cancels : Event α → List Token
  | cancelled token => [token]
  | broadcast tokens => tokens
  | _ => []

end Event

/-- The jobs accepted, in order. -/
abbrev acceptedIn (told : List (Event α)) : List (Job α) :=
  told.filterMap Event.accepted?

/-- The jobs that workers took, in order. -/
abbrev startedIn (told : List (Event α)) : List (Job α) :=
  told.filterMap Event.started?

/-- The jobs that ended, in order. -/
abbrev endedIn (told : List (Event α)) : List (Job α) :=
  told.filterMap Event.ended?

/-- The jobs that were dropped, in order. -/
abbrev discardedIn (told : List (Event α)) : List (Job α) :=
  told.filterMap Event.discarded?

/-- The jobs that stopped waiting, in order. -/
abbrev takenIn (told : List (Event α)) : List (Job α) :=
  told.filterMap Event.taken?

/-- The jobs that ended or were dropped, in order. -/
abbrev goneIn (told : List (Event α)) : List (Job α) :=
  told.filterMap Event.gone?

/-- The tokens that were cancelled themselves, in order. -/
abbrev cancelledIn (told : List (Event α)) : List Token :=
  told.flatMap Event.cancels

/-- What happened behind the last time that the live tokens were cancelled. -/
def sinceBroadcast (told : List (Event α)) : List (Event α) :=
  (told.reverse.takeWhile fun event => !event.isBroadcast).reverse

/-- The cancellable jobs accepted since the live tokens were last cancelled
that have neither ended nor been dropped.  The guard of a job tells it from
all others. -/
def openJobs (told : List (Event α)) : List (Job α) :=
  (acceptedIn (sinceBroadcast told)).filter fun job =>
    job.guard.isSome && !(goneIn told).any fun gone => gone.guard == job.guard

/-! ## What is done -/

/-- A pool and the tokens that its callers hold. -/
structure Workshop (α : Type) where
  pool : Pool α
  /-- The tokens handed out. -/
  tokens : Tokens := {}
  /-- Tokens in the hands of callers, oldest first. -/
  held : List Token := []

/-- A job as it is submitted. -/
inductive Submission (α : Type) where
  /-- It cannot be cancelled. -/
  | plain (work : α)
  /-- Under a token of its own, which the caller gets. -/
  | cancellable (work : α)
  /-- Under a token of the caller. -/
  | under (token : Token) (work : α)

/-- What is to be run. -/
def Submission.work : Submission α → α
  | plain work | cancellable work | under _ work => work

/-- What can be done with a pool.  Callers name the tokens that they hold by
their place. -/
inductive Act (α : Type) where
  /-- A caller makes a token. -/
  | root
  /-- A caller makes a token below another. -/
  | child (index : Nat)
  /-- A caller cancels a token. -/
  | cancel (index : Nat)
  | submit (work : α)
  | submitCancellable (work : α)
  | submitUnder (index : Nat) (work : α)
  /-- A worker takes a job. -/
  | start
  /-- The running job at a place returns or panics. -/
  | finish (index : Nat) (panicked : Bool)
  | cancelAll
  /-- The first step of a shutdown: no job is accepted any more. -/
  | close
  /-- The last steps of a shutdown, once for each waiting job: it is dropped. -/
  | discard
  | shutdown

namespace Workshop

/-- An idle pool, and no tokens. -/
def idle (size capacity : Nat) : Workshop α :=
  { pool := .idle size capacity }

/-- A job is submitted. -/
def submit (shop : Workshop α) : Submission α → Except Failure Unit × Workshop α
  | .plain work =>
    let (result, pool) := shop.pool.submit work
    (result, { shop with pool })
  | .cancellable work =>
    match shop.pool.submitCancellable shop.tokens work with
    | (.ok token, pool, tokens) => (.ok (), { pool, tokens, held := shop.held ++ [token] })
    | (.error failure, pool, tokens) => (.error failure, { shop with pool, tokens })
  | .under token work =>
    let (result, pool) := shop.pool.submitWithToken token work
    (result, { shop with pool })

/-- The token that a job is under if it is submitted now: a new one, that of
the caller, or none. -/
def tokenOf? (shop : Workshop α) : Submission α → Option Token
  | .plain _ => none
  | .cancellable _ => some shop.tokens.root.1
  | .under token _ => some token

/-- The token that the caller gets for its job. -/
def handsOut (shop : Workshop α) : Submission α → List Token
  | .cancellable _ => [shop.tokens.root.1]
  | .plain _ | .under _ _ => []

/-- A job that is submitted now is cancelled from the start. -/
def startsCancelled (shop : Workshop α) : Submission α → Bool
  | .under token _ => shop.tokens.isCancelled token
  | .plain _ | .cancellable _ => false

/-- A job is submitted, and told if it was accepted: it is the last that
waits. -/
def submitTold (shop : Workshop α) (submission : Submission α) : List (Event α) × Workshop α :=
  match shop.submit submission with
  | (.ok (), after) => (after.pool.pending.getLast?.toList.map .accepted, after)
  | (.error failure, after) => ([.refused failure], after)

theorem submitTold_snd (shop : Workshop α) (submission : Submission α) :
    (shop.submitTold submission).2 = (shop.submit submission).2 := by
  unfold submitTold
  split <;> rename_i heq <;> rw [heq]

/-- One act: what it tells, and what it leaves behind. -/
def act (shop : Workshop α) : Act α → List (Event α) × Workshop α
  | .root =>
    let (token, tokens) := shop.tokens.root
    ([], { shop with tokens, held := shop.held ++ [token] })
  | .child index =>
    match shop.held[index]? with
    | some parent =>
      let (token, tokens) := shop.tokens.child parent
      ([], { shop with tokens, held := shop.held ++ [token] })
    | none => ([], shop)
  | .cancel index =>
    match shop.held[index]? with
    | some token => ([.cancelled token], { shop with tokens := shop.tokens.cancel token })
    | none => ([], shop)
  | .submit work => shop.submitTold (.plain work)
  | .submitCancellable work => shop.submitTold (.cancellable work)
  | .submitUnder index work =>
    match shop.held[index]? with
    | some token => shop.submitTold (.under token work)
    | none => ([], shop)
  | .start =>
    match shop.pool.start? id with
    | some pool => (shop.pool.pending.head?.toList.map .started, { shop with pool })
    | none => ([], shop)
  | .finish index panicked =>
    match shop.pool.running[index]? with
    | some job => ([.ended job panicked], { shop with pool := shop.pool.finish index })
    | none => ([], shop)
  | .cancelAll =>
    let (_, pool, tokens) := shop.pool.cancelAll shop.tokens
    ([.broadcast (shop.pool.live.entries.map Prod.snd)], { shop with pool, tokens })
  | .close => ([.closed], { shop with pool := { shop.pool with accepting := false } })
  | .discard =>
    match shop.pool.accepting, shop.pool.pending with
    | false, job :: rest =>
      ([.discarded job], { shop with pool := { shop.pool with pending := rest }.release job })
    | _, _ => ([], shop)
  | .shutdown =>
    let (jobs, pool, tokens) := shop.pool.shutdown shop.tokens
    (.closed :: .broadcast (shop.pool.live.entries.map Prod.snd) :: jobs.map .discarded,
      { shop with pool, tokens })

/-- Several acts one after the other. -/
def run (shop : Workshop α) : List (Act α) → List (Event α) × Workshop α
  | [] => ([], shop)
  | act :: acts =>
    ((shop.act act).1 ++ ((shop.act act).2.run acts).1, ((shop.act act).2.run acts).2)

theorem run_append (shop : Workshop α) (first second : List (Act α)) :
    shop.run (first ++ second) =
      ((shop.run first).1 ++ ((shop.run first).2.run second).1,
        ((shop.run first).2.run second).2) := by
  induction first generalizing shop with
  | nil => rfl
  | cons act acts ih => simp only [List.cons_append, run, ih, List.append_assoc]

/-! ## A shutdown step by step -/

/-- Behind a broadcast the waiting jobs of a closed pool are dropped one by
one. -/
theorem run_discards (shop : Workshop α) (haccepting : shop.pool.accepting = false)
    (hlive : shop.pool.live.entries = []) :
    shop.run (List.replicate shop.pool.pending.length .discard) =
      (shop.pool.pending.map .discarded,
        { shop with pool := { shop.pool with pending := [] } }) := by
  obtain ⟨pool, tokens, held⟩ := shop
  obtain ⟨size, capacity, accepting, pending, running, live⟩ := pool
  dsimp only at haccepting hlive
  subst haccepting
  induction pending with
  | nil => rfl
  | cons job rest ih =>
    simp only [List.length_cons, List.replicate_succ, run, act]
    rw [release_of_nil hlive, ih]
    rfl

/-- A shutdown closes the pool, cancels the live tokens and drops the
waiting jobs. -/
theorem act_shutdown (shop : Workshop α) :
    shop.act .shutdown =
      shop.run (.close :: .cancelAll :: List.replicate shop.pool.pending.length .discard) := by
  have hdiscards := run_discards ((shop.act .close).2.act .cancelAll).2 rfl rfl
  rw [run, run]
  refine Eq.trans ?_ (congrArg (fun rest => (_ ++ (_ ++ Prod.fst rest), Prod.snd rest))
    hdiscards.symm)
  rfl

/-- What the steps of a shutdown preserve is preserved by it as well. -/
theorem run_preserves {P : List (Event α) → Workshop α → Prop}
    (hstep : ∀ told shop act, act ≠ .shutdown → P told shop →
      P (told ++ (shop.act act).1) (shop.act act).2)
    {told : List (Event α)} {shop : Workshop α} (h : P told shop) (acts : List (Act α)) :
    P (told ++ (shop.run acts).1) (shop.run acts).2 := by
  have hsteps : ∀ (acts : List (Act α)), (∀ act ∈ acts, act ≠ .shutdown) →
      ∀ told shop, P told shop → P (told ++ (shop.run acts).1) (shop.run acts).2 := by
    intro acts hacts
    induction acts with
    | nil =>
      intro told shop h
      rwa [run, List.append_nil]
    | cons act acts ih =>
      intro told shop h
      rw [run, ← List.append_assoc]
      exact ih (fun act hact => hacts act (List.mem_cons_of_mem _ hact)) _ _
        (hstep told shop act (hacts act List.mem_cons_self) h)
  induction acts generalizing told shop with
  | nil => rwa [run, List.append_nil]
  | cons act acts ih =>
    rw [run, ← List.append_assoc]
    refine ih ?_
    by_cases hact : act = .shutdown
    · rw [hact, act_shutdown]
      refine hsteps _ ?_ told shop h
      intro step hmem
      rcases List.mem_cons.mp hmem with rfl | hmem
      · nofun
      · rcases List.mem_cons.mp hmem with rfl | hmem
        · nofun
        · rw [List.eq_of_mem_replicate hmem]
          nofun
    · exact hstep told shop act hact h

end Workshop

end TestRig.Pool
