import TestRig.Queue
import Mathlib.Data.List.Perm.Basic
import Mathlib.Tactic.SplitIfs

/-!
# Conservation in a shared queue

A queue is used by callers that push, pop, clear and close it in any order.
What was taken out of it, in that order, and what it still holds are what
it accepted, in that order (`Used.conserves`), however full it gets and
whatever becomes of a push that finds it full.

* `Shared` is a queue with the pushes that wait for room.  Whatever a use
  makes possible for them happens at once, in an order that the run is free
  to choose (`Shared.apply`, `Shared.run`).
* `Answered` lists all answers to a push.
* `Settled` is the invariant: the queue is not overfull, and a push waits
  only while the queue is open and full.
* `Used` is what one use does (`Settled.apply`), and what a run does by
  `Used.trans` (`Settled.run`).
* `Drained` is the rest of the life of a closed queue.
-/

namespace TestRig.Queue

variable {α : Type}

/-! ## Answers to a push -/

/-- What a push is answered, and the queue behind it. -/
inductive Answered (queue : Queue α) (a : α) : Pushed α × Queue α → Prop where
  | closed (hclosed : queue.closed = true) :
      Answered queue a (.refused .queueClosed, queue)
  | room (hopen : queue.closed = false) (hroom : queue.items.length < queue.capacity) :
      Answered queue a (.accepted none, { queue with items := queue.items ++ [a] })
  | full (hopen : queue.closed = false) (hfull : queue.items.length = queue.capacity)
      (hpolicy : queue.policy = .reject) :
      Answered queue a (.refused (.queueFull queue.capacity), queue)
  /-- Only the oldest item makes room. -/
  | evicts (hopen : queue.closed = false) (hfull : queue.items.length = queue.capacity)
      (hpolicy : queue.policy = .dropOldest) (oldest : α) (rest : List α)
      (hitems : queue.items = oldest :: rest) :
      Answered queue a (.accepted (some oldest), { queue with items := rest ++ [a] })
  | waits (hopen : queue.closed = false) (hfull : queue.items.length = queue.capacity)
      (hpolicy : queue.policy = .block) : Answered queue a (.waiting, queue)

/-- A queue that is not overfull; at least one item may wait in it. -/
structure Bounded (queue : Queue α) : Prop where
  capacity_pos : 0 < queue.capacity
  length_le : queue.items.length ≤ queue.capacity

theorem bounded_empty (capacity : Nat) (policy : OverflowPolicy) :
    (empty capacity policy : Queue α).Bounded where
  capacity_pos := Nat.lt_of_lt_of_le Nat.one_pos (Nat.le_max_right ..)
  length_le := Nat.zero_le _

theorem Bounded.answered {queue : Queue α} (h : queue.Bounded) (a : α) :
    Answered queue a (queue.push a) := by
  have hpos := h.capacity_pos
  have hle := h.length_le
  unfold push
  split_ifs with hclosed hroom
  · exact .closed hclosed
  · exact .room (Bool.eq_false_iff.mpr hclosed) (of_decide_eq_true hroom)
  · have hopen : queue.closed = false := Bool.eq_false_iff.mpr hclosed
    have hfull : queue.items.length = queue.capacity := by
      rw [hasRoom, decide_eq_true_eq] at hroom
      omega
    cases hpolicy : queue.policy with
    | reject => exact .full hopen hfull hpolicy
    | block => exact .waits hopen hfull hpolicy
    | dropOldest =>
      show Answered queue a (queue.replaceOldest a)
      unfold replaceOldest
      cases hitems : queue.items with
      | nil =>
        rw [hitems, List.length_nil] at hfull
        omega
      | cons oldest rest => exact .evicts hopen hfull hpolicy oldest rest hitems

/-- A push keeps the queue within its bounds. -/
theorem Answered.bounded {queue after : Queue α} {a : α} {pushed : Pushed α}
    (h : Answered queue a (pushed, after)) (hbounded : queue.Bounded) : after.Bounded := by
  obtain ⟨hpos, hle⟩ := hbounded
  cases h with
  | closed | full | waits => exact ⟨hpos, hle⟩
  | room hopen hroom =>
    refine ⟨hpos, ?_⟩
    rw [List.length_append, List.length_singleton]
    exact hroom
  | evicts hopen hfull hpolicy oldest rest hitems =>
    refine ⟨hpos, ?_⟩
    rw [hitems, List.length_cons] at hle
    rw [List.length_append, List.length_singleton]
    exact hle

/-! ## Shared queues -/

/-- What can be done to a queue. -/
inductive Use (α : Type) where
  | push (a : α)
  | tryPop
  /-- A pop that waits until time is up.  An item that comes in the meantime
  is pushed by a use before this one. -/
  | popTimeout
  /-- A pop that waits for as long as it takes.  One that finds nothing in an
  open queue is tried again as a use of its own. -/
  | pop
  | clear
  | close

/-- The item that a use wants to put into the queue. -/
def Use.item? : Use α → Option α
  | push a => some a
  | _ => none

/-- One of the three pops. -/
def Use.takesOne : Use α → Bool
  | tryPop | popTimeout | pop => true
  | push _ | clear | close => false

/-- What a use tells. -/
inductive Event (α : Type) where
  | accepted (a : α)
  | refused (a : α) (failure : Failure)
  | evicted (a : α)
  | popped (a : α)
  | cleared (a : α)
  /-- A pop came back without an item. -/
  | nothing
  /-- A pop waits. -/
  | idle

namespace Event

/-- The answer to a pop. -/
def ofPop : Event α → Bool
  | popped _ | nothing | idle => true
  | accepted _ | refused _ _ | evicted _ | cleared _ => false

/-- What the end of a push tells; nothing if it waits. -/
def ofPushed (a : α) : Pushed α → List (Event α)
  | .accepted oldest => (oldest.map evicted).toList ++ [accepted a]
  | .refused failure => [refused a failure]
  | .waiting => []

/-- The item that an event put into the queue. -/
def put? : Event α → Option α
  | accepted a => some a
  | _ => none

/-- The item that an event took out of the queue. -/
def taken? : Event α → Option α
  | evicted a => some a
  | popped a => some a
  | cleared a => some a
  | _ => none

/-- The item of a push that came to its end. -/
def ended? : Event α → Option α
  | accepted a => some a
  | refused a _ => some a
  | _ => none

/-- A closed queue can tell this: it refuses every push, and lets no pop
wait. -/
def OfClosed : Event α → Prop
  | refused _ failure => failure = .queueClosed
  | popped _ => True
  | cleared _ => True
  | nothing => True
  | accepted _ => False
  | evicted _ => False
  | idle => False

end Event

/-- The accepted items, in the order of their acceptance. -/
def accepted (told : List (Event α)) : List α :=
  told.filterMap Event.put?

/-- The items popped, evicted and cleared, in the order of their removal. -/
def removed (told : List (Event α)) : List α :=
  told.filterMap Event.taken?

/-- The items of the pushes that were accepted or refused. -/
def ended (told : List (Event α)) : List α :=
  told.filterMap Event.ended?

@[simp] theorem accepted_append (first second : List (Event α)) :
    accepted (first ++ second) = accepted first ++ accepted second :=
  List.filterMap_append ..

@[simp] theorem removed_append (first second : List (Event α)) :
    removed (first ++ second) = removed first ++ removed second :=
  List.filterMap_append ..

@[simp] theorem ended_append (first second : List (Event α)) :
    ended (first ++ second) = ended first ++ ended second :=
  List.filterMap_append ..

theorem accepted_of_closed {told : List (Event α)} (h : ∀ event ∈ told, event.OfClosed) :
    accepted told = [] := by
  refine List.filterMap_eq_nil_iff.mpr ?_
  intro event hevent
  have hclosed := h event hevent
  cases event with
  | accepted a => exact hclosed.elim
  | refused | evicted | popped | cleared | nothing | idle => rfl

/-- A queue, and the items of the pushes that wait for room in it. -/
structure Shared (α : Type) where
  queue : Queue α
  waiting : List α := []

namespace Shared

/-- The first half of a use: what the caller itself does. -/
def perform (shared : Shared α) : Use α → List (Event α) × Shared α
  | .push a =>
    match shared.queue.push a with
    | (.waiting, queue) => ([], ⟨queue, shared.waiting ++ [a]⟩)
    | (pushed, queue) => (Event.ofPushed a pushed, { shared with queue })
  | .tryPop | .popTimeout =>
    match shared.queue.tryPop with
    | (some a, queue) => ([.popped a], { shared with queue })
    | (none, queue) => ([.nothing], { shared with queue })
  | .pop =>
    match shared.queue.pop with
    | (.item a, queue) => ([.popped a], { shared with queue })
    | (.ended, queue) => ([.nothing], { shared with queue })
    | (.waiting, queue) => ([.idle], { shared with queue })
  | .clear => (shared.queue.items.map .cleared, { shared with queue := shared.queue.clear.2 })
  | .close => ([], { shared with queue := shared.queue.close })

/-- The second half: pushes that wait come to their end, until none is left
or the next one still has to wait.  `turn` says which of them is next. -/
def wake (turn : Nat → Nat) : (fuel : Nat) → Shared α → List (Event α) × Shared α
  | 0, shared => ([], shared)
  | fuel + 1, shared =>
    let index := turn fuel % shared.waiting.length
    match shared.waiting[index]? with
    | none => ([], shared)
    | some a =>
      match shared.queue.push a with
      | (.waiting, _) => ([], shared)
      | (pushed, queue) =>
        let (told, shared) := wake turn fuel ⟨queue, shared.waiting.eraseIdx index⟩
        (Event.ofPushed a pushed ++ told, shared)

/-- A use, and the turns of the pushes that can end behind it. -/
def apply (shared : Shared α) (use : Use α) (turn : Nat → Nat) : List (Event α) × Shared α :=
  let (told, shared) := shared.perform use
  let (woken, shared) := wake turn shared.waiting.length shared
  (told ++ woken, shared)

/-- What a run tells, and the queue behind it. -/
def run (shared : Shared α) : List (Use α × (Nat → Nat)) → List (Event α) × Shared α
  | [] => ([], shared)
  | (use, turn) :: rest =>
    let (told, shared) := shared.apply use turn
    let (later, shared) := shared.run rest
    (told ++ later, shared)

/-- A queue that nobody has used. -/
def fresh (capacity : Nat) (policy : OverflowPolicy) : Shared α :=
  { queue := .empty capacity policy }

/-! ## Invariants -/

/-- Pushes wait only under the policy that says so. -/
structure Orderly (shared : Shared α) : Prop where
  bounded : shared.queue.Bounded
  policy : shared.waiting ≠ [] → shared.queue.policy = .block

/-- A push waits only while the queue is open and full. -/
structure Settled (shared : Shared α) : Prop extends Orderly shared where
  waits : shared.waiting ≠ [] →
    shared.queue.closed = false ∧ shared.queue.items.length = shared.queue.capacity

theorem settled_fresh (capacity : Nat) (policy : OverflowPolicy) :
    (fresh capacity policy : Shared α).Settled where
  bounded := bounded_empty capacity policy
  policy h := absurd rfl h
  waits h := absurd rfl h

/-! ## Accounts -/

/-- The account of a part of a run in which some items were offered.  No
item is lost or doubled on its way through the queue, and no push on its
way to an answer; a pop comes back without an item only when all are out;
a closed queue takes nothing and keeps no pop waiting. -/
structure Used (before : Shared α) (offered : List α) (told : List (Event α))
    (after : Shared α) : Prop where
  capacity : after.queue.capacity = before.queue.capacity
  policy : after.queue.policy = before.queue.policy
  conserves : removed told ++ after.queue.items = before.queue.items ++ accepted told
  answers : (ended told ++ after.waiting).Perm (before.waiting ++ offered)
  nothing : ∀ earlier later, told = earlier ++ .nothing :: later →
    removed earlier = before.queue.items ++ accepted earlier
  closed : before.queue.closed = true →
    after.queue.closed = true ∧ ∀ event ∈ told, event.OfClosed

/-- A change that is not told about keeps the items. -/
theorem used_silent {before after : Shared α} {offered : List α}
    (hcapacity : after.queue.capacity = before.queue.capacity)
    (hpolicy : after.queue.policy = before.queue.policy)
    (hitems : after.queue.items = before.queue.items)
    (hwaiting : after.waiting.Perm (before.waiting ++ offered))
    (hclosed : before.queue.closed = true → after.queue.closed = true) :
    Used before offered [] after where
  capacity := hcapacity
  policy := hpolicy
  conserves := by
    rw [hitems]
    exact (List.append_nil _).symm
  answers := hwaiting
  nothing := by
    intro earlier later h
    exact absurd h.symm (List.append_ne_nil_of_right_ne_nil _ (List.cons_ne_nil _ _))
  closed h := ⟨hclosed h, fun event hevent => absurd hevent List.not_mem_nil⟩

theorem Used.refl (shared : Shared α) : Used shared [] [] shared :=
  used_silent rfl rfl rfl (List.Perm.of_eq (List.append_nil _).symm) id

theorem Used.trans {first middle last : Shared α} {offered offered' : List α}
    {told told' : List (Event α)} (h : Used first offered told middle)
    (h' : Used middle offered' told' last) :
    Used first (offered ++ offered') (told ++ told') last where
  capacity := h'.capacity.trans h.capacity
  policy := h'.policy.trans h.policy
  conserves := by
    rw [removed_append, accepted_append, List.append_assoc, h'.conserves, ← List.append_assoc,
      h.conserves, List.append_assoc]
  answers := by
    have hfirst := h.answers.append_right offered'
    have hsecond := h'.answers.append_left (ended told)
    rw [ended_append, List.append_assoc, ← List.append_assoc first.waiting]
    rw [List.append_assoc] at hfirst
    exact hsecond.trans hfirst
  nothing := by
    intro earlier later heq
    rcases List.append_eq_append_iff.mp heq with ⟨between, rfl, hrest⟩ | ⟨between, rfl, hrest⟩
    · have hbefore := h'.nothing between later hrest
      rw [removed_append, accepted_append, hbefore, ← List.append_assoc, h.conserves,
        List.append_assoc]
    · rcases between with _ | ⟨event, between⟩
      · -- the pop is the first thing that the second part tells
        have hempty : [] = middle.queue.items ++ [] := h'.nothing [] later hrest.symm
        have hconserves := h.conserves
        rw [List.append_nil] at hempty hconserves
        rwa [← hempty, List.append_nil] at hconserves
      · obtain ⟨rfl, _⟩ := List.cons.inj hrest
        exact h.nothing earlier between rfl
  closed hclosed := by
    obtain ⟨hmiddle, hevents⟩ := h.closed hclosed
    obtain ⟨hlast, hevents'⟩ := h'.closed hmiddle
    refine ⟨hlast, ?_⟩
    intro event hevent
    exact (List.mem_append.mp hevent).elim (hevents event) (hevents' event)

/-- Without a pop that comes back empty-handed there is nothing to say about
one. -/
theorem nothing_of_notMem {before : Shared α} {told : List (Event α)} (h : .nothing ∉ told) :
    ∀ earlier later, told = earlier ++ .nothing :: later →
      removed earlier = before.queue.items ++ accepted earlier := by
  rintro earlier later rfl
  exact absurd (List.mem_append_right earlier List.mem_cons_self) h

/-! ## One use -/

/-- The end of a push, of one that was made just now or of one that has
waited. -/
theorem used_of_answered {queue after : Queue α} {a : α} {pushed : Pushed α}
    (h : Answered queue a (pushed, after)) (hends : pushed ≠ .waiting)
    {waiting waiting' offered : List α} (hperm : (a :: waiting').Perm (waiting ++ offered)) :
    Used ⟨queue, waiting⟩ offered (Event.ofPushed a pushed) ⟨after, waiting'⟩ := by
  have hopened : ∀ {p : Prop}, queue.closed = false → queue.closed = true → p := by
    intro p hopen hclosed
    rw [hopen] at hclosed
    cases hclosed
  cases h with
  | closed hclosed =>
    refine ⟨rfl, rfl, (List.append_nil _).symm, hperm,
      nothing_of_notMem (by simp [Event.ofPushed]), fun _ => ⟨hclosed, ?_⟩⟩
    intro event hevent
    rw [List.mem_singleton.mp hevent]
    rfl
  | room hopen hroom =>
    exact ⟨rfl, rfl, rfl, hperm, nothing_of_notMem (by simp [Event.ofPushed]), hopened hopen⟩
  | full hopen hfull hpolicy =>
    exact ⟨rfl, rfl, (List.append_nil _).symm, hperm,
      nothing_of_notMem (by simp [Event.ofPushed]), hopened hopen⟩
  | evicts hopen hfull hpolicy oldest rest hitems =>
    refine ⟨rfl, rfl, ?_, hperm, nothing_of_notMem (by simp [Event.ofPushed]), hopened hopen⟩
    show oldest :: (rest ++ [a]) = queue.items ++ [a]
    rw [hitems, List.cons_append]
  | waits => exact absurd rfl hends

/-- An item is taken from the front. -/
theorem used_popped (queue : Queue α) (waiting : List α) {a : α} {rest : List α}
    (hitems : queue.items = a :: rest) :
    Used ⟨queue, waiting⟩ [] [.popped a] ⟨{ queue with items := rest }, waiting⟩ where
  capacity := rfl
  policy := rfl
  conserves := by
    show a :: rest = queue.items ++ []
    rw [hitems, List.append_nil]
  answers := List.Perm.of_eq (List.append_nil _).symm
  nothing := nothing_of_notMem (by simp)
  closed hclosed := by
    refine ⟨hclosed, ?_⟩
    intro event hevent
    rw [List.mem_singleton.mp hevent]
    trivial

/-- A pop finds an empty queue, and may wait only if that is open. -/
theorem used_unpopped (queue : Queue α) (waiting : List α) {event : Event α}
    (hitems : queue.items = [])
    (hevent : event = .nothing ∨ event = .idle ∧ queue.closed = false) :
    Used ⟨queue, waiting⟩ [] [event] ⟨queue, waiting⟩ where
  capacity := rfl
  policy := rfl
  conserves := by
    rcases hevent with rfl | ⟨rfl, _⟩ <;> exact (List.append_nil _).symm
  answers := by
    rcases hevent with rfl | ⟨rfl, _⟩ <;> exact List.Perm.of_eq (List.append_nil _).symm
  nothing := by
    intro earlier later heq
    rcases List.singleton_eq_append_iff.mp heq with ⟨rfl, _⟩ | ⟨_, hnil⟩
    · rw [hitems]
      rfl
    · cases hnil
  closed hclosed := by
    refine ⟨hclosed, ?_⟩
    intro other hother
    rw [List.mem_singleton.mp hother]
    rcases hevent with rfl | ⟨rfl, hopen⟩
    · trivial
    · rw [hopen] at hclosed
      cases hclosed

theorem bounded_of_popped {queue : Queue α} (h : queue.Bounded) {a : α} {rest : List α}
    (hitems : queue.items = a :: rest) : Bounded { queue with items := rest } := by
  have hle := h.length_le
  rw [hitems, List.length_cons] at hle
  exact ⟨h.capacity_pos, Nat.le_of_succ_le hle⟩

theorem removed_cleared (items : List α) : removed (items.map Event.cleared) = items := by
  rw [removed, List.filterMap_map]
  exact List.filterMap_some

theorem filterMap_cleared (pick : Event α → Option α) (hpick : ∀ a, pick (.cleared a) = none)
    (items : List α) : (items.map Event.cleared).filterMap pick = [] := by
  rw [List.filterMap_map, List.filterMap_eq_nil_iff]
  exact fun a _ => hpick a

theorem used_cleared (queue : Queue α) (waiting : List α) :
    Used ⟨queue, waiting⟩ [] (queue.items.map .cleared) ⟨queue.clear.2, waiting⟩ where
  capacity := rfl
  policy := rfl
  conserves := by
    rw [removed_cleared, accepted, filterMap_cleared _ fun _ => rfl]
    rfl
  answers := by
    rw [ended, filterMap_cleared _ fun _ => rfl, List.append_nil]
    exact List.Perm.refl _
  nothing := nothing_of_notMem (by simp)
  closed hclosed := by
    refine ⟨hclosed, ?_⟩
    intro event hevent
    obtain ⟨a, _, rfl⟩ := List.mem_map.mp hevent
    trivial

/-- What the caller itself does. -/
theorem Settled.perform {shared : Shared α} (h : shared.Settled) (use : Use α) :
    Used shared use.item?.toList (shared.perform use).1 (shared.perform use).2 ∧
      (shared.perform use).2.Orderly := by
  obtain ⟨queue, waiting⟩ := shared
  have hbounded := h.bounded
  cases use with
  | push a =>
    have hanswered := hbounded.answered a
    have hlast : (a :: waiting).Perm (waiting ++ [a]) := @List.perm_append_comm _ [a] waiting
    unfold Shared.perform
    dsimp only at hanswered ⊢
    generalize queue.push a = result at hanswered ⊢
    obtain ⟨pushed, after⟩ := result
    have hpolicy : waiting ≠ [] → after.policy = .block := by
      intro hne
      have hblock := h.policy hne
      cases hanswered <;> exact hblock
    cases pushed with
    | accepted evicted =>
      exact ⟨used_of_answered hanswered (by simp) hlast, hanswered.bounded hbounded, hpolicy⟩
    | refused failure =>
      exact ⟨used_of_answered hanswered (by simp) hlast, hanswered.bounded hbounded, hpolicy⟩
    | waiting =>
      cases hanswered with
      | waits hopen hfull hblock =>
        exact ⟨used_silent rfl rfl rfl (List.Perm.refl _) id, hbounded, fun _ => hblock⟩
  | tryPop | popTimeout =>
    unfold Shared.perform Queue.tryPop
    dsimp only
    cases hitems : queue.items with
    | nil => exact ⟨used_unpopped queue waiting hitems (Or.inl rfl), hbounded, h.policy⟩
    | cons a rest =>
      exact ⟨used_popped queue waiting hitems, bounded_of_popped hbounded hitems, h.policy⟩
  | pop =>
    unfold Shared.perform Queue.pop
    dsimp only
    cases hitems : queue.items with
    | nil =>
      cases hclosed : queue.closed with
      | true => exact ⟨used_unpopped queue waiting hitems (Or.inl rfl), hbounded, h.policy⟩
      | false =>
        exact ⟨used_unpopped queue waiting hitems (Or.inr ⟨rfl, hclosed⟩), hbounded, h.policy⟩
    | cons a rest =>
      exact ⟨used_popped queue waiting hitems, bounded_of_popped hbounded hitems, h.policy⟩
  | clear =>
    exact ⟨used_cleared queue waiting, ⟨hbounded.capacity_pos, Nat.zero_le _⟩, h.policy⟩
  | close =>
    exact ⟨used_silent rfl rfl rfl (List.Perm.of_eq (List.append_nil _).symm) fun _ => rfl,
      ⟨hbounded.capacity_pos, hbounded.length_le⟩, h.policy⟩

/-- With a turn for each of the pushes that wait, they end until the queue
is full again. -/
theorem Orderly.wake {shared : Shared α} (h : shared.Orderly) (turn : Nat → Nat) {fuel : Nat}
    (hfuel : shared.waiting.length ≤ fuel) :
    Used shared [] (shared.wake turn fuel).1 (shared.wake turn fuel).2 ∧
      (shared.wake turn fuel).2.Settled := by
  induction fuel generalizing shared with
  | zero =>
    have hnone : shared.waiting = [] := List.eq_nil_of_length_eq_zero (Nat.le_zero.mp hfuel)
    exact ⟨.refl shared, h, fun hne => absurd hnone hne⟩
  | succ fuel ih =>
    obtain ⟨queue, waiting⟩ := shared
    unfold Shared.wake
    dsimp only at hfuel ⊢
    have hindex : 0 < waiting.length → turn fuel % waiting.length < waiting.length :=
      Nat.mod_lt _
    generalize turn fuel % waiting.length = index at hindex ⊢
    cases hnext : waiting[index]? with
    | none =>
      have hshort := List.getElem?_eq_none_iff.mp hnext
      have hnone : waiting = [] := List.eq_nil_of_length_eq_zero (by omega)
      exact ⟨.refl _, h, fun hne => absurd hnone hne⟩
    | some a =>
      obtain ⟨hinside, rfl⟩ := List.getElem?_eq_some_iff.mp hnext
      have hsome : waiting ≠ [] := List.ne_nil_of_length_pos (Nat.zero_lt_of_lt hinside)
      have hblock : queue.policy = .block := h.policy hsome
      have hanswered := h.bounded.answered waiting[index]
      dsimp only at hanswered ⊢
      generalize queue.push waiting[index] = result at hanswered ⊢
      obtain ⟨pushed, after⟩ := result
      have hgoes : pushed ≠ .waiting →
          Used ⟨queue, waiting⟩ []
              (Event.ofPushed waiting[index] pushed ++
                (Shared.wake turn fuel ⟨after, waiting.eraseIdx index⟩).1)
              (Shared.wake turn fuel ⟨after, waiting.eraseIdx index⟩).2 ∧
            (Shared.wake turn fuel ⟨after, waiting.eraseIdx index⟩).2.Settled := by
        intro hends
        have hperm : (waiting[index] :: waiting.eraseIdx index).Perm (waiting ++ []) := by
          rw [List.append_nil]
          exact List.getElem_cons_eraseIdx_perm hinside
        have hfirst := used_of_answered hanswered hends hperm
        have hshorter : (waiting.eraseIdx index).length ≤ fuel := by
          rw [List.length_eraseIdx_of_lt hinside]
          exact Nat.sub_le_of_le_add hfuel
        have horderly : Orderly ⟨after, waiting.eraseIdx index⟩ :=
          ⟨hanswered.bounded h.bounded, fun _ => hfirst.policy.trans hblock⟩
        obtain ⟨hrest, hsettled⟩ := ih horderly hshorter
        exact ⟨hfirst.trans hrest, hsettled⟩
      cases pushed with
      | accepted evicted => exact hgoes (by simp)
      | refused failure => exact hgoes (by simp)
      | waiting =>
        cases hanswered with
        | waits hopen hfull _ => exact ⟨.refl _, h, fun _ => ⟨hopen, hfull⟩⟩

/-- A use, with the pushes that end behind it. -/
theorem Settled.apply {shared : Shared α} (h : shared.Settled) (use : Use α)
    (turn : Nat → Nat) :
    Used shared use.item?.toList (shared.apply use turn).1 (shared.apply use turn).2 ∧
      (shared.apply use turn).2.Settled := by
  obtain ⟨hperformed, horderly⟩ := h.perform use
  obtain ⟨hwoken, hsettled⟩ := horderly.wake turn (Nat.le_refl _)
  have hused := hperformed.trans hwoken
  rw [List.append_nil] at hused
  exact ⟨hused, hsettled⟩

/-! ## Runs -/

/-- The items that the pushes of a run want to put into the queue. -/
def offered (uses : List (Use α × (Nat → Nat))) : List α :=
  uses.filterMap fun use => use.1.item?

/-- The account of a run. -/
theorem Settled.run {shared : Shared α} (h : shared.Settled)
    (uses : List (Use α × (Nat → Nat))) :
    Used shared (offered uses) (shared.run uses).1 (shared.run uses).2 ∧
      (shared.run uses).2.Settled := by
  induction uses generalizing shared with
  | nil => exact ⟨.refl shared, h⟩
  | cons first rest ih =>
    obtain ⟨use, turn⟩ := first
    obtain ⟨hfirst, hsettled⟩ := h.apply use turn
    obtain ⟨hrest, hlast⟩ := ih hsettled
    refine ⟨?_, hlast⟩
    have hused := hfirst.trans hrest
    have hoffered : offered ((use, turn) :: rest) = use.item?.toList ++ offered rest := by
      rw [offered, List.filterMap_cons]
      dsimp only
      cases use.item? <;> rfl
    rw [hoffered]
    exact hused

/-- The turns behind a close: every push that waits is refused. -/
theorem wake_of_closed {shared : Shared α} (h : shared.queue.closed = true)
    (turn : Nat → Nat) (fuel : Nat) :
    (shared.wake turn fuel).2.queue = shared.queue ∧
      ∀ event ∈ (shared.wake turn fuel).1, ∃ a, event = .refused a .queueClosed := by
  induction fuel generalizing shared with
  | zero => exact ⟨rfl, fun event hevent => absurd hevent List.not_mem_nil⟩
  | succ fuel ih =>
    obtain ⟨queue, waiting⟩ := shared
    unfold Shared.wake
    dsimp only at h ⊢
    generalize turn fuel % waiting.length = index
    cases waiting[index]? with
    | none => exact ⟨rfl, fun event hevent => absurd hevent List.not_mem_nil⟩
    | some a =>
      dsimp only
      have hpush : queue.push a = (.refused .queueClosed, queue) := if_pos h
      obtain ⟨hqueue, hevents⟩ := @ih ⟨queue, waiting.eraseIdx index⟩ h
      rw [hpush]
      refine ⟨hqueue, ?_⟩
      intro event hevent
      rcases List.mem_append.mp hevent with hfirst | hrest
      · exact ⟨a, List.mem_singleton.mp hfirst⟩
      · exact hevents event hrest

theorem wake_nil {shared : Shared α} (h : shared.waiting = []) (turn : Nat → Nat)
    (fuel : Nat) : shared.wake turn fuel = ([], shared) := by
  cases fuel with
  | zero => rfl
  | succ fuel =>
    unfold Shared.wake
    rw [h]
    rfl

/-- Whatever is done to a closed queue: items only leave it, every push is
refused at once, and no pop waits.  The pops return what was left in it, in
its order, and then nothing. -/
structure Drained (shared : Shared α) : Prop where
  closed : shared.queue.closed = true
  waiting : shared.waiting = []
  told : ∀ uses, ∀ event ∈ (shared.run uses).1, event.OfClosed
  answers : ∀ uses, (ended (shared.run uses).1).Perm (offered uses)
  items : ∀ uses,
    removed (shared.run uses).1 ++ (shared.run uses).2.queue.items = shared.queue.items
  pops : ∀ uses, (∀ use ∈ uses, use.1 ≠ .clear) →
    (shared.run uses).1.filter Event.ofPop =
      (shared.queue.items.take (uses.countP (·.1.takesOne))).map .popped ++
        List.replicate (uses.countP (·.1.takesOne) - shared.queue.items.length) .nothing

/-- A use of a queue on which nobody waits, in front of other uses. -/
theorem run_cons_of_nil {queue after : Queue α} {use : Use α} {told : List (Event α)}
    (h : Shared.perform ⟨queue, []⟩ use = (told, ⟨after, []⟩)) (turn : Nat → Nat)
    (rest : List (Use α × (Nat → Nat))) :
    Shared.run ⟨queue, []⟩ ((use, turn) :: rest) =
      (told ++ (Shared.run ⟨after, []⟩ rest).1, (Shared.run ⟨after, []⟩ rest).2) := by
  have happly : Shared.apply ⟨queue, []⟩ use turn = (told, ⟨after, []⟩) := by
    unfold Shared.apply
    rw [h]
    dsimp only
    rw [wake_nil rfl]
    dsimp only
    rw [List.append_nil]
  rw [Shared.run, happly]

/-- The pops of a closed queue, with any pushes between them. -/
theorem pops_of_closed {queue : Queue α} (hclosed : queue.closed = true)
    (uses : List (Use α × (Nat → Nat))) (hkeeps : ∀ use ∈ uses, use.1 ≠ .clear) :
    (Shared.run ⟨queue, []⟩ uses).1.filter Event.ofPop =
      (queue.items.take (uses.countP (·.1.takesOne))).map .popped ++
        List.replicate (uses.countP (·.1.takesOne) - queue.items.length) .nothing := by
  induction uses generalizing queue with
  | nil => simp [Shared.run]
  | cons first rest ih =>
    obtain ⟨use, turn⟩ := first
    have hrest : ∀ use ∈ rest, use.1 ≠ .clear := fun use huse =>
      hkeeps use (List.mem_cons_of_mem _ huse)
    cases use with
    | push a =>
      have hpush : Shared.perform ⟨queue, []⟩ (.push a) =
          ([.refused a .queueClosed], ⟨queue, []⟩) := by
        simp [Shared.perform, Queue.push, hclosed, Event.ofPushed]
      rw [run_cons_of_nil hpush, List.countP_cons_of_neg (by simp [Use.takesOne])]
      exact ih hclosed hrest
    | tryPop | popTimeout | pop =>
      rw [List.countP_cons_of_pos (by rfl)]
      rcases hitems : queue.items with _ | ⟨a, items⟩
      · have hpop : ∀ use : Use α, use.takesOne = true →
            Shared.perform ⟨queue, []⟩ use = ([.nothing], ⟨queue, []⟩) := by
          intro use huse
          cases use <;> simp_all [Shared.perform, Queue.tryPop, Queue.pop, Use.takesOne]
        have hlater := ih hclosed hrest
        rw [hitems] at hlater
        rw [run_cons_of_nil (hpop _ rfl), List.filter_append, hlater]
        simp [List.filter, Event.ofPop, List.replicate_succ]
      · have hpop : ∀ use : Use α, use.takesOne = true →
            Shared.perform ⟨queue, []⟩ use = ([.popped a], ⟨{ queue with items }, []⟩) := by
          intro use huse
          cases use <;> simp_all [Shared.perform, Queue.tryPop, Queue.pop, Use.takesOne]
        have hlater := @ih { queue with items } hclosed hrest
        rw [run_cons_of_nil (hpop _ rfl), List.filter_append, hlater]
        simp [List.filter, Event.ofPop]
    | clear => exact absurd rfl (hkeeps _ List.mem_cons_self)
    | close =>
      have hclose : Shared.perform ⟨queue, []⟩ .close = ([], ⟨queue.close, []⟩) := rfl
      rw [run_cons_of_nil hclose, List.countP_cons_of_neg (by simp [Use.takesOne])]
      exact @ih queue.close rfl hrest

theorem Settled.drained {shared : Shared α} (h : shared.Settled)
    (hclosed : shared.queue.closed = true) : shared.Drained := by
  have hnone : ∀ {shared : Shared α}, shared.Settled → shared.queue.closed = true →
      shared.waiting = [] := by
    intro shared h hclosed
    by_contra hsome
    have hopen := (h.waits hsome).1
    rw [hclosed] at hopen
    cases hopen
  have hwaiting := hnone h hclosed
  refine ⟨hclosed, hwaiting, ?_, ?_, ?_, ?_⟩
  · intro uses
    exact ((h.run uses).1.closed hclosed).2
  · intro uses
    obtain ⟨hused, hsettled⟩ := h.run uses
    have hanswers := hused.answers
    rwa [hwaiting, hnone hsettled (hused.closed hclosed).1, List.append_nil] at hanswers
  · intro uses
    obtain ⟨hused, _⟩ := h.run uses
    have hconserves := hused.conserves
    rwa [accepted_of_closed (hused.closed hclosed).2, List.append_nil] at hconserves
  · obtain ⟨queue, waiting⟩ := shared
    obtain rfl : waiting = [] := hwaiting
    exact fun uses => pops_of_closed hclosed uses

/-- Closing refuses all pushes that wait, and changes nothing else. -/
theorem Settled.close {shared : Shared α} (h : shared.Settled) (turn : Nat → Nat) :
    (shared.apply .close turn).2.queue = shared.queue.close ∧
      (∀ event ∈ (shared.apply .close turn).1, ∃ a, event = .refused a .queueClosed) ∧
      (ended (shared.apply .close turn).1).Perm shared.waiting ∧
      (shared.apply .close turn).2.Drained := by
  obtain ⟨hused, hsettled⟩ := h.apply .close turn
  obtain ⟨hqueue, hevents⟩ := @wake_of_closed _ (shared.perform .close).2 rfl turn
    (shared.perform .close).2.waiting.length
  have hdrained := hsettled.drained (congrArg Queue.closed hqueue)
  have hanswers := hused.answers
  rw [hdrained.waiting, List.append_nil] at hanswers
  have hnone : shared.waiting ++ (Use.close : Use α).item?.toList = shared.waiting :=
    List.append_nil _
  rw [hnone] at hanswers
  exact ⟨hqueue, hevents, hanswers, hdrained⟩

end Shared

/-- A queue of any capacity, zero counting as one, used in any way: it is
never overfull; what was popped, evicted and cleared and what is still in it
are what it accepted, in order; each push is answered once, or waits in an
open queue that is full; a pop comes back without an item only when all are
out.  The next push is answered by the policy and the room there is, and a
close lets the queue run empty. -/
theorem shared_conserves (capacity : Nat) (policy : OverflowPolicy)
    (uses : List (Use α × (Nat → Nat))) :
    let told := ((Shared.fresh capacity policy).run uses).1
    let reached := ((Shared.fresh capacity policy).run uses).2
    (reached.queue.capacity = max capacity 1 ∧ reached.queue.policy = policy) ∧
      reached.queue.length ≤ max capacity 1 ∧
      removed told ++ reached.queue.items = accepted told ∧
      (ended told ++ reached.waiting).Perm (Shared.offered uses) ∧
      (∀ earlier later, told = earlier ++ .nothing :: later →
        removed earlier = accepted earlier) ∧
      (reached.waiting ≠ [] → policy = .block ∧ reached.queue.closed = false ∧
        reached.queue.length = max capacity 1) ∧
      (∀ a, Answered reached.queue a (reached.queue.push a)) ∧
      (reached.queue.closed = true → reached.Drained) ∧
      ∀ turn, (reached.apply .close turn).2.queue = reached.queue.close ∧
        (∀ event ∈ (reached.apply .close turn).1, ∃ a, event = .refused a .queueClosed) ∧
        (ended (reached.apply .close turn).1).Perm reached.waiting ∧
        (reached.apply .close turn).2.Drained := by
  intro told reached
  obtain ⟨hused, hsettled⟩ := (Shared.settled_fresh capacity policy).run (α := α) uses
  have hcapacity : reached.queue.capacity = max capacity 1 := hused.capacity
  have hpolicy : reached.queue.policy = policy := hused.policy
  have hlength : reached.queue.length ≤ max capacity 1 :=
    le_of_le_of_eq hsettled.bounded.length_le hcapacity
  have hwaits : reached.waiting ≠ [] → policy = .block ∧ reached.queue.closed = false ∧
      reached.queue.length = max capacity 1 := by
    intro hsome
    obtain ⟨hopen, hfull⟩ := hsettled.waits hsome
    exact ⟨hpolicy.symm.trans (hsettled.policy hsome), hopen, hfull.trans hcapacity⟩
  exact ⟨⟨hcapacity, hpolicy⟩, hlength, hused.conserves, hused.answers, hused.nothing, hwaits,
    hsettled.bounded.answered, hsettled.drained, hsettled.close⟩

/-- A pop and a clear make room for the pushes that wait, the last one waits
until the close, and the pops get what is left. -/
theorem shared_conserves_waiting :
    ∃ told reached,
      (Shared.fresh 0 .block).run
          ([.push 1, .push 2, .push 3, .pop, .clear, .push 4, .close, .push 5, .tryPop, .pop].map
            (·, fun _ => 0)) = (told, reached) ∧
      told = [.accepted 1, .popped 1, .accepted 2, .cleared 2, .accepted 3,
        .refused 4 .queueClosed, .refused 5 .queueClosed, .popped 3, .nothing] ∧
      removed told ++ reached.queue.items = accepted told ∧ accepted told = [1, 2, 3] ∧
      reached.queue.closed = true ∧ reached.Drained := by
  obtain ⟨_, _, hconserves, _, _, _, _, hdrained, _⟩ := shared_conserves 0 .block
    ([.push 1, .push 2, .push 3, .pop, .clear, .push 4, .close, .push 5, .tryPop, .pop].map
      (·, fun _ => 0))
  exact ⟨_, _, rfl, rfl, hconserves, rfl, rfl, hdrained rfl⟩

end TestRig.Queue
