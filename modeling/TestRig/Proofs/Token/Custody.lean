import TestRig.Proofs.Pool.Jobs
import Mathlib.Data.List.DropRight
import Mathlib.Data.List.Range

/-!
# Tokens, guards and who holds them

Callers make tokens, copy and drop their handles, cancel them, put them into
a set and drop the guards that they get for it, and now and then all tokens
of the set are cancelled together.  All of this comes in any order, and it
is told event by event.

* `Custody` is what the callers hold, `Act` what they can do, and
  `Custody.run` a list of acts with what they tell.
* `liveIn` are the tokens that a history leaves in the set: those put in
  since the last broadcast whose guards were not dropped.
* `Kept` is the invariant: the entries of the set are the live ones, and the
  guards in hand are those that were not dropped.  Guards are numbered in
  order, so that the number of a guard is never that of another one.
-/

namespace TestRig

/-! ## What happens -/

/-- What happened to tokens and to their set. -/
inductive TokenEvent where
  /-- A token was handed out, below another one or not. -/
  | made (token : Token) (parent : Option Token)
  /-- A token was cancelled by one who holds it. -/
  | cancelled (token : Token)
  /-- A token was put into the set. -/
  | inserted (guard : TokenGuard) (token : Token)
  | dropped (guard : TokenGuard)
  /-- The tokens of the set were cancelled, all at once. -/
  | broadcast

namespace TokenEvent

/-- The token that was handed out. -/
@[simp] def made? : TokenEvent → Option Token
  | made token _ => some token
  | _ => none

/-- The entry that was put into the set. -/
@[simp] def inserted? : TokenEvent → Option (TokenGuard × Token)
  | inserted guard token => some (guard, token)
  | _ => none

/-- The guard that was dropped. -/
@[simp] def dropped? : TokenEvent → Option TokenGuard
  | dropped guard => some guard
  | _ => none

/-- The tokens of the set were cancelled. -/
@[simp] def isBroadcast : TokenEvent → Bool
  | broadcast => true
  | _ => false

/-- Tokens were cancelled. -/
@[simp] def cancels : TokenEvent → Bool
  | cancelled _ | broadcast => true
  | _ => false

end TokenEvent

namespace Custody

/-- The tokens handed out, in order. -/
abbrev madeIn (told : List TokenEvent) : List Token :=
  told.filterMap TokenEvent.made?

/-- The entries put into the set, in order. -/
abbrev insertedIn (told : List TokenEvent) : List (TokenGuard × Token) :=
  told.filterMap TokenEvent.inserted?

/-- The guards that were dropped, in order. -/
abbrev droppedIn (told : List TokenEvent) : List TokenGuard :=
  told.filterMap TokenEvent.dropped?

/-- What happened behind the last broadcast. -/
abbrev sinceBroadcast (told : List TokenEvent) : List TokenEvent :=
  told.rtakeWhile fun event => !event.isBroadcast

/-- The tokens put into the set since the last broadcast, each with its
guard, as long as this was not dropped. -/
def liveIn (told : List TokenEvent) : List (TokenGuard × Token) :=
  (insertedIn (sinceBroadcast told)).filter fun entry => entry.1 ∉ droppedIn told

end Custody

/-! ## What is done -/

/-- A set of tokens, and the handles and guards that callers hold. -/
structure Custody where
  /-- The tokens handed out. -/
  tokens : Tokens := {}
  set : TokenSet := {}
  /-- A token is here once for each of its handles. -/
  handles : List Token := []
  guards : List TokenGuard := []

namespace Custody

/-- What callers can do.  They name handles and guards by their place. -/
inductive Act where
  /-- A token is made. -/
  | root
  /-- A token is made below another. -/
  | child (handle : Nat)
  /-- One more handle of the same token. -/
  | clone (handle : Nat)
  /-- A handle is dropped. -/
  | forget (handle : Nat)
  | cancel (handle : Nat)
  | insert (handle : Nat)
  /-- A guard is dropped. -/
  | drop (guard : Nat)
  /-- A new guard takes the place of another, which is dropped then. -/
  | replace (guard handle : Nat)
  | cancelAll

/-- One act: what it tells, and what it leaves behind. -/
def act (custody : Custody) : Act → List TokenEvent × Custody
  | .root =>
    let (token, tokens) := custody.tokens.root
    ([.made token none], { custody with tokens, handles := custody.handles ++ [token] })
  | .child handle =>
    match custody.handles[handle]? with
    | some parent =>
      let (token, tokens) := custody.tokens.child parent
      ([.made token (some parent)],
        { custody with tokens, handles := custody.handles ++ [token] })
    | none => ([], custody)
  | .clone handle =>
    match custody.handles[handle]? with
    | some token => ([], { custody with handles := custody.handles ++ [token] })
    | none => ([], custody)
  | .forget handle => ([], { custody with handles := custody.handles.eraseIdx handle })
  | .cancel handle =>
    match custody.handles[handle]? with
    | some token => ([.cancelled token], { custody with tokens := custody.tokens.cancel token })
    | none => ([], custody)
  | .insert handle =>
    match custody.handles[handle]? with
    | some token =>
      let (guard, set) := custody.set.insert token
      ([.inserted guard token], { custody with set, guards := custody.guards ++ [guard] })
    | none => ([], custody)
  | .drop index =>
    match custody.guards[index]? with
    | some guard =>
      ([.dropped guard],
        { custody with set := custody.set.drop guard, guards := custody.guards.erase guard })
    | none => ([], custody)
  | .replace index handle =>
    match custody.guards[index]?, custody.handles[handle]? with
    | some old, some token =>
      let (new, set) := custody.set.insert token
      ([.inserted new token, .dropped old],
        { custody with set := set.drop old, guards := custody.guards.erase old ++ [new] })
    | _, _ => ([], custody)
  | .cancelAll =>
    let (_, set, tokens) := custody.set.cancelAll custody.tokens
    ([.broadcast], { custody with set, tokens })

/-- Several acts one after the other. -/
def run (custody : Custody) : List Act → List TokenEvent × Custody
  | [] => ([], custody)
  | act :: acts =>
    ((custody.act act).1 ++ ((custody.act act).2.run acts).1, ((custody.act act).2.run acts).2)

/-- What an act preserves is preserved by a run. -/
theorem run_preserves {P : List TokenEvent → Custody → Prop}
    (hstep : ∀ told custody act, P told custody →
      P (told ++ (custody.act act).1) (custody.act act).2)
    {told : List TokenEvent} {custody : Custody} (h : P told custody) (acts : List Act) :
    P (told ++ (custody.run acts).1) (custody.run acts).2 := by
  induction acts generalizing told custody with
  | nil => rwa [run, List.append_nil]
  | cons act acts ih =>
    rw [run, ← List.append_assoc]
    exact ih (hstep told custody act h)

/-! ## Histories with one more event -/

theorem madeIn_concat (told : List TokenEvent) (event : TokenEvent) :
    madeIn (told ++ [event]) = madeIn told ++ event.made?.toList := by
  rw [madeIn, List.filterMap_append]
  cases event <;> rfl

theorem insertedIn_concat (told : List TokenEvent) (event : TokenEvent) :
    insertedIn (told ++ [event]) = insertedIn told ++ event.inserted?.toList := by
  rw [insertedIn, List.filterMap_append]
  cases event <;> rfl

theorem droppedIn_concat (told : List TokenEvent) (event : TokenEvent) :
    droppedIn (told ++ [event]) = droppedIn told ++ event.dropped?.toList := by
  rw [droppedIn, List.filterMap_append]
  cases event <;> rfl

section Live

variable {told : List TokenEvent} {event : TokenEvent}

theorem liveIn_broadcast (h : event.isBroadcast = true) : liveIn (told ++ [event]) = [] := by
  rw [liveIn, sinceBroadcast, List.rtakeWhile_concat, if_neg (by rw [h]; nofun)]
  rfl

/-- Any other event puts an entry into the set, takes one out, or does
neither. -/
theorem liveIn_concat (h : event.isBroadcast = false) :
    liveIn (told ++ [event]) =
      (insertedIn (sinceBroadcast told) ++ event.inserted?.toList).filter fun entry =>
        entry.1 ∉ droppedIn told ++ event.dropped?.toList := by
  rw [liveIn, sinceBroadcast, List.rtakeWhile_concat, if_pos (by rw [h]; rfl), insertedIn_concat,
    droppedIn_concat]

theorem liveIn_aside (h : event.isBroadcast = false) (hinserted : event.inserted? = none)
    (hdropped : event.dropped? = none) : liveIn (told ++ [event]) = liveIn told := by
  rw [liveIn_concat h, hinserted, hdropped, liveIn]
  simp only [Option.toList_none, List.append_nil]

theorem liveIn_inserted {guard : TokenGuard} {token : Token} (h : guard ∉ droppedIn told) :
    liveIn (told ++ [.inserted guard token]) = liveIn told ++ [(guard, token)] := by
  rw [liveIn_concat rfl]
  show ((insertedIn (sinceBroadcast told) ++ [(guard, token)]).filter fun entry =>
    entry.1 ∉ droppedIn told ++ []) = _
  rw [List.append_nil, List.filter_append, List.filter_cons, if_pos (decide_eq_true h)]
  rfl

theorem liveIn_dropped {guard : TokenGuard} :
    liveIn (told ++ [.dropped guard]) = (liveIn told).filter fun entry => entry.1 ≠ guard := by
  rw [liveIn_concat rfl, liveIn, List.filter_filter]
  simp [and_comm]

end Live

/-! ## The invariant of the set -/

/-- The number of an entry and its token. -/
def listing (entry : TokenGuard × Token) : Nat × Token :=
  (entry.1.id, entry.2)

/-- The set, and the guards in hand, as a history leaves them. -/
structure Kept (told : List TokenEvent) (set : TokenSet) (guards : List TokenGuard) : Prop where
  entries : set.entries = (liveIn told).map listing
  next : set.next = (insertedIn told).length
  /-- Guards are numbered from zero on. -/
  numbers : (insertedIn told).map (·.1.id) = List.range (insertedIn told).length
  held : ∀ guard, guard ∈ guards ↔
    guard ∈ (insertedIn told).map Prod.fst ∧ guard ∉ droppedIn told
  nodup : guards.Nodup
  dropped : droppedIn told ⊆ (insertedIn told).map Prod.fst

section Kept

variable {told : List TokenEvent} {set : TokenSet} {guards : List TokenGuard}

/-- The number of a guard lies below the next one. -/
theorem Kept.id_lt (h : Kept told set guards) {guard : TokenGuard}
    (hguard : guard ∈ (insertedIn told).map Prod.fst) : guard.id < set.next := by
  obtain ⟨entry, hentry, rfl⟩ := List.mem_map.mp hguard
  have hnumber := List.mem_map_of_mem (f := fun entry : TokenGuard × Token => entry.1.id) hentry
  rw [h.numbers, List.mem_range] at hnumber
  rwa [h.next]

/-- An event that is neither an insertion nor a drop leaves the guards. -/
theorem Kept.quiet (h : Kept told set guards) {event : TokenEvent} {after : TokenSet}
    (hinserted : event.inserted? = none) (hdropped : event.dropped? = none)
    (hentries : after.entries = (liveIn (told ++ [event])).map listing)
    (hnext : after.next = set.next) : Kept (told ++ [event]) after guards := by
  have hsame : insertedIn (told ++ [event]) = insertedIn told := by
    rw [insertedIn_concat, hinserted, Option.toList_none, List.append_nil]
  have hsame' : droppedIn (told ++ [event]) = droppedIn told := by
    rw [droppedIn_concat, hdropped, Option.toList_none, List.append_nil]
  exact {
    entries := hentries
    next := by rw [hnext, hsame, h.next]
    numbers := hsame ▸ h.numbers
    held := hsame ▸ hsame' ▸ h.held
    nodup := h.nodup
    dropped := hsame ▸ hsame' ▸ h.dropped }

theorem Kept.aside (h : Kept told set guards) {event : TokenEvent}
    (hbroadcast : event.isBroadcast = false) (hinserted : event.inserted? = none)
    (hdropped : event.dropped? = none) : Kept (told ++ [event]) set guards := by
  refine h.quiet hinserted hdropped ?_ rfl
  rw [liveIn_aside hbroadcast hinserted hdropped, h.entries]

theorem Kept.insert (h : Kept told set guards) (token : Token) :
    Kept (told ++ [.inserted ⟨set.next⟩ token]) (set.insert token).2
      (guards ++ [⟨set.next⟩]) := by
  have hinserted : insertedIn (told ++ [.inserted ⟨set.next⟩ token]) =
      insertedIn told ++ [(⟨set.next⟩, token)] := insertedIn_concat ..
  have hdropped : droppedIn (told ++ [.inserted ⟨set.next⟩ token]) = droppedIn told :=
    (droppedIn_concat ..).trans (List.append_nil _)
  have hnew : (⟨set.next⟩ : TokenGuard) ∉ (insertedIn told).map Prod.fst :=
    fun hmem => Nat.lt_irrefl _ (h.id_lt hmem)
  have hnew' : (⟨set.next⟩ : TokenGuard) ∉ droppedIn told := fun hmem => hnew (h.dropped hmem)
  exact {
    entries := by
      show set.entries ++ [(set.next, token)] = _
      rw [liveIn_inserted hnew', List.map_append, h.entries]
      rfl
    next := by
      rw [hinserted, List.length_append, List.length_singleton, ← h.next]
      rfl
    numbers := by
      rw [hinserted, List.map_append, h.numbers, List.length_append, List.length_singleton,
        List.range_succ, ← h.next]
      rfl
    held := by
      intro guard
      rw [hinserted, hdropped, List.mem_append, h.held, List.map_append, List.mem_append]
      show _ ∨ guard ∈ [⟨set.next⟩] ↔ (_ ∨ guard ∈ [⟨set.next⟩]) ∧ _
      rw [or_and_right, List.mem_singleton]
      exact or_congr_right ⟨fun heq => ⟨heq, heq ▸ hnew'⟩, And.left⟩
    nodup := by
      rw [List.nodup_append]
      refine ⟨h.nodup, by simp, ?_⟩
      intro guard hguard other hother heq
      rw [List.mem_singleton.mp hother] at heq
      exact hnew (heq ▸ ((h.held guard).mp hguard).1)
    dropped := by
      rw [hdropped, hinserted, List.map_append]
      exact fun guard hguard => List.mem_append_left _ (h.dropped hguard) }

theorem Kept.drop (h : Kept told set guards) {guard : TokenGuard} (hguard : guard ∈ guards) :
    Kept (told ++ [.dropped guard]) (set.drop guard) (guards.erase guard) := by
  have hinserted : insertedIn (told ++ [.dropped guard]) = insertedIn told :=
    (insertedIn_concat ..).trans (List.append_nil _)
  have hdropped : droppedIn (told ++ [.dropped guard]) = droppedIn told ++ [guard] :=
    droppedIn_concat ..
  exact {
    entries := by
      rw [liveIn_dropped, TokenSet.drop, h.entries, List.filter_map]
      refine congrArg (List.map listing) (List.filter_congr fun entry _ => ?_)
      obtain ⟨⟨id⟩, token⟩ := entry
      obtain ⟨other⟩ := guard
      rw [Bool.eq_iff_iff, Function.comp_apply, listing, bne_iff_ne, decide_eq_true_iff, ne_eq,
        ne_eq, TokenGuard.mk.injEq]
    next := hinserted ▸ h.next
    numbers := hinserted ▸ h.numbers
    held := by
      intro other
      rw [hinserted, hdropped, h.nodup.mem_erase_iff, h.held, List.mem_append,
        List.mem_singleton, not_or]
      exact and_rotate
    nodup := h.nodup.erase guard
    dropped := by
      rw [hinserted, hdropped]
      intro other hother
      rcases List.mem_append.mp hother with hmem | hmem
      · exact h.dropped hmem
      · rw [List.mem_singleton.mp hmem]
        exact ((h.held guard).mp hguard).1 }

theorem Kept.broadcast (h : Kept told set guards) :
    Kept (told ++ [.broadcast]) { set with entries := [] } guards := by
  refine h.quiet rfl rfl ?_ rfl
  rw [liveIn_broadcast rfl, List.map_nil]

end Kept

/-- Every act keeps the invariant of the set. -/
theorem Kept.act {told : List TokenEvent} {custody : Custody}
    (h : Kept told custody.set custody.guards) (act : Act) :
    Kept (told ++ (custody.act act).1) (custody.act act).2.set (custody.act act).2.guards := by
  have hnothing : Kept (told ++ []) custody.set custody.guards := (List.append_nil told).symm ▸ h
  cases act with
  | root => exact h.aside rfl rfl rfl
  | child handle =>
    simp only [Custody.act]
    cases custody.handles[handle]? with
    | some parent => exact h.aside rfl rfl rfl
    | none => exact hnothing
  | clone handle =>
    simp only [Custody.act]
    cases custody.handles[handle]? <;> exact hnothing
  | forget handle => exact hnothing
  | cancel handle =>
    simp only [Custody.act]
    cases custody.handles[handle]? with
    | some token => exact h.aside rfl rfl rfl
    | none => exact hnothing
  | insert handle =>
    simp only [Custody.act]
    cases custody.handles[handle]? with
    | some token => exact h.insert token
    | none => exact hnothing
  | drop index =>
    simp only [Custody.act]
    cases hguard : custody.guards[index]? with
    | some guard => exact h.drop (List.mem_of_getElem? hguard)
    | none => exact hnothing
  | replace index handle =>
    simp only [Custody.act]
    cases hguard : custody.guards[index]? with
    | none => exact hnothing
    | some old =>
      cases custody.handles[handle]? with
      | none => exact hnothing
      | some token =>
        have hold : old ∈ custody.guards := List.mem_of_getElem? hguard
        have hboth := (h.insert token).drop (List.mem_append_left _ hold)
        rwa [List.append_assoc, List.erase_append_left _ hold] at hboth
  | cancelAll => exact h.broadcast

end Custody

end TestRig
