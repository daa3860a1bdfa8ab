import TestRig.Proofs.Token.Custody
import Mathlib.Data.List.Nodup
import Mathlib.Logic.Relation

/-!
# Which tokens are cancelled

A token knows its ancestors by number.  Whether it is cancelled can also be
told from the history alone: it is, exactly if it was made, at any distance,
below a token that was cancelled itself.  Who still holds the tokens between
the two does not matter.

* `Below` is descent in a history, and `Struck` that a token was cancelled
  itself: by one who holds it, or by a broadcast that found it in the set.
* `Grown` is the invariant of the tokens; `Grown.below_iff` ties the numbers
  that a token knows to the descent in the history.
* `Account` is what follows for the set and for its guards, and
  `set_follows_guards` says that it holds behind every run.
-/

namespace TestRig.Custody

/-! ## Descent and cancellation in a history -/

/-- A token is another one itself, or it was made below it, or below one
that is. -/
def Below (told : List TokenEvent) : Token → Token → Prop :=
  Relation.ReflTransGen fun parent token => .made token (some parent) ∈ told

/-- A token is cancelled itself by what happens behind a history. -/
def Strikes (told : List TokenEvent) (event : TokenEvent) (token : Token) : Prop :=
  event = .cancelled token ∨ event = .broadcast ∧ token ∈ (liveIn told).map Prod.snd

theorem strikes_cancelled {told : List TokenEvent} {token own : Token} :
    Strikes told (.cancelled token) own ↔ own = token := by
  constructor
  · rintro (heq | ⟨hno, _⟩)
    · cases heq
      rfl
    · cases hno
  · rintro rfl
    exact .inl rfl

theorem strikes_broadcast {told : List TokenEvent} {own : Token} :
    Strikes told .broadcast own ↔ own ∈ (liveIn told).map Prod.snd := by
  constructor
  · rintro (hno | ⟨_, hlive⟩)
    · cases hno
    · exact hlive
  · exact fun hlive => .inr ⟨rfl, hlive⟩

theorem not_strikes {told : List TokenEvent} {event : TokenEvent} (h : event.cancels = false)
    (own : Token) : ¬ Strikes told event own := by
  rintro (rfl | ⟨rfl, _⟩) <;> cases h

/-- A token was cancelled itself. -/
def Struck (told : List TokenEvent) (token : Token) : Prop :=
  ∃ before event, before ++ [event] <+: told ∧ Strikes before event token

theorem struck_concat {told : List TokenEvent} {event : TokenEvent} {token : Token} :
    Struck (told ++ [event]) token ↔ Struck told token ∨ Strikes told event token := by
  constructor
  · rintro ⟨before, other, hbefore, hstrikes⟩
    rcases List.prefix_concat_iff.mp hbefore with heq | hbefore
    · obtain ⟨rfl, rfl⟩ := List.append_singleton_inj.mp heq
      exact .inr hstrikes
    · exact .inl ⟨before, other, hbefore, hstrikes⟩
  · rintro (⟨before, other, hbefore, hstrikes⟩ | hstrikes)
    · exact ⟨before, other, hbefore.trans (List.prefix_append ..), hstrikes⟩
    · exact ⟨told, event, List.prefix_refl _, hstrikes⟩

theorem liveIn_sublist (told : List TokenEvent) : (liveIn told).Sublist (insertedIn told) :=
  List.filter_sublist.trans ((List.rtakeWhile_suffix _ told).sublist.filterMap _)

/-! ## The invariant of the tokens -/

/-- The tokens handed out, and those cancelled, as a history leaves them. -/
structure Grown (told : List TokenEvent) (custody : Custody) : Prop where
  next : custody.tokens.next = (madeIn told).length
  /-- Tokens are numbered from zero on. -/
  numbers : (madeIn told).map Token.id = List.range (madeIn told).length
  root : ∀ token, .made token none ∈ told → token.ancestors = []
  child : ∀ token parent, .made token (some parent) ∈ told →
    parent ∈ madeIn told ∧ token.ancestors = parent.lineage
  handles : custody.handles ⊆ madeIn told
  inserted : ∀ entry ∈ insertedIn told, entry.2 ∈ madeIn told
  cancelled : ∀ id, id ∈ custody.tokens.cancelled ↔ ∃ own, Struck told own ∧ own.id = id
  struck : ∀ own, Struck told own → own ∈ madeIn told

section Grown

variable {told : List TokenEvent} {custody after : Custody}

theorem grown_nothing : Grown [] {} where
  next := rfl
  numbers := rfl
  root := nofun
  child := nofun
  handles := List.Subset.refl _
  inserted := nofun
  cancelled id := by
    constructor
    · nofun
    · rintro ⟨own, ⟨before, event, hbefore, _⟩, _⟩
      exact absurd (List.prefix_nil.mp hbefore) (List.append_ne_nil_of_right_ne_nil _ (by simp))
  struck own := by
    rintro ⟨before, event, hbefore, _⟩
    exact absurd (List.prefix_nil.mp hbefore) (List.append_ne_nil_of_right_ne_nil _ (by simp))

/-- A token is handed out under the next number, with the lineage of the
token that it is made below. -/
theorem Grown.make (h : Grown told custody) {token : Token} {parent : Option Token}
    (hid : token.id = custody.tokens.next)
    (hparent : ∀ other, parent = some other →
      other ∈ custody.handles ∧ token.ancestors = other.lineage)
    (hroot : parent = none → token.ancestors = [])
    (hnext : after.tokens.next = custody.tokens.next + 1)
    (hcancelled : after.tokens.cancelled = custody.tokens.cancelled)
    (hhandles : after.handles = custody.handles ++ [token]) :
    Grown (told ++ [.made token parent]) after := by
  have hmade : madeIn (told ++ [.made token parent]) = madeIn told ++ [token] :=
    madeIn_concat ..
  have hinserted : insertedIn (told ++ [.made token parent]) = insertedIn told :=
    (insertedIn_concat ..).trans (List.append_nil _)
  have hold : madeIn told ⊆ madeIn (told ++ [.made token parent]) := by
    rw [hmade]
    exact List.subset_append_left _ _
  have hstruck : ∀ own, Struck (told ++ [.made token parent]) own ↔ Struck told own := by
    intro own
    rw [struck_concat]
    exact or_iff_left (not_strikes rfl own)
  exact {
    next := by rw [hnext, hmade, List.length_append, List.length_singleton, h.next]
    numbers := by
      rw [hmade, List.map_append, h.numbers, List.length_append, List.length_singleton,
        List.range_succ, ← h.next, ← hid]
      rfl
    root := by
      intro other hother
      rcases List.mem_append.mp hother with hmem | hmem
      · exact h.root other hmem
      · cases List.mem_singleton.mp hmem
        exact hroot rfl
    child := by
      intro other above hother
      rcases List.mem_append.mp hother with hmem | hmem
      · obtain ⟨habove, hlineage⟩ := h.child other above hmem
        exact ⟨hold habove, hlineage⟩
      · cases List.mem_singleton.mp hmem
        obtain ⟨habove, hlineage⟩ := hparent above rfl
        exact ⟨hold (h.handles habove), hlineage⟩
    handles := by
      rw [hhandles, hmade]
      intro other hother
      rcases List.mem_append.mp hother with hmem | hmem
      · exact List.mem_append_left _ (h.handles hmem)
      · exact List.mem_append_right _ hmem
    inserted := fun entry hentry => hold (h.inserted entry (hinserted ▸ hentry))
    cancelled := by
      intro id
      simp only [hcancelled, h.cancelled, hstruck]
    struck := fun own hown => hold (h.struck own ((hstruck own).mp hown)) }

/-- Whatever else happens, the tokens handed out stay the same. -/
theorem Grown.aside (h : Grown told custody) {event : TokenEvent} (hmade : event.made? = none)
    (hinserted : ∀ entry, event.inserted? = some entry → entry.2 ∈ custody.handles)
    (hstrikes : ∀ own, Strikes told event own → own ∈ madeIn told)
    (hnext : after.tokens.next = custody.tokens.next) (hhandles : after.handles = custody.handles)
    (hcancelled : ∀ id, id ∈ after.tokens.cancelled ↔
      id ∈ custody.tokens.cancelled ∨ ∃ own, Strikes told event own ∧ own.id = id) :
    Grown (told ++ [event]) after := by
  have hmade' : madeIn (told ++ [event]) = madeIn told := by
    rw [madeIn_concat, hmade, Option.toList_none, List.append_nil]
  have hbirth : ∀ token parent, .made token parent ∈ told ++ [event] →
      .made token parent ∈ told := by
    intro token parent hmem
    rcases List.mem_append.mp hmem with hmem | hmem
    · exact hmem
    · rw [← List.mem_singleton.mp hmem] at hmade
      cases hmade
  exact {
    next := by rw [hnext, hmade', h.next]
    numbers := hmade' ▸ h.numbers
    root := fun token hroot => h.root token (hbirth _ _ hroot)
    child := fun token parent hchild => hmade' ▸ h.child token parent (hbirth _ _ hchild)
    handles := by
      rw [hhandles, hmade']
      exact h.handles
    inserted := by
      intro entry hentry
      rw [hmade']
      rw [insertedIn_concat, List.mem_append, Option.mem_toList] at hentry
      exact hentry.elim (h.inserted entry) fun hnew => h.handles (hinserted entry hnew)
    cancelled := by
      intro id
      rw [hcancelled, h.cancelled]
      simp only [struck_concat, or_and_right, exists_or]
    struck := by
      intro own hown
      rw [hmade']
      exact (struck_concat.mp hown).elim (h.struck own) (hstrikes own) }

/-- Callers take one more handle, or drop one. -/
theorem Grown.handle (h : Grown told custody) (hhandles : after.handles ⊆ custody.handles)
    (htokens : after.tokens = custody.tokens) : Grown (told ++ []) after := by
  rw [List.append_nil]
  exact ⟨htokens ▸ h.next, h.numbers, h.root, h.child, List.Subset.trans hhandles h.handles,
    h.inserted, htokens ▸ h.cancelled, h.struck⟩

/-- An event that cancels nothing. -/
theorem Grown.quiet (h : Grown told custody) {event : TokenEvent} (hmade : event.made? = none)
    (hinserted : ∀ entry, event.inserted? = some entry → entry.2 ∈ custody.handles)
    (hcancels : event.cancels = false) (htokens : after.tokens = custody.tokens)
    (hhandles : after.handles = custody.handles) : Grown (told ++ [event]) after := by
  refine h.aside hmade hinserted (fun own hown => absurd hown (not_strikes hcancels own))
    (congrArg Tokens.next htokens) hhandles ?_
  intro id
  rw [htokens]
  refine (or_iff_left ?_).symm
  rintro ⟨own, hown, _⟩
  exact not_strikes hcancels own hown

/-- An insertion of a token for which a caller has a handle. -/
theorem Grown.insert (h : Grown told custody) (guard : TokenGuard) {token : Token}
    (htoken : token ∈ custody.handles) (htokens : after.tokens = custody.tokens)
    (hhandles : after.handles = custody.handles) :
    Grown (told ++ [.inserted guard token]) after := by
  refine h.quiet rfl ?_ rfl htokens hhandles
  rintro _ ⟨⟩
  exact htoken

/-- A guard is dropped. -/
theorem Grown.drop (h : Grown told custody) (guard : TokenGuard)
    (htokens : after.tokens = custody.tokens) (hhandles : after.handles = custody.handles) :
    Grown (told ++ [.dropped guard]) after := by
  refine h.quiet rfl ?_ rfl htokens hhandles
  rintro _ ⟨⟩

/-- Every act keeps the invariant of the tokens. -/
theorem Grown.act (h : Grown told custody) (hkept : Kept told custody.set custody.guards)
    (act : Act) : Grown (told ++ (custody.act act).1) (custody.act act).2 := by
  have hnothing : Grown (told ++ []) custody := h.handle (List.Subset.refl _) rfl
  cases act with
  | root =>
    refine h.make rfl ?_ (fun _ => rfl) rfl rfl rfl
    rintro _ ⟨⟩
  | child handle =>
    simp only [Custody.act]
    cases hhandle : custody.handles[handle]? with
    | none => exact hnothing
    | some parent =>
      refine h.make rfl ?_ ?_ rfl rfl rfl
      · rintro _ ⟨⟩
        exact ⟨List.mem_of_getElem? hhandle, rfl⟩
      · rintro ⟨⟩
  | clone handle =>
    simp only [Custody.act]
    cases hhandle : custody.handles[handle]? with
    | none => exact hnothing
    | some token =>
      refine h.handle ?_ rfl
      intro other hother
      rcases List.mem_append.mp hother with hmem | hmem
      · exact hmem
      · rw [List.mem_singleton.mp hmem]
        exact List.mem_of_getElem? hhandle
  | forget handle => exact h.handle (List.eraseIdx_subset ..) rfl
  | cancel handle =>
    simp only [Custody.act]
    cases hhandle : custody.handles[handle]? with
    | none => exact hnothing
    | some token =>
      refine h.aside rfl ?_ ?_ rfl rfl ?_
      · rintro _ ⟨⟩
      · intro own hstrikes
        rw [strikes_cancelled.mp hstrikes]
        exact h.handles (List.mem_of_getElem? hhandle)
      · intro id
        simp only [strikes_cancelled, exists_eq_left]
        show id ∈ token.id :: custody.tokens.cancelled ↔ _
        rw [List.mem_cons, or_comm, eq_comm]
  | insert handle =>
    simp only [Custody.act]
    cases hhandle : custody.handles[handle]? with
    | none => exact hnothing
    | some token => exact h.insert _ (List.mem_of_getElem? hhandle) rfl rfl
  | drop index =>
    simp only [Custody.act]
    cases custody.guards[index]? with
    | none => exact hnothing
    | some guard => exact h.drop guard rfl rfl
  | replace index handle =>
    simp only [Custody.act]
    cases custody.guards[index]? with
    | none => exact hnothing
    | some old =>
      cases hhandle : custody.handles[handle]? with
      | none => exact hnothing
      | some token =>
        have hinserted : Grown (told ++ [.inserted ⟨custody.set.next⟩ token]) custody :=
          h.insert _ (List.mem_of_getElem? hhandle) rfl rfl
        show Grown (told ++ ([.inserted _ token] ++ [.dropped old])) _
        rw [← List.append_assoc]
        exact hinserted.drop old rfl rfl
  | cancelAll =>
    refine h.aside rfl ?_ ?_ (TokenSet.next_cancelAll ..) rfl ?_
    · rintro _ ⟨⟩
    · intro own hstrikes
      obtain ⟨entry, hentry, rfl⟩ := List.mem_map.mp (strikes_broadcast.mp hstrikes)
      exact h.inserted entry ((liveIn_sublist told).subset hentry)
    · intro id
      simp only [strikes_broadcast]
      refine TokenSet.mem_cancelled_cancelAll.trans (or_congr_right ?_)
      rw [hkept.entries]
      simp only [List.mem_map, exists_exists_and_eq_and]
      rfl

/-! ## What a token knows of its ancestors -/

/-- A token is known by its number. -/
theorem Grown.eq_of_id (h : Grown told custody) {first second : Token}
    (hfirst : first ∈ madeIn told) (hsecond : second ∈ madeIn told)
    (hid : first.id = second.id) : first = second := by
  have hnodup : ((madeIn told).map Token.id).Nodup := h.numbers ▸ List.nodup_range
  exact List.inj_on_of_nodup_map hnodup hfirst hsecond hid

/-- The ancestors of a token are the tokens that it was made below. -/
theorem Grown.below_iff (h : Grown told custody) {own token : Token} (hown : own ∈ madeIn told)
    (htoken : token ∈ madeIn told) : Below told own token ↔ own.id ∈ token.lineage := by
  constructor
  · intro hbelow
    induction hbelow with
    | refl => exact List.mem_cons_self
    | tail _ hmade ih =>
      rename_i parent token _
      obtain ⟨hparent, hlineage⟩ := h.child token parent hmade
      exact List.mem_cons_of_mem _ (hlineage ▸ ih hparent)
  · generalize hlength : token.ancestors.length = length
    -- the parent of a token has one ancestor less
    induction length using Nat.strongRecOn generalizing token with
    | ind length ih =>
      intro hid
      rcases List.mem_cons.mp hid with hsame | habove
      · rw [h.eq_of_id hown htoken hsame]
        exact .refl
      · obtain ⟨event, hevent, hmade⟩ := List.mem_filterMap.mp htoken
        cases event with
        | made other parent =>
          cases hmade
          cases parent with
          | none =>
            rw [h.root token hevent] at habove
            cases habove
          | some parent =>
            obtain ⟨hparent, hlineage⟩ := h.child token parent hevent
            rw [hlineage] at habove hlength
            exact (ih _ (by rw [← hlength]; exact Nat.lt_succ_self _) hparent rfl habove).tail
              hevent
        | cancelled | inserted | dropped | broadcast => cases hmade

/-- A token is cancelled exactly if it was made below one that was cancelled
itself. -/
theorem Grown.isCancelled_iff (h : Grown told custody) {token : Token}
    (htoken : token ∈ madeIn told) :
    custody.tokens.isCancelled token = true ↔ ∃ own, Struck told own ∧ Below told own token := by
  rw [Tokens.isCancelled_iff]
  constructor
  · rintro ⟨id, hid, hmem⟩
    obtain ⟨own, hstruck, rfl⟩ := (h.cancelled id).mp hmem
    exact ⟨own, hstruck, (h.below_iff (h.struck own hstruck) htoken).mpr hid⟩
  · rintro ⟨own, hstruck, hbelow⟩
    exact ⟨own.id, (h.below_iff (h.struck own hstruck) htoken).mp hbelow,
      (h.cancelled own.id).mpr ⟨own, hstruck, rfl⟩⟩

/-- A broadcast cancels the live tokens, what is below them, and no other
token. -/
theorem Grown.isCancelled_cancelAll (h : Grown told custody)
    (hkept : Kept told custody.set custody.guards) {token : Token} (htoken : token ∈ madeIn told) :
    (custody.set.cancelAll custody.tokens).2.2.isCancelled token = true ↔
      custody.tokens.isCancelled token = true ∨ ∃ entry ∈ liveIn told, Below told entry.2 token := by
  simp only [Tokens.isCancelled_iff, TokenSet.mem_cancelled_cancelAll, and_or_left, exists_or]
  refine or_congr_right ?_
  rw [hkept.entries]
  constructor
  · rintro ⟨_, hid, entry, hentry, rfl⟩
    obtain ⟨own, hown, rfl⟩ := List.mem_map.mp hentry
    exact ⟨own, hown,
      (h.below_iff (h.inserted own ((liveIn_sublist told).subset hown)) htoken).mpr hid⟩
  · rintro ⟨own, hown, hbelow⟩
    have hmade := h.inserted own ((liveIn_sublist told).subset hown)
    exact ⟨own.2.id, (h.below_iff hmade htoken).mp hbelow, listing own, List.mem_map_of_mem hown,
      rfl⟩

end Grown

/-! ## Dropped guards -/

section Guards

variable {told : List TokenEvent} {set : TokenSet} {guards : List TokenGuard}

theorem entries_drop (h : Kept told set guards) (guard : TokenGuard) :
    (set.drop guard).entries =
      ((liveIn told).filter fun entry => entry.1.id != guard.id).map listing := by
  rw [TokenSet.drop, h.entries, List.filter_map]
  rfl

/-- The guard of a live token takes out the entry of this token, and leaves
the others. -/
theorem Kept.drop_live (h : Kept told set guards) {first second : List (TokenGuard × Token)}
    {guard : TokenGuard} {token : Token} (hlive : liveIn told = first ++ (guard, token) :: second) :
    (set.drop guard).entries = (first ++ second).map listing := by
  have hnodup : ((liveIn told).map (·.1.id)).Nodup :=
    (h.numbers ▸ List.nodup_range).sublist ((liveIn_sublist told).map _)
  rw [hlive, List.map_append, List.map_cons, List.nodup_middle, List.nodup_cons,
    ← List.map_append] at hnodup
  have hothers : ((first ++ second).filter fun entry => entry.1.id != guard.id) =
      first ++ second := by
    rw [List.filter_eq_self]
    intro entry hentry
    rw [bne_iff_ne]
    exact fun heq => hnodup.1 (heq ▸ List.mem_map_of_mem (f := (·.1.id)) hentry)
  rw [entries_drop h, hlive, List.filter_append, List.filter_cons_of_neg (by simp),
    ← List.filter_append, hothers]

/-- A guard whose token is not live takes out nothing. -/
theorem Kept.drop_stale (h : Kept told set guards) {guard : TokenGuard}
    (hstale : ∀ token, (guard, token) ∉ liveIn told) : set.drop guard = set := by
  refine TokenSet.drop_eq_self fun entry hentry heq => ?_
  rw [h.entries] at hentry
  obtain ⟨⟨⟨id⟩, token⟩, hlive, rfl⟩ := List.mem_map.mp hentry
  obtain ⟨other⟩ := guard
  obtain rfl : id = other := heq
  exact hstale token hlive

/-- A guard that a new one takes the place of leaves the new entry. -/
theorem Kept.drop_insert (h : Kept told set guards) {old : TokenGuard} (hold : old ∈ guards)
    (token : Token) :
    ((set.insert token).2.drop old).entries =
      (set.drop old).entries ++ [(set.next, token)] := by
  have hlt := h.id_lt ((h.held old).mp hold).1
  rw [TokenSet.drop, TokenSet.insert, List.filter_append, List.filter_cons_of_pos
    (by rw [bne_iff_ne]; exact Nat.ne_of_gt hlt)]
  rfl

end Guards

/-! ## The account -/

/-- What holds of the set, its guards and the tokens behind a history. -/
structure Account (told : List TokenEvent) (custody : Custody) : Prop where
  /-- The set holds the live tokens, each as often as it was put in. -/
  entries : custody.set.entries = (liveIn told).map listing
  size : custody.set.size = (liveIn told).length
  /-- The guards in hand are those that were given out and not dropped. -/
  held : ∀ guard, guard ∈ custody.guards ↔
    guard ∈ (insertedIn told).map Prod.fst ∧ guard ∉ droppedIn told
  /-- Guards are numbered from zero on.  The numbers of fewer than `2 ^ 64`
  guards have 64 bits. -/
  numbers : (insertedIn told).map (·.1.id) = List.range (insertedIn told).length
  /-- Dropping the guard of a live token takes out its entry, once, and no
  other one. -/
  dropLive : ∀ first guard token second, liveIn told = first ++ (guard, token) :: second →
    (custody.set.drop guard).entries = (first ++ second).map listing
  /-- Dropping any other guard, such as one from before the last broadcast,
  takes out nothing. -/
  dropStale : ∀ guard, (∀ token, (guard, token) ∉ liveIn told) →
    custody.set.drop guard = custody.set
  /-- A guard that a new one takes the place of leaves the new entry. -/
  replace : ∀ old ∈ custody.guards, ∀ token,
    ((custody.set.insert token).2.drop old).entries =
      (custody.set.drop old).entries ++ [(custody.set.next, token)]
  /-- A broadcast tells the number of entries, and leaves none. -/
  cancelAll : (custody.set.cancelAll custody.tokens).1 = custody.set.size ∧
    (custody.set.cancelAll custody.tokens).2.1.entries = []
  /-- It cancels the live tokens and all that was made below them, also
  below tokens that nobody holds any more, and no others. -/
  cancels : ∀ token ∈ madeIn told,
    ((custody.set.cancelAll custody.tokens).2.2.isCancelled token = true ↔
      custody.tokens.isCancelled token = true ∨
        ∃ entry ∈ liveIn told, Below told entry.2 token)
  /-- At any time, a token is cancelled exactly if it was made below one
  that was cancelled itself. -/
  cancelled : ∀ token ∈ madeIn told,
    (custody.tokens.isCancelled token = true ↔ ∃ own, Struck told own ∧ Below told own token)
  /-- Whatever comes later, a cancelled token stays cancelled. -/
  stays : ∀ acts token, custody.tokens.isCancelled token = true →
    (custody.run acts).2.tokens.isCancelled token = true

/-- The two invariants hold behind every run. -/
theorem invariants_run {told : List TokenEvent} {custody : Custody}
    (hkept : Kept told custody.set custody.guards) (hgrown : Grown told custody)
    (acts : List Act) :
    Kept (told ++ (custody.run acts).1) (custody.run acts).2.set (custody.run acts).2.guards ∧
      Grown (told ++ (custody.run acts).1) (custody.run acts).2 :=
  @run_preserves (fun told after => Kept told after.set after.guards ∧ Grown told after)
    (fun _ _ act ⟨hkept, hgrown⟩ => ⟨hkept.act act, hgrown.act hkept act⟩) told custody
    ⟨hkept, hgrown⟩ acts

/-- Tokens are only ever added to the cancelled ones. -/
theorem Grown.stays {told : List TokenEvent} {custody : Custody} (hgrown : Grown told custody)
    (hkept : Kept told custody.set custody.guards) (acts : List Act) {token : Token}
    (h : custody.tokens.isCancelled token = true) :
    (custody.run acts).2.tokens.isCancelled token = true := by
  have hlater := (invariants_run hkept hgrown acts).2
  refine Tokens.isCancelled_mono (fun id hid => ?_) h
  obtain ⟨own, ⟨before, event, hbefore, hstrikes⟩, rfl⟩ := (hgrown.cancelled id).mp hid
  exact (hlater.cancelled _).mpr
    ⟨own, ⟨before, event, hbefore.trans (List.prefix_append ..), hstrikes⟩, rfl⟩

theorem kept_nothing : Kept [] {} [] where
  entries := rfl
  next := rfl
  numbers := rfl
  held _ := ⟨nofun, fun h => absurd h.1 List.not_mem_nil⟩
  nodup := .nil
  dropped := List.Subset.refl _

/-- The set follows its guards behind every run.

Take any acts in any order: tokens are made, at the root or below others,
handles are copied and dropped, tokens are cancelled and put into the set,
guards are dropped or give their place to new ones, and the tokens of the
set are cancelled together. -/
theorem set_follows_guards (acts : List Act) :
    let reached := ({} : Custody).run acts
    Account reached.1 reached.2 := by
  intro reached
  obtain ⟨hkept, hgrown⟩ := invariants_run kept_nothing grown_nothing acts
  exact {
    entries := hkept.entries
    size := by
      rw [TokenSet.size, hkept.entries, List.length_map]
      rfl
    held := hkept.held
    numbers := hkept.numbers
    dropLive := fun first guard token second hlive => hkept.drop_live hlive
    dropStale := fun guard hstale => hkept.drop_stale hstale
    replace := fun old hold token => hkept.drop_insert hold token
    cancelAll := ⟨rfl, rfl⟩
    cancels := fun token htoken => hgrown.isCancelled_cancelAll hkept htoken
    cancelled := fun token htoken => hgrown.isCancelled_iff htoken
    stays := fun acts token h => hgrown.stays hkept acts h }

/-- A token is put in twice, and the handle between it and its descendant is
dropped.  The broadcast counts both entries and reaches the descendant; the
guards from before leave the entry that is put in afterwards. -/
example :
    let reached := ({} : Custody).run [.root, .child 0, .child 1, .forget 1, .insert 0, .insert 0,
      .cancelAll, .root, .insert 2, .drop 0, .drop 0]
    reached.2.set.entries = [(2, ⟨3, []⟩)] ∧
      reached.2.tokens.isCancelled ⟨2, [1, 0]⟩ = true ∧
      reached.2.tokens.isCancelled ⟨3, []⟩ = false := by
  decide

end TestRig.Custody
