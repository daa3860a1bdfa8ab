import TestRig.Proofs.Registry.Routes
import Mathlib.Data.List.Dedup
import Mathlib.Tactic.SplitIfs

/-!
# What a registry remembers

A registry is built by registrations, one after the other.  What it finds
for a command can be read off their list, without the tables: the last
executor for exactly the tag, or else the first one for a fragment of it;
or the last executor for the number.

* `Registration` is one registration, and `Registry.ofHistory` the registry
  that a list of them builds.
* `exactsFor`, `patternsFor` and `ordersFor` are the executors that were
  registered for a tag or for a number, in order.  `forTag?_enter`,
  `forPattern?_enter` and `forOrder?_enter` say what one registration does
  to a search, and the three `_ofHistory` lemmas what a list does.
* `Answers` is the answer to a command in terms of the list, one case after
  the other; `resolve_eq_iff` says that it is the one that is given.
* `tablesOf` are the tables that matter for a kind of command: registrations
  in other tables, and the order between tables, do not change an answer.
* `resolve_follows_history` is all of this, with the number of routes.
-/

namespace TestRig

open Json (Value)

/-- One registration of an executor. -/
inductive Registration where
  /-- For exactly a tag. -/
  | exact (kind : CommandKind) (tag : String) (executor : Executor)
  /-- For all tags in which a fragment occurs. -/
  | pattern (kind : CommandKind) (fragment : String) (executor : Executor)
  /-- For a number. -/
  | order (number : Int64) (executor : Executor)

/-- Where executors are registered. -/
inductive Table where
  | exact (kind : CommandKind)
  | pattern (kind : CommandKind)
  | order
  deriving DecidableEq

/-- The tables that hold the executors for a kind of command. -/
def tablesOf : CommandKind → List Table
  | .singleTest => [.exact .singleTest, .pattern .singleTest]
  | .combinedTest => [.exact .combinedTest, .pattern .combinedTest]
  | .execOrder => [.order]
  | _ => []

namespace Registration

/-- The table of a registration. -/
def table : Registration → Table
  | exact kind _ _ => .exact kind
  | pattern kind _ _ => .pattern kind
  | order _ _ => .order

/-- The kind and the tag of an exact registration. -/
def pair? : Registration → Option (CommandKind × String)
  | exact kind tag _ => some (kind, tag)
  | _ => none

/-- The fragment of a pattern. -/
def fragment? : Registration → Option String
  | pattern _ fragment _ => some fragment
  | _ => none

/-- The number of an ordered test. -/
def number? : Registration → Option Int64
  | order number _ => some number
  | _ => none

/-- The executor, if it is registered for exactly this tag. -/
def exactFor? (kind : CommandKind) (tag : String) : Registration → Option Executor
  | exact other name executor => if (other, name) = (kind, tag) then some executor else none
  | _ => none

/-- The executor, if it is registered for a fragment of this tag. -/
def patternFor? (kind : CommandKind) (tag : String) : Registration → Option Executor
  | pattern other fragment executor =>
    if other = kind ∧ fragment.toList <:+: tag.toList then some executor else none
  | _ => none

/-- The executor, if it is registered for this number. -/
def orderFor? (number : Int64) : Registration → Option Executor
  | order other executor => if other = number then some executor else none
  | _ => none

/-- The executors registered for exactly a tag, in order. -/
def exactsFor (kind : CommandKind) (tag : String) (history : List Registration) : List Executor :=
  history.filterMap (exactFor? kind tag)

/-- The executors registered for fragments of a tag, in order. -/
def patternsFor (kind : CommandKind) (tag : String) (history : List Registration) :
    List Executor :=
  history.filterMap (patternFor? kind tag)

/-- The executors registered for a number, in order. -/
def ordersFor (number : Int64) (history : List Registration) : List Executor :=
  history.filterMap (orderFor? number)

theorem exactFor?_of_table {kind : CommandKind} {tag : String} {registration : Registration}
    (h : registration.table ≠ .exact kind) : registration.exactFor? kind tag = none := by
  cases registration with
  | exact other name executor =>
    refine if_neg ?_
    rintro ⟨⟩
    exact h rfl
  | pattern | order => rfl

theorem patternFor?_of_table {kind : CommandKind} {tag : String} {registration : Registration}
    (h : registration.table ≠ .pattern kind) : registration.patternFor? kind tag = none := by
  cases registration with
  | pattern other fragment executor =>
    refine if_neg ?_
    rintro ⟨rfl, _⟩
    exact h rfl
  | exact | order => rfl

theorem orderFor?_of_table {number : Int64} {registration : Registration}
    (h : registration.table ≠ .order) : registration.orderFor? number = none := by
  cases registration with
  | order => exact absurd rfl h
  | exact | pattern => rfl

/-- What is registered in one table can be read off that table. -/
theorem filterMap_filter_table {lookup? : Registration → Option Executor} {table : Table}
    (h : ∀ registration, registration.table ≠ table → lookup? registration = none)
    (history : List Registration) :
    (history.filter fun registration => registration.table = table).filterMap lookup? =
      history.filterMap lookup? := by
  rw [List.filterMap_filter]
  refine List.filterMap_congr fun registration _ => ?_
  split_ifs with htable
  · rfl
  · exact (h registration (mt decide_eq_true htable)).symm

end Registration

/-! ## Lists of pairs, and what was put last -/

section Lists

variable {κ ν : Type} [DecidableEq κ]

theorem getLast?_filterMap_concat {α : Type} (f : α → Option ν) (front : List α) (last : α) :
    ((front ++ [last]).filterMap f).getLast? = (f last).or (front.filterMap f).getLast? := by
  rw [List.filterMap_append, List.getLast?_append, List.filterMap_cons]
  cases f last <;> rfl

theorem head?_filterMap_concat {α : Type} (f : α → Option ν) (front : List α) (last : α) :
    ((front ++ [last]).filterMap f).head? = (front.filterMap f).head?.or (f last) := by
  rw [List.filterMap_append, List.head?_append, List.filterMap_cons]
  cases f last <;> rfl

/-- The value that was put last is found under its key. -/
theorem find?_putPair (key : κ) (value : ν) (pairs : List (κ × ν)) (sought : κ) :
    ((putPair key value pairs).find? fun (other, _) => other = sought).map (·.2) =
      if key = sought then some value
      else (pairs.find? fun (other, _) => other = sought).map (·.2) := by
  induction pairs with
  | nil => by_cases hkey : key = sought <;> simp [putPair, hkey]
  | cons pair rest ih =>
    obtain ⟨other, held⟩ := pair
    rw [putPair]
    by_cases hother : other = key
    · subst hother
      by_cases hkey : other = sought <;> simp [hkey]
    · rw [if_neg hother]
      by_cases hsought : other = sought
      · have hkey : key ≠ sought := fun h => hother (hsought.trans h.symm)
        simp [hsought, hkey]
      · simpa [hsought] using ih

/-- A key that is new is put at the end. -/
theorem keys_putPair (key : κ) (value : ν) (pairs : List (κ × ν)) :
    (putPair key value pairs).map Prod.fst =
      if key ∈ pairs.map Prod.fst then pairs.map Prod.fst else pairs.map Prod.fst ++ [key] := by
  induction pairs with
  | nil => rfl
  | cons pair rest ih =>
    obtain ⟨other, held⟩ := pair
    rw [putPair]
    by_cases hother : other = key
    · simp [hother]
    · rw [if_neg hother, List.map_cons, ih]
      simp only [List.map_cons, List.mem_cons, Ne.symm hother, false_or]
      split_ifs <;> rfl

theorem length_dedup_concat (keys : List κ) (key : κ) :
    (keys ++ [key]).dedup.length =
      if key ∈ keys then keys.dedup.length else keys.dedup.length + 1 := by
  have hperm : (keys ++ [key]).dedup.Perm (key :: keys).dedup :=
    (List.perm_append_singleton key keys).dedup
  rw [hperm.length_eq]
  split_ifs with hmem
  · rw [List.dedup_cons_of_mem hmem]
  · rw [List.dedup_cons_of_notMem hmem, List.length_cons]

/-- The keys of a list behind one more registration, which puts a value
under a key or leaves the list alone. -/
def keysWith (keys : List κ) : Option κ → List κ
  | some key => if key ∈ keys then keys else keys ++ [key]
  | none => keys

/-- A list that grows with a history has one pair for each of the keys that
were put. -/
theorem length_of_keysWith (key? : Registration → Option κ)
    (pairs : List Registration → List (κ × ν)) (hnil : pairs [] = [])
    (hconcat : ∀ history registration, (pairs (history ++ [registration])).map Prod.fst =
      keysWith ((pairs history).map Prod.fst) (key? registration))
    (history : List Registration) :
    (pairs history).length = (history.filterMap key?).dedup.length := by
  have hkeys : (∀ key, key ∈ (pairs history).map Prod.fst ↔ key ∈ history.filterMap key?) ∧
      ((pairs history).map Prod.fst).length = (history.filterMap key?).dedup.length := by
    induction history using List.reverseRecOn with
    | nil =>
      rw [hnil]
      exact ⟨fun _ => Iff.rfl, rfl⟩
    | append_singleton history registration ih =>
      obtain ⟨hmem, hlength⟩ := ih
      rw [hconcat, List.filterMap_append, List.filterMap_cons]
      cases hkey : key? registration with
      | none =>
        rw [keysWith, List.filterMap_nil, List.append_nil]
        exact ⟨hmem, hlength⟩
      | some key =>
        rw [keysWith, List.filterMap_nil, length_dedup_concat]
        simp only [← hmem, ← hlength]
        split_ifs with hold
        · refine ⟨fun other => ?_, rfl⟩
          rw [List.mem_append, ← hmem, List.mem_singleton]
          exact ⟨.inl, fun h => h.elim id fun heq => heq ▸ hold⟩
        · refine ⟨fun other => ?_, List.length_append⟩
          rw [List.mem_append, List.mem_append, ← hmem]
  rw [← hkeys.2, List.length_map]

end Lists

namespace Registry

open Registration (exactFor? patternFor? orderFor? exactsFor patternsFor ordersFor)

/-! ## Registrations one after the other -/

/-- The registry behind one more registration. -/
def enter (registry : Registry) : Registration → Registry
  | .exact kind tag executor => registry.register kind tag executor
  | .pattern kind fragment executor => registry.registerPattern kind fragment executor
  | .order number executor => registry.registerOrder number executor

/-- The registry that a list of registrations builds. -/
def ofHistory (history : List Registration) : Registry :=
  history.foldl enter {}

theorem ofHistory_concat (history : List Registration) (registration : Registration) :
    ofHistory (history ++ [registration]) = (ofHistory history).enter registration := by
  rw [ofHistory, List.foldl_append]
  rfl

theorem forTag?_enter (registry : Registry) (registration : Registration) (kind : CommandKind)
    (tag : String) :
    (registry.enter registration).forTag? kind tag =
      (registration.exactFor? kind tag).or (registry.forTag? kind tag) := by
  cases registration with
  | exact other name executor =>
    refine (find?_putPair (other, name) executor registry.exact (kind, tag)).trans ?_
    rw [exactFor?]
    split_ifs <;> rfl
  | pattern | order => rfl

theorem forPattern?_enter (registry : Registry) (registration : Registration)
    (kind : CommandKind) (tag : String) :
    (registry.enter registration).forPattern? kind tag =
      (registry.forPattern? kind tag).or (registration.patternFor? kind tag) := by
  cases registration with
  | pattern other fragment executor =>
    have hoccurs : (decide (other = kind) && occursIn fragment.toList tag.toList) =
        decide (other = kind ∧ fragment.toList <:+: tag.toList) := by
      rw [Bool.decide_and, ← Bool.decide_coe (occursIn ..)]
      simp only [occursIn_iff]
    simp only [enter, registerPattern, forPattern?, List.find?_append, Option.map_or, patternFor?]
    congr 1
    simp only [List.find?_cons, hoccurs, List.find?_nil]
    split_ifs with h <;> simp [h]
  | exact | order => exact Option.or_none.symm

theorem forOrder?_enter (registry : Registry) (registration : Registration) (number : Int64) :
    (registry.enter registration).forOrder? number =
      (registration.orderFor? number).or (registry.forOrder? number) := by
  cases registration with
  | order other executor =>
    refine (find?_putPair other executor registry.orders number).trans ?_
    rw [orderFor?]
    split_ifs <;> rfl
  | exact | pattern => rfl

/-- The last executor for exactly a tag is found. -/
theorem forTag?_ofHistory (history : List Registration) (kind : CommandKind) (tag : String) :
    (ofHistory history).forTag? kind tag = (exactsFor kind tag history).getLast? := by
  induction history using List.reverseRecOn with
  | nil => rfl
  | append_singleton history registration ih =>
    rw [ofHistory_concat, forTag?_enter, ih]
    exact (getLast?_filterMap_concat ..).symm

/-- The first executor for a fragment of a tag is found. -/
theorem forPattern?_ofHistory (history : List Registration) (kind : CommandKind) (tag : String) :
    (ofHistory history).forPattern? kind tag = (patternsFor kind tag history).head? := by
  induction history using List.reverseRecOn with
  | nil => rfl
  | append_singleton history registration ih =>
    rw [ofHistory_concat, forPattern?_enter, ih]
    exact (head?_filterMap_concat ..).symm

/-- The last executor for a number is found. -/
theorem forOrder?_ofHistory (history : List Registration) (number : Int64) :
    (ofHistory history).forOrder? number = (ordersFor number history).getLast? := by
  induction history using List.reverseRecOn with
  | nil => rfl
  | append_singleton history registration ih =>
    rw [ofHistory_concat, forOrder?_enter, ih]
    exact (getLast?_filterMap_concat ..).symm

/-! ## The number of routes -/

/-- There is a route for each tag of a kind, one for each pattern, and one
for each number. -/
theorem size_ofHistory (history : List Registration) :
    (ofHistory history).size = (history.filterMap Registration.pair?).dedup.length +
      (history.filterMap Registration.fragment?).length +
      (history.filterMap Registration.number?).dedup.length := by
  have hpatterns : (ofHistory history).patterns.length =
      (history.filterMap Registration.fragment?).length := by
    induction history using List.reverseRecOn with
    | nil => rfl
    | append_singleton history registration ih =>
      rw [ofHistory_concat, List.filterMap_append, List.length_append, ← ih]
      cases registration with
      | pattern kind fragment executor => exact List.length_append
      | exact | order => rfl
  have hexact := length_of_keysWith Registration.pair? (fun history => (ofHistory history).exact)
    rfl (by
      intro history registration
      rw [ofHistory_concat]
      cases registration with
      | exact kind tag executor => exact keys_putPair _ _ _
      | pattern | order => rfl) history
  have horders := length_of_keysWith Registration.number? (fun history => (ofHistory history).orders)
    rfl (by
      intro history registration
      rw [ofHistory_concat]
      cases registration with
      | order number executor => exact keys_putPair _ _ _
      | exact | pattern => rfl) history
  rw [size, hexact, horders, hpatterns]

/-! ## Answers -/

/-- The answer to a command, in terms of the registrations so far. -/
inductive Answers (history : List Registration) (command : Command) :
    Except Failure Executor → Prop where
  /-- A test with a tag goes to the last executor for exactly the tag. -/
  | exact (kind : CommandKind) (tag : String) (executor : Executor)
      (hkind : command.kind = some kind) (htagged : kind = .singleTest ∨ kind = .combinedTest)
      (hnamed : command.payload.member? "type" = some (.string tag))
      (hlast : (exactsFor kind tag history).getLast? = some executor) :
      Answers history command (.ok executor)
  /-- Without one, it goes to the first executor for a fragment of the tag. -/
  | pattern (kind : CommandKind) (tag : String) (executor : Executor)
      (hkind : command.kind = some kind) (htagged : kind = .singleTest ∨ kind = .combinedTest)
      (hnamed : command.payload.member? "type" = some (.string tag))
      (hnone : exactsFor kind tag history = [])
      (hfirst : (patternsFor kind tag history).head? = some executor) :
      Answers history command (.ok executor)
  | noTag (kind : CommandKind) (tag : String)
      (hkind : command.kind = some kind) (htagged : kind = .singleTest ∨ kind = .combinedTest)
      (hnamed : command.payload.member? "type" = some (.string tag))
      (hnone : exactsFor kind tag history = []) (hnone' : patternsFor kind tag history = []) :
      Answers history command (.error (.unknownTest tag))
  /-- The tag is missing, or not a text. -/
  | untagged (kind : CommandKind)
      (hkind : command.kind = some kind) (htagged : kind = .singleTest ∨ kind = .combinedTest)
      (hunnamed : ∀ tag, command.payload.member? "type" ≠ some (.string tag)) :
      Answers history command (.error (.unknownTest "missing data.type"))
  /-- An ordered test goes to the last executor for its number. -/
  | order (number : Int64) (executor : Executor) (hkind : command.kind = some .execOrder)
      (hnamed : command.payload.member? "order" = some (.ofInt number.toInt))
      (hlast : (ordersFor number history).getLast? = some executor) :
      Answers history command (.ok executor)
  | noOrder (number : Int64) (hkind : command.kind = some .execOrder)
      (hnamed : command.payload.member? "order" = some (.ofInt number.toInt))
      (hnone : ordersFor number history = []) :
      Answers history command (.error (.unknownTest s!"order {number.toInt}"))
  /-- The number is missing, or not an integer of 64 bits. -/
  | unnumbered (hkind : command.kind = some .execOrder)
      (hunnamed : ∀ number : Int64,
        command.payload.member? "order" ≠ some (.ofInt number.toInt)) :
      Answers history command (.error (.unknownTest "missing data.order"))
  /-- The command does not run a test. -/
  | other (kind : CommandKind) (hkind : command.kind = some kind)
      (hother : kind.isTestInvocation = false) :
      Answers history command (.error (.unknownCommand kind.code))
  /-- The command does not say what it asks for. -/
  | kindless (hkind : command.kind = none) :
      Answers history command (.error (.protocol "command has no subCommand"))

variable {history : List Registration} {command : Command} {result : Except Failure Executor}

/-- Every command has an answer. -/
theorem exists_answers (history : List Registration) (command : Command) :
    ∃ result, Answers history command result := by
  have htagged : ∀ kind, command.kind = some kind → kind = .singleTest ∨ kind = .combinedTest →
      ∃ result, Answers history command result := by
    intro kind hkind htagged
    cases hnamed : command.testTag? with
    | none =>
      refine ⟨_, .untagged kind hkind htagged fun tag htag => ?_⟩
      rw [testTag?_eq_some_iff.mpr htag] at hnamed
      cases hnamed
    | some tag =>
      have hnamed := testTag?_eq_some_iff.mp hnamed
      cases hlast : (exactsFor kind tag history).getLast? with
      | some executor => exact ⟨_, .exact kind tag executor hkind htagged hnamed hlast⟩
      | none =>
        have hnone := List.getLast?_eq_none_iff.mp hlast
        cases hfirst : (patternsFor kind tag history).head? with
        | some executor => exact ⟨_, .pattern kind tag executor hkind htagged hnamed hnone hfirst⟩
        | none =>
          exact ⟨_, .noTag kind tag hkind htagged hnamed hnone (List.head?_eq_none_iff.mp hfirst)⟩
  cases hkind : command.kind with
  | none => exact ⟨_, .kindless hkind⟩
  | some kind =>
    cases kind with
    | singleTest => exact htagged _ hkind (.inl rfl)
    | combinedTest => exact htagged _ hkind (.inr rfl)
    | execOrder =>
      cases hnamed : command.execOrder? with
      | none =>
        refine ⟨_, .unnumbered hkind fun number hnumber => ?_⟩
        rw [execOrder?_eq_some_iff.mpr hnumber] at hnamed
        cases hnamed
      | some number =>
        have hnamed := execOrder?_eq_some_iff.mp hnamed
        cases hlast : (ordersFor number history).getLast? with
        | some executor => exact ⟨_, .order number executor hkind hnamed hlast⟩
        | none =>
          exact ⟨_, .noOrder number hkind hnamed (List.getLast?_eq_none_iff.mp hlast)⟩
    | handshake | beginTest | endTest | setSystemTime | other => exact ⟨_, .other _ hkind rfl⟩

/-- A test with a tag is looked up by its tag. -/
theorem resolve_of_tagged {registry : Registry} {kind : CommandKind}
    (hkind : command.kind = some kind) (htagged : kind = .singleTest ∨ kind = .combinedTest) :
    registry.resolve command = registry.resolveTag kind command := by
  rw [resolve, hkind]
  rcases htagged with rfl | rfl <;> rfl

/-- An ordered test is looked up by its number. -/
theorem resolve_of_ordered {registry : Registry} (hkind : command.kind = some .execOrder) :
    registry.resolve command = registry.resolveOrder command := by
  rw [resolve, hkind]
  rfl

/-- The registry gives this answer. -/
theorem Answers.resolve_eq (h : Answers history command result) :
    (ofHistory history).resolve command = result := by
  cases h with
  | exact kind tag executor hkind htagged hnamed hlast =>
    rw [resolve_of_tagged hkind htagged, resolveTag, testTag?_eq_some_iff.mpr hnamed]
    simp only [forTag?_ofHistory, hlast, Option.some_or]
  | pattern kind tag executor hkind htagged hnamed hnone hfirst =>
    rw [resolve_of_tagged hkind htagged, resolveTag, testTag?_eq_some_iff.mpr hnamed]
    simp only [forTag?_ofHistory, forPattern?_ofHistory, hnone, hfirst, List.getLast?_nil,
      Option.none_or]
  | noTag kind tag hkind htagged hnamed hnone hnone' =>
    rw [resolve_of_tagged hkind htagged, resolveTag, testTag?_eq_some_iff.mpr hnamed]
    simp only [forTag?_ofHistory, forPattern?_ofHistory, hnone, hnone', List.getLast?_nil,
      List.head?_nil, Option.none_or]
  | untagged kind hkind htagged hunnamed =>
    have hnone : command.testTag? = none :=
      Option.eq_none_iff_forall_ne_some.mpr fun tag htag =>
        hunnamed tag (testTag?_eq_some_iff.mp htag)
    rw [resolve_of_tagged hkind htagged, resolveTag, hnone]
  | order number executor hkind hnamed hlast =>
    rw [resolve_of_ordered hkind, resolveOrder, execOrder?_eq_some_iff.mpr hnamed]
    simp only [forOrder?_ofHistory, hlast]
  | noOrder number hkind hnamed hnone =>
    rw [resolve_of_ordered hkind, resolveOrder, execOrder?_eq_some_iff.mpr hnamed]
    simp only [forOrder?_ofHistory, hnone, List.getLast?_nil]
  | unnumbered hkind hunnamed =>
    have hnone : command.execOrder? = none :=
      Option.eq_none_iff_forall_ne_some.mpr fun number hnumber =>
        hunnamed number (execOrder?_eq_some_iff.mp hnumber)
    rw [resolve_of_ordered hkind, resolveOrder, hnone]
  | other kind hkind hother =>
    rw [resolve, hkind]
    exact if_pos (by rw [hother]; rfl)
  | kindless hkind => rw [resolve, hkind]

theorem resolve_eq_iff :
    (ofHistory history).resolve command = result ↔ Answers history command result := by
  constructor
  · rintro rfl
    obtain ⟨result, hresult⟩ := exists_answers history command
    rwa [hresult.resolve_eq]
  · exact Answers.resolve_eq

/-! ## Tables that matter -/

/-- Two histories have the same registrations in a table, in the same
order. -/
def SameIn (table : Table) (first second : List Registration) : Prop :=
  (first.filter fun registration => registration.table = table) =
    second.filter fun registration => registration.table = table

theorem filterMap_of_sameIn {table : Table} {lookup? : Registration → Option Executor}
    (h : ∀ registration, registration.table ≠ table → lookup? registration = none)
    {first second : List Registration} (hsame : SameIn table first second) :
    first.filterMap lookup? = second.filterMap lookup? := by
  rw [← Registration.filterMap_filter_table h, hsame, Registration.filterMap_filter_table h]

theorem resolveTag_of_sameIn {kind : CommandKind} {first second : List Registration}
    (hexact : SameIn (.exact kind) first second) (hpattern : SameIn (.pattern kind) first second) :
    (ofHistory first).resolveTag kind command = (ofHistory second).resolveTag kind command := by
  have hexacts : ∀ tag, exactsFor kind tag first = exactsFor kind tag second := fun tag =>
    filterMap_of_sameIn (fun _ => Registration.exactFor?_of_table) hexact
  have hpatterns : ∀ tag, patternsFor kind tag first = patternsFor kind tag second := fun tag =>
    filterMap_of_sameIn (fun _ => Registration.patternFor?_of_table) hpattern
  simp only [resolveTag, forTag?_ofHistory, forPattern?_ofHistory, hexacts, hpatterns]

theorem resolveOrder_of_sameIn {first second : List Registration}
    (horder : SameIn .order first second) :
    (ofHistory first).resolveOrder command = (ofHistory second).resolveOrder command := by
  have horders : ∀ number, ordersFor number first = ordersFor number second := fun number =>
    filterMap_of_sameIn (fun _ => Registration.orderFor?_of_table) horder
  simp only [resolveOrder, forOrder?_ofHistory, horders]

/-- Two histories that agree on the tables for the kind of a command give it
the same answer. -/
theorem resolve_of_sameIn {first second : List Registration}
    (hsame : ∀ kind, command.kind = some kind → ∀ table ∈ tablesOf kind,
      SameIn table first second) :
    (ofHistory first).resolve command = (ofHistory second).resolve command := by
  cases hkind : command.kind with
  | none => simp only [resolve, hkind]
  | some kind =>
    have htables := hsame kind hkind
    cases kind with
    | singleTest =>
      rw [resolve_of_tagged hkind (.inl rfl), resolve_of_tagged hkind (.inl rfl)]
      exact resolveTag_of_sameIn (htables _ List.mem_cons_self)
        (htables _ (List.mem_cons_of_mem _ List.mem_cons_self))
    | combinedTest =>
      rw [resolve_of_tagged hkind (.inr rfl), resolve_of_tagged hkind (.inr rfl)]
      exact resolveTag_of_sameIn (htables _ List.mem_cons_self)
        (htables _ (List.mem_cons_of_mem _ List.mem_cons_self))
    | execOrder =>
      rw [resolve_of_ordered hkind, resolve_of_ordered hkind]
      exact resolveOrder_of_sameIn (htables _ List.mem_cons_self)
    | handshake | beginTest | endTest | setSystemTime | other =>
      simp only [resolve, hkind, CommandKind.isTestInvocation, Bool.not_false, if_true]

/-- A registry answers as the history of its registrations says.

Take any registrations in any order, and any command.  The answer is the
one that `Answers` tells, and there is no other.  It depends on nothing but
the registrations in the tables for the kind of the command, each table in
its own order: registrations for other kinds change nothing, and neither
does the order between tables.  Each tag of a kind and each number counts
as one route, however often it was registered, and so does every pattern. -/
theorem resolve_follows_history (history : List Registration) (command : Command) :
    (∀ result, (ofHistory history).resolve command = result ↔
      Answers history command result) ∧
    (∀ other : List Registration,
      (∀ kind, command.kind = some kind → ∀ table ∈ tablesOf kind, SameIn table other history) →
      (ofHistory other).resolve command = (ofHistory history).resolve command) ∧
    (ofHistory history).size = (history.filterMap Registration.pair?).dedup.length +
      (history.filterMap Registration.fragment?).length +
      (history.filterMap Registration.number?).dedup.length := by
  exact ⟨fun result => resolve_eq_iff, fun other hsame => resolve_of_sameIn hsame,
    size_ofHistory history⟩

end Registry

end TestRig
