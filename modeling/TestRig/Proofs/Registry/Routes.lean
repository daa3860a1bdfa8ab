import TestRig.Registry
import Mathlib.Data.List.Infix

/-!
# Routes of test commands

Which test commands have an executor, said without the search that finds
it: the payload names a tag, as a text, and there is an executor for
exactly this tag or for a fragment of it; or it names a number, as an
integer of 64 bits with sign, and there is an executor for the number.

`Registry.resolve_isOk_iff` says that the search finds an executor exactly
for the commands that have one.
-/

namespace TestRig

open Json (Value)

/-! ## What the search reads -/

theorem occursIn_iff {fragment text : List Char} :
    occursIn fragment text = true ↔ fragment <:+: text := by
  induction text with
  | nil => rw [occursIn, List.isEmpty_iff, List.infix_nil]
  | cons c rest ih =>
    rw [occursIn, Bool.or_eq_true, List.isPrefixOf_iff_prefix, ih, List.infix_cons_iff]

theorem Json.Value.string?_eq_some_iff {value : Value} {text : String} :
    value.string? = some text ↔ value = .string text := by
  cases value <;> simp [string?]

/-- An integer of 64 bits with sign; a greater one is none, and neither is a
number with a point or a power. -/
theorem Json.Value.int64?_eq_some_iff {value : Value} {n : Int64} :
    value.int64? = some n ↔ value = .ofInt n.toInt := by
  cases value with
  | number number =>
    cases number with
    | integer value =>
      have hlast : Int64.maxValue.toInt = 2 ^ 63 - 1 := rfl
      rw [int64?, ofInt]
      constructor
      · intro h
        split at h
        · rename_i hfits
          cases h
          rw [Int64.toInt_ofInt_of_le hfits.1 (by omega)]
        · cases h
      · intro h
        cases h
        rw [if_pos ⟨n.minValue_le_toInt, n.toInt_le⟩, Int64.ofInt_toInt]
    | float value => simp [int64?, ofInt]
  | _ => simp [int64?, ofInt]

namespace Registry

/-- There is an executor for exactly this tag, or for a fragment of it. -/
def HasTag (registry : Registry) (kind : CommandKind) (tag : String) : Prop :=
  (∃ executor, ((kind, tag), executor) ∈ registry.exact) ∨
    ∃ fragment executor, ((kind, fragment), executor) ∈ registry.patterns ∧
      fragment.toList <:+: tag.toList

/-- There is an executor for this number. -/
def HasOrder (registry : Registry) (number : Int64) : Prop :=
  ∃ executor, (number, executor) ∈ registry.orders

/-- The payload of a command of a kind names a test that there is an
executor for. -/
inductive Routes (registry : Registry) (payload : Value) : CommandKind → Prop where
  | single (tag : String) (hnamed : payload.member? "type" = some (.string tag))
      (hroute : registry.HasTag .singleTest tag) : Routes registry payload .singleTest
  | combined (tag : String) (hnamed : payload.member? "type" = some (.string tag))
      (hroute : registry.HasTag .combinedTest tag) : Routes registry payload .combinedTest
  | order (number : Int64) (hnamed : payload.member? "order" = some (.ofInt number.toInt))
      (hroute : registry.HasOrder number) : Routes registry payload .execOrder

variable {registry : Registry} {command : Command} {kind : CommandKind}

/-! ## What the search finds -/

theorem forTag?_isSome_iff {tag : String} :
    (registry.forTag? kind tag).isSome = true ↔
      ∃ executor, ((kind, tag), executor) ∈ registry.exact := by
  rw [forTag?, Option.isSome_map, List.find?_isSome]
  constructor
  · intro ⟨⟨key, executor⟩, hroute, hkey⟩
    rw [decide_eq_true_iff] at hkey
    exact ⟨executor, hkey ▸ hroute⟩
  · intro ⟨executor, hroute⟩
    exact ⟨_, hroute, decide_eq_true rfl⟩

theorem forPattern?_isSome_iff {tag : String} :
    (registry.forPattern? kind tag).isSome = true ↔
      ∃ fragment executor, ((kind, fragment), executor) ∈ registry.patterns ∧
        fragment.toList <:+: tag.toList := by
  rw [forPattern?, Option.isSome_map, List.find?_isSome]
  constructor
  · intro ⟨⟨⟨other, fragment⟩, executor⟩, hroute, hmatch⟩
    rw [Bool.and_eq_true, decide_eq_true_iff, occursIn_iff] at hmatch
    exact ⟨fragment, executor, hmatch.1 ▸ hroute, hmatch.2⟩
  · intro ⟨fragment, executor, hroute, hoccurs⟩
    refine ⟨_, hroute, ?_⟩
    rw [Bool.and_eq_true, decide_eq_true_iff, occursIn_iff]
    exact ⟨rfl, hoccurs⟩

theorem forOrder?_isSome_iff {number : Int64} :
    (registry.forOrder? number).isSome = true ↔ registry.HasOrder number := by
  rw [HasOrder, forOrder?, Option.isSome_map, List.find?_isSome]
  constructor
  · intro ⟨⟨other, executor⟩, hroute, hother⟩
    rw [decide_eq_true_iff] at hother
    exact ⟨executor, hother ▸ hroute⟩
  · intro ⟨executor, hroute⟩
    exact ⟨_, hroute, decide_eq_true rfl⟩

theorem testTag?_eq_some_iff {tag : String} :
    command.testTag? = some tag ↔ command.payload.member? "type" = some (.string tag) := by
  simp [Command.testTag?, Option.bind_eq_some_iff, Json.Value.string?_eq_some_iff]

theorem execOrder?_eq_some_iff {number : Int64} :
    command.execOrder? = some number ↔
      command.payload.member? "order" = some (.ofInt number.toInt) := by
  simp [Command.execOrder?, Option.bind_eq_some_iff, Json.Value.int64?_eq_some_iff]

theorem resolveTag_isOk_iff :
    (∃ executor, registry.resolveTag kind command = .ok executor) ↔
      ∃ tag, command.payload.member? "type" = some (.string tag) ∧ registry.HasTag kind tag := by
  simp only [HasTag, ← testTag?_eq_some_iff, ← forTag?_isSome_iff, ← forPattern?_isSome_iff]
  rw [resolveTag]
  cases command.testTag? with
  | none => simp
  | some tag =>
    cases hexact : registry.forTag? kind tag with
    | some executor => simp [hexact]
    | none => cases hpattern : registry.forPattern? kind tag <;> simp [hexact, hpattern]

theorem resolveOrder_isOk_iff :
    (∃ executor, registry.resolveOrder command = .ok executor) ↔
      ∃ number : Int64, command.payload.member? "order" = some (.ofInt number.toInt) ∧
        registry.HasOrder number := by
  simp only [← execOrder?_eq_some_iff, ← forOrder?_isSome_iff]
  rw [resolveOrder]
  cases command.execOrder? with
  | none => simp
  | some number => cases horder : registry.forOrder? number <;> simp [horder]

/-- The search finds an executor for the commands that have one. -/
theorem resolve_isOk_iff (hkind : command.kind = some kind) :
    (∃ executor, registry.resolve command = .ok executor) ↔
      registry.Routes command.payload kind := by
  rw [resolve, hkind]
  cases kind with
  | singleTest =>
    refine resolveTag_isOk_iff.trans ⟨?_, ?_⟩
    · intro ⟨tag, hnamed, hroute⟩
      exact .single tag hnamed hroute
    · intro h
      cases h with
      | single tag hnamed hroute => exact ⟨tag, hnamed, hroute⟩
  | combinedTest =>
    refine resolveTag_isOk_iff.trans ⟨?_, ?_⟩
    · intro ⟨tag, hnamed, hroute⟩
      exact .combined tag hnamed hroute
    · intro h
      cases h with
      | combined tag hnamed hroute => exact ⟨tag, hnamed, hroute⟩
  | execOrder =>
    refine resolveOrder_isOk_iff.trans ⟨?_, ?_⟩
    · intro ⟨number, hnamed, hroute⟩
      exact .order number hnamed hroute
    · intro h
      cases h with
      | order number hnamed hroute => exact ⟨number, hnamed, hroute⟩
  | handshake | beginTest | endTest | setSystemTime | other =>
    constructor
    · intro ⟨executor, h⟩
      cases h
    · intro h
      cases h

end Registry

end TestRig
