import TestRig.Executor.Basic

/-!
# Executor registry

Which executor runs a test. A test with a tag goes to the executor of exactly that tag, or else to
the first registered whose fragment occurs in the tag, both among those for its kind of command; a
test with a number goes to the executor of that number.

- `Registry.resolve` finds the executor of a command.
-/

namespace TestRig

/-- A text occurs in another. -/
def occursIn (fragment : List Char) : List Char → Bool
  | [] => fragment.isEmpty
  | c :: rest => fragment.isPrefixOf (c :: rest) || occursIn fragment rest

/-- A list of pairs with the value under a key replaced, or added at the end if the key is new. -/
def putPair {κ ν : Type} [DecidableEq κ] (key : κ) (value : ν) : List (κ × ν) → List (κ × ν)
  | [] => [(key, value)]
  | (other, held) :: rest =>
    if other = key then (key, value) :: rest else (other, held) :: putPair key value rest

/-- The executors of a station. -/
structure Registry where
  /-- Executors for exact tags. -/
  exact : List ((CommandKind × String) × Executor) := []
  /-- Executors for fragments of tags, in order of registration. -/
  patterns : List ((CommandKind × String) × Executor) := []
  /-- Executors for numbers. -/
  orders : List (Int64 × Executor) := []

namespace Registry

instance : Inhabited Registry := ⟨{}⟩

/-- Registers an executor for an exact tag; an earlier one for the same tag is replaced. -/
def register (registry : Registry) (kind : CommandKind) (tag : String) (executor : Executor) :
    Registry :=
  { registry with exact := putPair (kind, tag) executor registry.exact }

/-- Registers an executor for all tags in which a fragment occurs. -/
def registerPattern (registry : Registry) (kind : CommandKind) (fragment : String)
    (executor : Executor) : Registry :=
  { registry with patterns := registry.patterns ++ [((kind, fragment), executor)] }

/-- Registers an executor for a number; an earlier one for the same number is replaced. -/
def registerOrder (registry : Registry) (order : Int64) (executor : Executor) : Registry :=
  { registry with orders := putPair order executor registry.orders }

/-- Number of routes. -/
def size (registry : Registry) : Nat :=
  registry.exact.length + registry.patterns.length + registry.orders.length

/-- There are no routes. -/
def isEmpty (registry : Registry) : Bool :=
  registry.size == 0

/-- The executor for exactly this tag. -/
def forTag? (registry : Registry) (kind : CommandKind) (tag : String) : Option Executor :=
  (registry.exact.find? fun (key, _) => key = (kind, tag)).map (·.2)

/-- The first executor whose fragment occurs in the tag. -/
def forPattern? (registry : Registry) (kind : CommandKind) (tag : String) : Option Executor :=
  (registry.patterns.find? fun ((other, fragment), _) =>
    other = kind && occursIn fragment.toList tag.toList).map (·.2)

/-- The executor for a number. -/
def forOrder? (registry : Registry) (order : Int64) : Option Executor :=
  (registry.orders.find? fun (other, _) => other = order).map (·.2)

/-- Finds the executor of a command with a number. -/
def resolveOrder (registry : Registry) (command : Command) : Except Failure Executor :=
  match command.execOrder? with
  | none => .error (.unknownTest "missing data.order")
  | some order =>
    match registry.forOrder? order with
    | some executor => .ok executor
    | none => .error (.unknownTest s!"order {order.toInt}")

/-- Finds the executor of a command with a tag. -/
def resolveTag (registry : Registry) (kind : CommandKind) (command : Command) :
    Except Failure Executor :=
  match command.testTag? with
  | none => .error (.unknownTest "missing data.type")
  | some tag =>
    match (registry.forTag? kind tag).or (registry.forPattern? kind tag) with
    | some executor => .ok executor
    | none => .error (.unknownTest tag)

/-- Finds the executor of a command. -/
def resolve (registry : Registry) (command : Command) : Except Failure Executor :=
  match command.kind with
  | none => .error (.protocol "command has no subCommand")
  | some kind =>
    if !kind.isTestInvocation then .error (.unknownCommand kind.code)
    else if kind = .execOrder then registry.resolveOrder command
    else registry.resolveTag kind command

/-- Runs the executor of a command that is not cancelled, with all gates open. A crash gives no
response. -/
def execute (registry : Registry) (command : Command) : Except Failure Response :=
  match registry.resolve command with
  | .error failure => .error failure
  | .ok executor =>
    let invocation : Invocation :=
      { kind := command.kind.getD (.other 0), sequence := command.sequence }
    match (executor invocation command.payload).ending with
    | .responded response => .ok response
    | .failed failure => .error failure
    | .crashed => .error (.executor "crashed")

/-- One line that shows the size of a registry. -/
def describe (registry : Registry) : String :=
  s!"ExecutorRegistry \x7b routes: {registry.size} \x7d"

end Registry

end TestRig
