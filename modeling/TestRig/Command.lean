import TestRig.Failure
import TestRig.Json.Render

/-!
# Commands

A command is what the host asks for in one inbound frame. Its document names the kind of command by
number under `subCommand` and brings what the command works on under `data`.

- `Command.ofDocument` reads a command from a document.
- `CommandKind.code_ofCode` says that no code is lost between number and kind.
-/

namespace TestRig

open Json (Value)

/-- What a command asks for. -/
inductive CommandKind where
  /-- Open a session. -/
  | handshake
  /-- Start a new generation of tests. -/
  | beginTest
  /-- End the current generation of tests. -/
  | endTest
  /-- Run one test, chosen by the tag under `type`. -/
  | singleTest
  /-- Set the clock of the station. -/
  | setSystemTime
  /-- Run the test with the number under `order`. -/
  | execOrder
  /-- Run a combined test, chosen by the tag under `type`. -/
  | combinedTest
  /-- A code that the station does not know. -/
  | other (code : Int64)
  deriving Repr, DecidableEq, Inhabited

namespace CommandKind

/-- The kind with a code. -/
def ofCode (code : Int64) : CommandKind :=
  if code = 1 then handshake
  else if code = 2 then beginTest
  else if code = 3 then endTest
  else if code = 5 then singleTest
  else if code = 10 then setSystemTime
  else if code = 13 then execOrder
  else if code = 15 then combinedTest
  else other code

/-- The code of a kind. -/
def code : CommandKind → Int64
  | handshake => 1
  | beginTest => 2
  | endTest => 3
  | singleTest => 5
  | setSystemTime => 10
  | execOrder => 13
  | combinedTest => 15
  | other code => code

theorem code_ofCode (n : Int64) : (ofCode n).code = n := by
  unfold ofCode
  repeat' split
  all_goals simp_all [code]

/-- The command supersedes every test in flight. -/
def isSessionControl : CommandKind → Bool
  | handshake | beginTest | endTest => true
  | _ => false

/-- The command runs a test. -/
def isTestInvocation : CommandKind → Bool
  | singleTest | execOrder | combinedTest => true
  | _ => false

/-- The code of the report that a test of this kind ends with. -/
def reportCode? : CommandKind → Option Int64
  | singleTest => some 7
  | execOrder => some 14
  | combinedTest => some 16
  | _ => none

/-- The name of a kind. -/
def name : CommandKind → String
  | handshake => "Handshake"
  | beginTest => "BeginTest"
  | endTest => "EndTest"
  | singleTest => "SingleTest"
  | setSystemTime => "SetSystemTime"
  | execOrder => "ExecOrder"
  | combinedTest => "CombinedTest"
  | other _ => "Other"

/-- The name of a kind, with the code of one that is not known. -/
def describe : CommandKind → String
  | other code => s!"Other({code.toInt})"
  | kind => kind.name

end CommandKind

/-- One decoded inbound frame. -/
structure Command where
  /-- What is asked for; `none` if the document does not say. -/
  kind : Option CommandKind
  sequence : UInt16
  /-- What the command works on: the `data` of the document, or all of it if it names no kind. -/
  payload : Value
  deriving Repr, Inhabited

namespace Command

/-- The command of a document. A kind that is given must be an integer of 64 bits with sign. -/
def ofDocument (sequence : UInt16) (document : Value) : Except Failure Command :=
  match document.member? "subCommand" with
  | none => .ok ⟨none, sequence, document⟩
  | some given =>
    match given.int64? with
    | some code =>
      .ok ⟨some (.ofCode code), sequence, (document.member? "data").getD .null⟩
    | none => .error (.protocol ("subCommand must be an integer, got " ++ given.text))

/-- The tag that a test is chosen by. -/
def testTag? (command : Command) : Option String :=
  (command.payload.member? "type").bind Value.string?

/-- The number that an ordered test is chosen by. -/
def execOrder? (command : Command) : Option Int64 :=
  (command.payload.member? "order").bind Value.int64?

end Command

end TestRig
