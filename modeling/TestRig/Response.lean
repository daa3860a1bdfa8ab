import TestRig.Command

/-!
# Responses

What the station sends to the host: acknowledgements of commands and reports of tests.

- `Response.text` is the document of a response; its members have a fixed order.
- `Invocation` knows under which code the report of a test goes out.
-/

namespace TestRig

open Json (Value)

/-- The two kinds of outbound documents. -/
inductive ResponseKind where
  /-- The result of a test. -/
  | report
  /-- The answer to a command. -/
  | ack
  deriving Repr, DecidableEq, Inhabited

/-- The number of a kind in a document. -/
def ResponseKind.code : ResponseKind → Nat
  | report => 1
  | ack => 2

/-- One outbound document. -/
structure Response where
  kind : ResponseKind
  /-- Code of the command or of the report. -/
  subCommand : Int64
  data : Value
  passed : Bool
  /-- A note for people. -/
  desc : Option String
  deriving Repr, Inhabited

namespace Response

/-- Acknowledges a command. -/
def ack (kind : CommandKind) (data : Value) : Response :=
  ⟨.ack, kind.code, data, true, some "okay"⟩

/-- Reports a result under a code. -/
def report (subCommand : Int64) (data : Value) (passed : Bool) : Response :=
  ⟨.report, subCommand, data, passed, none⟩

/-- The response with a note. -/
def withDesc (response : Response) (desc : String) : Response :=
  { response with desc := some desc }

/-- The members of the document in the order written. The verdict is a text, and there is no member
for a note that is missing. -/
def members (response : Response) : List (String × Value) :=
  [("cmdType", .ofNat response.kind.code),
    ("subCommand", .ofInt response.subCommand.toInt),
    ("data", response.data),
    ("result", .string (if response.passed then "true" else "false"))] ++
  match response.desc with
  | some desc => [("desc", .string desc)]
  | none => []

/-- The document of a response, its members in the order written. -/
def document (response : Response) : Value :=
  .object response.members

/-- The text of the document. -/
def text (response : Response) : String :=
  response.document.text

end Response

/-- One run of a test: the command that asked for it, and whether it has been superseded. -/
structure Invocation where
  /-- What was asked for. -/
  kind : CommandKind
  sequence : UInt16
  /-- The run has been superseded. -/
  cancelled : Bool := false
  deriving Repr, Inhabited

namespace Invocation

/-- The code of the report. -/
def reportCode (invocation : Invocation) : Int64 :=
  invocation.kind.reportCode?.getD invocation.kind.code

/-- The report with a verdict. -/
def report (invocation : Invocation) (data : Value) (passed : Bool) : Response :=
  Response.report invocation.reportCode data passed

/-- The report of success. -/
def passed (invocation : Invocation) (data : Value) : Response :=
  invocation.report data true

/-- The report of failure. -/
def failed (invocation : Invocation) (data : Value) : Response :=
  invocation.report data false

/-- The run may sleep for some time; a superseded one is woken at once and told so by `false`. -/
def sleep (invocation : Invocation) (_milliseconds : Nat) : Bool :=
  !invocation.cancelled

end Invocation

end TestRig
