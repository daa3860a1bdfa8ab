import TestRig.Executor.Basic
import TestRig.Json.Mismatch

/-!
# Stock executors

A small set of executors for trying out a station without hardware.
-/

namespace TestRig

open Json (Value)

/-- A stock executor. -/
inductive Stock where
  /-- Passes with fixed data. -/
  | pass (data : Value)
  /-- Fails with fixed data. -/
  | fail (data : Value)
  /-- Passes with the payload. -/
  | echo
  /-- Reports fixed data with a note. -/
  | noted (data : Value) (passed : Bool) (note : String)
  /-- Reports fixed data under a code of its own. -/
  | coded (code : Int64) (data : Value) (passed : Bool)
  /-- Passes with a text of a given length. -/
  | huge (length : Nat)
  /-- Passes with what it is told about its run. -/
  | info
  /-- Reports the speed in the payload; it passes above 100. -/
  | fan
  /-- Reports the least speed in the payload, 1000 if it is not given; it passes up to 2000. -/
  | fanDefault
  /-- Waits at the gate that the payload names. -/
  | gate
  | crash
  | fails (failure : Failure)
  deriving Repr, Inhabited

namespace Stock

/-- A text of so many letters. -/
def letters (length : Nat) : Value :=
  .string (String.ofList (List.replicate length 'a'))

/-- What a run is told about itself. -/
def describe (invocation : Invocation) : Value :=
  .ofMembers [("type", .string invocation.kind.name),
    ("sequence", .ofNat invocation.sequence.toNat),
    ("cancelled", .boolean invocation.cancelled),
    ("report_code", .ofInt invocation.reportCode.toInt)]

/-- Reports a natural number that the payload holds under a key, with a verdict on it. -/
def reading (key : String) (absent : Option Nat) (verdict : Nat → Bool) : Executor :=
  fun invocation payload =>
    match payload.word32Member key absent with
    | .ok n => .respond (invocation.report (.ofMembers [(key, .ofNat n)]) (verdict n))
    | .error cause => .fail (.json cause)

/-- The gate that a payload names. -/
def gateName (payload : Value) : String :=
  ((payload.member? "name").bind Value.string?).getD "g"

/-- What a stock executor does. -/
def executor : Stock → Executor
  | pass data => fun invocation _ => .respond (invocation.passed data)
  | fail data => fun invocation _ => .respond (invocation.failed data)
  | echo => fun invocation payload => .respond (invocation.passed payload)
  | noted data passed note =>
    fun invocation _ => .respond ((invocation.report data passed).withDesc note)
  | coded code data passed => fun _ _ => .respond (Response.report code data passed)
  | huge length => fun invocation _ => .respond (invocation.passed (letters length))
  | info => fun invocation _ => .respond (invocation.passed (describe invocation))
  | fan => reading "speed" none (100 < ·)
  | fanDefault => reading "min_rpm" (some 1000) (· ≤ 2000)
  | gate => fun invocation payload =>
    { gate := some (gateName payload)
      ending := .responded (invocation.passed ((payload.member? "name").getD .null)) }
  | crash => fun _ _ => .crash
  | fails failure => fun _ _ => .fail failure

end Stock

end TestRig
