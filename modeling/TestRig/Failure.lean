import TestRig.Json.Mismatch

/-!
# Failures

What can go wrong in the station, one constructor per cause. `Failure.message` is the only place
that words them for people.
-/

namespace TestRig

/-- A number in lower-case hexadecimal, without leading zeros. -/
def hexDigits (n : Nat) : List Char :=
  Nat.toDigits 16 n

/-- A 64-bit integer in hexadecimal: `0x`, then at least two digits; a negative number shows its
two's complement. -/
def hexCode (code : Int64) : String :=
  let digits := hexDigits code.toUInt64.toNat
  String.ofList ('0' :: 'x' :: (List.replicate (2 - digits.length) '0' ++ digits))

/-- Why an operation of the station failed. -/
inductive Failure where
  /-- The transport failed with a text of its own. -/
  | io (text : String)
  /-- A document could not be read, or has the wrong shape. -/
  | json (cause : Json.Mismatch)
  /-- The inbound ring cannot take all of the bytes. -/
  | bufferFull (requested available : Nat)
  /-- The content does not fit the length field. -/
  | contentTooLarge (size : Nat)
  | queueFull (capacity : Nat)
  | queueClosed
  | poolShutdown
  /-- The configuration is not usable. -/
  | config (text : String)
  /-- A command breaks the protocol. -/
  | protocol (text : String)
  /-- A command code that names no test. -/
  | unknownCommand (code : Int64)
  /-- No executor is registered for a test. -/
  | unknownTest (text : String)
  /-- An executor failed with a text of its own. -/
  | executor (text : String)
  deriving Repr, DecidableEq, Inhabited

namespace Failure

/-- The text of a failure. -/
def message : Failure → String
  | io text => "I/O error: " ++ text
  | json cause => "JSON error: " ++ cause.message
  | bufferFull requested available =>
    s!"Buffer full: {requested} bytes requested, {available} available"
  | contentTooLarge size => s!"Content too large: {size} bytes"
  | queueFull capacity => s!"Queue full (capacity {capacity})"
  | queueClosed => "Queue closed"
  | poolShutdown => "Worker pool shut down"
  | config text => "Invalid configuration: " ++ text
  | protocol text => "Protocol error: " ++ text
  | unknownCommand code => "Unknown command: " ++ hexCode code
  | unknownTest text => "Unknown test type: " ++ text
  | executor text => "Executor error: " ++ text

end Failure

end TestRig
