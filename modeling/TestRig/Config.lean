import TestRig.Failure
import TestRig.Frame.Header
import TestRig.Json.Record
import TestRig.Ring

/-!
# Configuration

The settings of a station. Each has a default, so a document need only name those that differ.

- `Config.read?` reads the settings, `Config.validate` refuses those that a station cannot run with,
  and `Config.fromText` does both.
-/

namespace TestRig

open Json (RecordField Written)

/-- What a bounded queue does when a push finds it full. -/
inductive OverflowPolicy where
  /-- The push fails. -/
  | reject
  /-- The oldest item makes room. -/
  | dropOldest
  /-- The push waits until there is room. -/
  | block
  deriving Repr, DecidableEq, Inhabited

/-- What the decoder does with a frame that repeats the last accepted sequence number. -/
inductive DuplicatePolicy where
  /-- It is delivered again. -/
  | accept
  /-- It is dropped. -/
  | reject
  deriving Repr, DecidableEq, Inhabited

/-- The name of a policy in descriptions. -/
def OverflowPolicy.describe : OverflowPolicy → String
  | reject => "Reject"
  | dropOldest => "DropOldest"
  | block => "Block"

/-- The name of a policy in descriptions. -/
def DuplicatePolicy.describe : DuplicatePolicy → String
  | accept => "Accept"
  | reject => "Reject"

/-- What a station says about itself when a session opens. -/
structure Identity where
  model : String := "TESTSTAND"
  version : String := "0.1.0"
  deriving Repr, DecidableEq, Inhabited

/-- The settings of a station. -/
structure Config where
  /-- Bytes that the inbound ring holds. -/
  ringCapacity : Nat := Ring.defaultCapacity
  /-- Commands that may wait for dispatch. -/
  queueCapacity : Nat := 64
  /-- What happens to a command that finds the queue full. -/
  overflowPolicy : OverflowPolicy := .reject
  /-- What happens to a repeated sequence number. -/
  duplicatePolicy : DuplicatePolicy := .accept
  workerCount : Nat := 8
  /-- Milliseconds that the dispatcher waits for a command at a time. -/
  dispatchPollMs : Nat := 10
  /-- Encoded frames that may wait for the transport. -/
  outboundCapacity : Nat := 256
  /-- Bytes asked for in one read. -/
  readBufferSize : Nat := 1024
  /-- Outbound content starts with the legacy marker byte. -/
  legacyContentMarker : Bool := false
  identity : Identity := {}
  deriving Repr, DecidableEq, Inhabited

namespace OverflowPolicy

/-- The policies under their names in a document. -/
def names : List (String × OverflowPolicy) :=
  [("reject", reject), ("drop_oldest", dropOldest), ("block", block)]

end OverflowPolicy

namespace DuplicatePolicy

/-- The policies under their names in a document. -/
def names : List (String × DuplicatePolicy) :=
  [("accept", accept), ("reject", reject)]

end DuplicatePolicy

/-- The fields of an identity in a document. -/
def Identity.fields : List (RecordField Identity) := [
  .of "model" Written.string? fun value identity => { identity with model := value },
  .of "version" Written.string? fun value identity => { identity with version := value }]

namespace Config

/-- The fields of the settings in a document. -/
def fields : List (RecordField Config) := [
  .of "ring_capacity" Written.nat64? fun value config => { config with ringCapacity := value },
  .of "queue_capacity" Written.nat64? fun value config => { config with queueCapacity := value },
  .of "overflow_policy" (Written.choice? OverflowPolicy.names)
    fun value config => { config with overflowPolicy := value },
  .of "duplicate_policy" (Written.choice? DuplicatePolicy.names)
    fun value config => { config with duplicatePolicy := value },
  .of "worker_count" Written.nat64? fun value config => { config with workerCount := value },
  .of "dispatch_poll_ms" Written.nat64? fun value config => { config with dispatchPollMs := value },
  .of "outbound_capacity" Written.nat64?
    fun value config => { config with outboundCapacity := value },
  .of "read_buffer_size" Written.nat64? fun value config => { config with readBufferSize := value },
  .of "legacy_content_marker" Written.boolean?
    fun value config => { config with legacyContentMarker := value },
  .of "identity" (RecordField.record? Identity.fields {})
    fun value config => { config with identity := value }]

/-- Reads settings from a text, with the default for each one that it does not give. The text is
well-formed throughout, but what it says beyond the settings may be nested to any depth. -/
def read? (text : String) : Option Config :=
  let chars := text.toList
  (Written.parse? chars.length chars).bind (RecordField.record? fields {})

/-- Reads settings from a text. -/
def read (text : String) : Except Failure Config :=
  match read? text with
  | some config => .ok config
  | none => .error (.json .malformed)

/-- Refuses a ring that cannot hold the shortest frame. -/
def validate (config : Config) : Except Failure Config :=
  if config.ringCapacity < Frame.minLength then
    .error (.config
      s!"ring_capacity {config.ringCapacity} is below the {Frame.minLength}-byte minimum frame")
  else
    .ok config

/-- Reads settings from a text and refuses those that a station cannot run with. -/
def fromText (text : String) : Except Failure Config :=
  (read text).bind validate

end Config

end TestRig
