import TestRig.Checksum
import TestRig.Config
import TestRig.Decoder.Outcome
import TestRig.Frame.Content
import TestRig.Ring

/-!
# Frame decoder

Inbound bytes collect in a ring. A step looks at its front: it drops bytes up to a marker, reads the
header behind it, waits until the whole frame is there, checks the checksum and the sequence number,
and turns the content into a command. A header that was read is remembered while its frame is on the
way.

- `Decoder.step` is one step and `Decoder.drain` all steps up to the first that needs more bytes.
- `Decoder.receive` adds bytes and drains.
-/

namespace TestRig

open TestRig.Frame (Header)

/-- The inbound side of the protocol. -/
structure Decoder where
  ring : Ring
  /-- Header of the frame at the front whose end has not arrived yet. -/
  announced : Option Header
  /-- What happens to a repeated sequence number. -/
  duplicatePolicy : DuplicatePolicy
  /-- Sequence number of the last frame that became a command. -/
  lastSequence : Option UInt16
  stats : DecoderStats

/-- The marker stands at an offset from the oldest byte. -/
def Ring.hasMarker (ring : Ring) (index : Nat) : Bool :=
  match ring.at? index, ring.at? (index + 1) with
  | some hi, some lo => Frame.isMarker hi lo
  | _, _ => false

/-- The least of `count` offsets from `index` on at which the marker stands. -/
def Ring.markerFrom? (ring : Ring) : (count index : Nat) → Option Nat
  | 0, _ => none
  | count + 1, index =>
    if ring.hasMarker index then some index else ring.markerFrom? count (index + 1)

/-- The offset of the first marker. -/
def Ring.marker? (ring : Ring) : Option Nat :=
  ring.markerFrom? (ring.length - 1) 0

namespace Decoder

/-- A decoder that has seen nothing. Its ring holds at least the shortest frame. -/
def fresh (capacity : Nat) (policy : DuplicatePolicy) : Decoder :=
  ⟨Ring.empty (max capacity Frame.minLength), none, policy, none, {}⟩

instance : Inhabited Decoder := ⟨fresh Ring.defaultCapacity .accept⟩

/-- Free bytes of the ring. -/
def available (decoder : Decoder) : Nat :=
  decoder.ring.available

/-- Bytes that are not yet consumed. -/
def buffered (decoder : Decoder) : Nat :=
  decoder.ring.length

/-- Adds inbound bytes, all or none. -/
def write (decoder : Decoder) (data : Bytes) : Except Failure Decoder :=
  (decoder.ring.append data).map fun ring => { decoder with ring }

/-- Drops the buffered bytes and forgets the last sequence number. -/
def reset (decoder : Decoder) : Decoder :=
  { decoder with ring := decoder.ring.clear, announced := none, lastSequence := none }

/-! ## Dropping and consuming -/

/-- Drops bytes from the front and counts them. -/
def discard (decoder : Decoder) (count : Nat) : Decoder :=
  let dropped := min count decoder.ring.length
  { decoder with
    ring := decoder.ring.consume dropped
    stats := { decoder.stats with bytesDiscarded := decoder.stats.bytesDiscarded + dropped } }

/-- Drops a frame whose content is not a command. -/
def dropUndecodable (decoder : Decoder) (header : Header) : Outcome × Decoder :=
  let counted := { decoder.stats with undecodableFrames := decoder.stats.undecodableFrames + 1 }
  (.retry .undecodableContent, { decoder with stats := counted }.discard header.frameLength)

/-- Drops a frame that repeats the last sequence number. -/
def dropDuplicate (decoder : Decoder) (header : Header) : Outcome × Decoder :=
  let counted := { decoder.stats with duplicatesDropped := decoder.stats.duplicatesDropped + 1 }
  (.retry (.duplicate header.sequence),
    { decoder with stats := counted }.discard header.frameLength)

/-- Drops the marker of a frame with a wrong checksum. -/
def dropMarker (decoder : Decoder) (computed received : UInt16) : Outcome × Decoder :=
  let counted := { decoder.stats with checksumFailures := decoder.stats.checksumFailures + 1 }
  (.retry (.checksumMismatch computed received), { decoder with stats := counted }.discard 2)

/-- Consumes the frame of a command. -/
def deliver (decoder : Decoder) (header : Header) (command : Command) : Outcome × Decoder :=
  (.success command,
    { decoder with
      ring := decoder.ring.consume header.frameLength
      lastSequence := some header.sequence
      stats := { decoder.stats with framesDecoded := decoder.stats.framesDecoded + 1 } })

/-! ## The stages of a step -/

/-- The content of the frame at the front. -/
def content (decoder : Decoder) (header : Header) : Bytes :=
  let (head, tail) := decoder.ring.segments (header.frameLength - Frame.checksumSize)
  (head ++ tail).drop Frame.headerSize

/-- The command in the content of the frame at the front. -/
def command? (decoder : Decoder) (header : Header) : Option Command :=
  (Frame.document? (decoder.content header)).bind fun document =>
    (Command.ofDocument header.sequence document).toOption

/-- The sequence number of a frame repeats the last one, and the policy minds. -/
def isDuplicate (decoder : Decoder) (header : Header) : Bool :=
  decoder.duplicatePolicy == .reject && decoder.lastSequence == some header.sequence

/-- Settles a frame whose checksum is right. -/
def accept (decoder : Decoder) (header : Header) : Outcome × Decoder :=
  if decoder.isDuplicate header then
    decoder.dropDuplicate header
  else
    match decoder.command? header with
    | some command => decoder.deliver header command
    | none => decoder.dropUndecodable header

/-- The checksum computed over header and content of the frame at the front. -/
def computedChecksum (decoder : Decoder) (header : Header) : UInt16 :=
  let (head, tail) := decoder.ring.segments (header.frameLength - Frame.checksumSize)
  Checksum.ofChunks [head, tail]

/-- The checksum that the frame at the front carries. One that is not there counts as wrong. -/
def receivedChecksum (decoder : Decoder) (header : Header) (computed : UInt16) : UInt16 :=
  (decoder.ring.word? (header.frameLength - Frame.checksumSize)).getD (~~~computed)

/-- Settles a frame of which all bytes are there. -/
def verify (decoder : Decoder) (header : Header) : Outcome × Decoder :=
  let computed := decoder.computedChecksum header
  let received := decoder.receivedChecksum header computed
  if computed = received then decoder.accept header else decoder.dropMarker computed received

/-- Waits for the frame of a header, or settles it if all of it is there. -/
def await (decoder : Decoder) (header : Header) : Outcome × Decoder :=
  if decoder.ring.length < header.frameLength then
    (.incomplete, { decoder with announced := some header })
  else
    { decoder with announced := none }.verify header

/-- Reads the header behind the marker at the front. A frame larger than the ring can never be
complete, so it is given up at once. -/
def readHeader (decoder : Decoder) : Outcome × Decoder :=
  match decoder.ring.word? 2, decoder.ring.word? 4 with
  | some sequence, some contentLength =>
    let header : Header := ⟨sequence, contentLength⟩
    if decoder.ring.capacity < header.frameLength then
      (.fault (.oversized contentLength), decoder.discard 1)
    else
      decoder.await header
  | _, _ => (.incomplete, decoder)

/-- The last buffered byte could be the first half of a marker. -/
def endsInHalfMarker (decoder : Decoder) : Bool :=
  decoder.ring.at? (decoder.ring.length - 1) == some Frame.markerHigh

/-- Looks for a marker. -/
def seek (decoder : Decoder) : Outcome × Decoder :=
  match decoder.ring.marker? with
  | some 0 => decoder.readHeader
  | some (offset + 1) => (.retry (.skippedGarbage (offset + 1)), decoder.discard (offset + 1))
  | none =>
    let kept := if decoder.endsInHalfMarker then 1 else 0
    let dropped := decoder.ring.length - kept
    (.fault (.noHeader dropped), decoder.discard dropped)

/-- Tries to decode one frame from the front of the ring. -/
def step (decoder : Decoder) : Outcome × Decoder :=
  match decoder.announced with
  | some header => decoder.await header
  | none =>
    if decoder.ring.length < Frame.minLength then (.incomplete, decoder) else decoder.seek

/-! ## Runs -/

/-- Steps up to the first that needs more bytes; the outcomes so far come last first. Every other
step consumes a byte, so as much fuel as there are bytes is enough. -/
def drainLoop : (fuel : Nat) → List Outcome → Decoder → List Outcome × Decoder
  | 0, outcomes, decoder => (outcomes.reverse, decoder)
  | fuel + 1, outcomes, decoder =>
    match decoder.step with
    | (.incomplete, decoder) => (outcomes.reverse, decoder)
    | (outcome, decoder) => drainLoop fuel (outcome :: outcomes) decoder

/-- Steps until more bytes are needed. The last outcome, which says so, is left out. -/
def drain (decoder : Decoder) : List Outcome × Decoder :=
  drainLoop (decoder.ring.length + 1) [] decoder

/-- Adds inbound bytes and steps until more are needed. -/
def receive (decoder : Decoder) (data : Bytes) : Except Failure (List Outcome × Decoder) :=
  (decoder.write data).map drain

/-- Receives pieces one after the other. A piece that does not fit ends the run; what was received
before it stays. -/
def receiveAll (decoder : Decoder) (pieces : List Bytes) :
    Except Failure (List Outcome) × Decoder :=
  go [] decoder pieces
where
  /-- Receives the remaining pieces; the outcomes so far come last first. -/
  go (outcomes : List Outcome) (decoder : Decoder) :
      List Bytes → Except Failure (List Outcome) × Decoder
    | [] => (.ok outcomes.reverse, decoder)
    | piece :: rest =>
      match decoder.receive piece with
      | .ok (found, decoder) => go (found.reverse ++ outcomes) decoder rest
      | .error failure => (.error failure, decoder)

/-- The name of the state between two steps. -/
def stateName (decoder : Decoder) : String :=
  if decoder.announced.isSome then "CheckComplete" else "Idle"

end Decoder

end TestRig
