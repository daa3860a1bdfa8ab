import TestRig.Command

/-!
# Outcomes of decoding

What one step of the decoder can tell, and the counters that it keeps.
-/

namespace TestRig

/-- Why the decoder dropped bytes and has to be asked again. -/
inductive Resync where
  /-- Bytes before a marker were dropped. -/
  | skippedGarbage (count : Nat)
  /-- The checksum is wrong; only the marker was dropped. -/
  | checksumMismatch (computed received : UInt16)
  /-- The sequence number repeats the last one; the frame was dropped. -/
  | duplicate (sequence : UInt16)
  /-- The content is not a command; the frame was dropped. -/
  | undecodableContent
  deriving Repr, DecidableEq, Inhabited

/-- Why the bytes at the front can never become a frame. -/
inductive DecodeFault where
  /-- There is no marker; all but a possible first half of one was dropped. -/
  | noHeader (dropped : Nat)
  /-- The announced frame is larger than the ring; one byte was dropped. -/
  | oversized (contentLength : UInt16)
  deriving Repr, DecidableEq, Inhabited

/-- What one step of the decoder tells. -/
inductive Outcome where
  /-- More bytes are needed; none was consumed. -/
  | incomplete
  /-- A frame was decoded and consumed. -/
  | success (command : Command)
  /-- Bytes were dropped. -/
  | retry (reason : Resync)
  /-- Bytes were dropped to get past a span that is of no use. -/
  | fault (reason : DecodeFault)
  deriving Repr, Inhabited

namespace Outcome

/-- The decoder waits for more bytes. -/
def isIncomplete : Outcome → Bool
  | incomplete => true
  | _ => false

/-- The command of a decoded frame. -/
def command? : Outcome → Option Command
  | success command => some command
  | _ => none

end Outcome

/-- Running counters of a decoder. -/
structure DecoderStats where
  /-- Frames that became commands. -/
  framesDecoded : Nat := 0
  /-- Frames with a wrong checksum. -/
  checksumFailures : Nat := 0
  /-- Frames whose content is not a command. -/
  undecodableFrames : Nat := 0
  /-- Frames dropped as repeats. -/
  duplicatesDropped : Nat := 0
  /-- Bytes dropped without becoming part of a command. -/
  bytesDiscarded : Nat := 0
  deriving Repr, DecidableEq, Inhabited

end TestRig
