import TestRig.Frame.Build
import TestRig.Json.Meaning
import TestRig.Response

/-!
# Frame encoder

The outbound side of the protocol: documents and responses become frames. Reports are numbered by a
counter of their own that only a frame that was built advances.
-/

namespace TestRig

/-- The outbound side of the protocol. -/
structure Encoder where
  /-- Content starts with the legacy marker byte. -/
  legacyMarker : Bool
  /-- Number of the next report. -/
  reportSequence : UInt16 := 0
  deriving Repr, DecidableEq, Inhabited

namespace Encoder

/-- The frame around a content. -/
def frame (encoder : Encoder) (content : Bytes) (sequence : UInt16) : Except Failure Bytes :=
  if encoder.legacyMarker then Frame.buildAfter sequence [Frame.legacyMarker] content
  else Frame.build sequence content

/-- The frame around the text of a document; what is not a document is refused. -/
def encodeFrame (encoder : Encoder) (content : Bytes) (sequence : UInt16) : Except Failure Bytes :=
  match Json.Value.ofBytes? content with
  | some _ => encoder.frame content sequence
  | none => .error (.json .malformed)

/-- The frame of a response under a given number. -/
def encodeResponse (encoder : Encoder) (response : Response) (sequence : UInt16) :
    Except Failure Bytes :=
  encoder.frame response.document.bytes sequence

/-- The frame of a response under the next report number, and the encoder behind it. -/
def encodeReport (encoder : Encoder) (response : Response) : Except Failure (Bytes × Encoder) :=
  (encoder.encodeResponse response encoder.reportSequence).map fun frame =>
    (frame, { encoder with reportSequence := encoder.reportSequence + 1 })

/-- Encodes a response as a report several times, up to the first failure. The answer is the last
frame, or the one given if there are none, and the encoder behind it. -/
def encodeReports (response : Response) :
    (times : Nat) → Bytes → Encoder → Except Failure (Bytes × Encoder)
  | 0, last, encoder => .ok (last, encoder)
  | times + 1, _, encoder =>
    match encoder.encodeReport response with
    | .ok (frame, encoder) => encodeReports response times frame encoder
    | .error failure => .error failure

end Encoder

end TestRig
