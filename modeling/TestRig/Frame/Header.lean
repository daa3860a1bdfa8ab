import TestRig.Bytes

/-!
# Frame header

A frame is laid out as

```text
marker   sequence  length    content        checksum
3A 3B    2 bytes   2 bytes   length bytes   2 bytes
```

with big-endian fields. The length counts content bytes only. This file holds the sizes and the
six-byte header.

- `decode_encode` and `encode_of_decode` say that reading and writing a header undo each other.
-/

namespace TestRig.Frame

/-- First byte of the marker that opens a frame. -/
def markerHigh : UInt8 := 0x3A

/-- Second byte of the marker that opens a frame. -/
def markerLow : UInt8 := 0x3B

/-- Bytes of a header: marker, sequence and length. -/
def headerSize : Nat := 6

/-- Bytes of the trailing checksum. -/
def checksumSize : Nat := 2

/-- Length of a frame without content. -/
def minLength : Nat := headerSize + checksumSize

/-- The longest content that the length field can announce. -/
def maxContent : Nat := 65535

/-- A byte that some stations put before the text of a frame's content. -/
def legacyMarker : UInt8 := 0x04

/-- Two consecutive bytes open a frame. -/
def isMarker (hi lo : UInt8) : Bool :=
  hi == markerHigh && lo == markerLow

/-- What a frame announces before its content. -/
structure Header where
  /-- Number of the frame in its direction. -/
  sequence : UInt16
  contentLength : UInt16
  deriving Repr, DecidableEq, Inhabited

namespace Header

/-- Length of the whole frame: header, content and checksum. -/
def frameLength (header : Header) : Nat :=
  minLength + header.contentLength.toNat

/-- The six bytes of a header. -/
def encode (header : Header) : Bytes :=
  markerHigh :: markerLow :: (Word.toBytes header.sequence ++ Word.toBytes header.contentLength)

/-- A buffer whose first six bytes are overwritten by the header. -/
def encodeInto (header : Header) (buffer : Bytes) : Bytes :=
  header.encode ++ buffer.drop headerSize

/-- Reads a header from the front of a byte string; `none` if six bytes are not there or the
marker is wrong. -/
def decode : Bytes → Option Header
  | hi :: lo :: s1 :: s0 :: l1 :: l0 :: _ =>
    if isMarker hi lo then some ⟨Word.ofBytes s1 s0, Word.ofBytes l1 l0⟩ else none
  | _ => none

@[simp] theorem length_encode (header : Header) : header.encode.length = headerSize := rfl

theorem drop_encode (header : Header) (rest : Bytes) :
    (header.encode ++ rest).drop headerSize = rest :=
  List.drop_left' rfl

theorem decode_encode (header : Header) (rest : Bytes) :
    decode (header.encode ++ rest) = some header := by
  simp [encode, Word.toBytes, decode, isMarker]

theorem encode_of_decode {data : Bytes} {header : Header} (h : decode data = some header) :
    header.encode = data.take headerSize := by
  unfold decode at h
  split at h
  · split at h
    · rename_i hi lo s1 s0 l1 l0 rest hmarker
      simp only [isMarker, Bool.and_eq_true, beq_iff_eq] at hmarker
      obtain ⟨rfl, rfl⟩ := hmarker
      cases h
      simp [encode, Word.toBytes, headerSize]
    · simp at h
  · simp at h

end Header

end TestRig.Frame
