import TestRig.Checksum
import TestRig.Failure
import TestRig.Frame.Header

/-!
# Frame assembly

`Frame.build` puts a header before a content and its checksum behind it. The content is taken as it
is; whether it is a document is the concern of the encoder.

- `build_eq_ok_iff` says when a frame is built and which bytes it has.
-/

namespace TestRig.Frame

/-- Header and content of a frame, the part that its checksum covers. -/
def body (sequence : UInt16) (content : Bytes) : Bytes :=
  Header.encode ⟨sequence, UInt16.ofNat content.length⟩ ++ content

/-- The bytes of the frame around a content. -/
def assemble (sequence : UInt16) (content : Bytes) : Bytes :=
  body sequence content ++ Word.toBytes (Checksum.ofBytes (body sequence content))

/-- The frame around a content, unless the content is longer than the length field can say. -/
def build (sequence : UInt16) (content : Bytes) : Except Failure Bytes :=
  if maxContent < content.length then
    .error (.contentTooLarge content.length)
  else
    .ok (assemble sequence content)

/-- The frame whose content is `lead` followed by `content`. -/
def buildAfter (sequence : UInt16) (lead content : Bytes) : Except Failure Bytes :=
  build sequence (lead ++ content)

theorem length_assemble (sequence : UInt16) (content : Bytes) :
    (assemble sequence content).length = minLength + content.length := by
  simp [assemble, body, minLength, headerSize, checksumSize]
  omega

theorem build_eq_ok_iff {sequence : UInt16} {content frame : Bytes} :
    build sequence content = .ok frame ↔
      content.length ≤ maxContent ∧ frame = assemble sequence content := by
  unfold build
  split
  · constructor
    · simp
    · omega
  · constructor
    · intro h
      cases h
      exact ⟨by omega, rfl⟩
    · rintro ⟨_, rfl⟩
      rfl

end TestRig.Frame
