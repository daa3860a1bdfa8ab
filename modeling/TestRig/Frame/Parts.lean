import TestRig.Frame.Build

/-!
# Parts of a frame

Takes a frame apart into the number, the content and the checksum that it carries.

- `parts?_assemble` says that assembling and taking apart undo each other.
-/

namespace TestRig.Frame

/-- What a frame carries. -/
structure Parts where
  /-- Number of the frame in its direction. -/
  sequence : UInt16
  content : Bytes
  checksum : UInt16
  deriving Repr, DecidableEq, Inhabited

/-- The parts of a byte string that starts with a header and holds the whole frame. -/
def parts? (frame : Bytes) : Option Parts :=
  match Header.decode frame with
  | none => none
  | some header =>
    let size := header.contentLength.toNat
    match (frame.drop headerSize).drop size with
    | hi :: lo :: _ =>
      some ⟨header.sequence, (frame.drop headerSize).take size, Word.ofBytes hi lo⟩
    | _ => none

theorem parts?_assemble {sequence : UInt16} {content : Bytes} (h : content.length ≤ maxContent) :
    parts? (assemble sequence content) =
      some ⟨sequence, content, Checksum.ofBytes (body sequence content)⟩ := by
  have hsize : (UInt16.ofNat content.length).toNat = content.length := by
    simp only [maxContent] at h
    simp only [UInt16.toNat_ofNat']
    omega
  simp only [parts?, assemble, body, List.append_assoc]
  rw [Header.decode_encode, Header.drop_encode]
  simp [hsize, Word.toBytes]

end TestRig.Frame
