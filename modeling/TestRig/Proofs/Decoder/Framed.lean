import TestRig.Proofs.Codec.Consumption
import TestRig.Proofs.Decoder.RoundTrip

/-!
# Commands come in frames

No command is read from bytes that could not have been framed.  Where a
step tells a command, the bytes that it takes are the frame around some
content, byte for byte: marker, number, length, content and checksum are
those that assembling the frame puts there.  The other way round, a step
reads every such frame at the front, also if its header was read before
and the rest of it came later.

* `take_eq_assemble` is the exactness of the frame format: bytes in which a
  header is read and a checksum found right are the frame that is
  assembled from what was read.
* `next?_eq_success` and `next?_of_framed` are the two directions for the
  scanner.
* `success_iff_framed` is the result for every decoder that calls lead to.
-/

namespace TestRig

open Frame
open Json (Value)

/-- A word that is read somewhere stands there in two bytes. -/
theorem Word.take_of_at? {data : Bytes} {index : Nat} {word : UInt16}
    (h : Word.at? data index = some word) : (data.drop index).take 2 = Word.toBytes word := by
  simp only [Word.at?] at h
  cases hhi : data[index]? with
  | none =>
    rw [hhi] at h
    cases h
  | some hi =>
    cases hlo : data[index + 1]? with
    | none =>
      rw [hhi, hlo] at h
      cases h
    | some lo =>
      rw [hhi, hlo] at h
      obtain rfl : Word.ofBytes hi lo = word := Option.some.inj h
      obtain ⟨hinside, rfl⟩ := List.getElem?_eq_some_iff.mp hhi
      obtain ⟨hinside', rfl⟩ := List.getElem?_eq_some_iff.mp hlo
      rw [Word.toBytes_ofBytes, List.drop_eq_getElem_cons hinside,
        List.drop_eq_getElem_cons hinside']
      rfl

namespace Frame

section Front

variable {header : Header} {data : Bytes} (hheader : Header.decode data = some header)
  (hall : header.frameLength ≤ data.length)
include hheader hall

/-- Header and content that were read are the bytes that the checksum
covers. -/
theorem body_contentIn : body header.sequence (contentIn header data) = covered header data := by
  have hlength : (contentIn header data).length = header.contentLength.toNat := by
    simp only [Header.frameLength, minLength] at hall
    rw [contentIn, List.length_take, List.length_drop]
    omega
  have hsame : (⟨header.sequence, UInt16.ofNat (contentIn header data).length⟩ : Header) =
      header := by
    rw [hlength, UInt16.ofNat_toNat]
  have hsize : header.frameLength - checksumSize =
      headerSize + header.contentLength.toNat := by
    simp only [Header.frameLength, minLength]
    omega
  rw [body, hsame, Header.encode_of_decode hheader, contentIn, covered, hsize, List.take_add]

/-- Bytes that are read as a frame are the frame that is assembled from
what was read. -/
theorem take_eq_assemble
    (hchecksum : Checksum.ofBytes (covered header data) = trailer header data) :
    data.take header.frameLength = assemble header.sequence (contentIn header data) := by
  have hmin := minLength_le_frameLength header
  simp only [minLength, checksumSize] at hmin
  have htrailer : Word.at? data (header.frameLength - checksumSize) =
      some (trailer header data) := by
    rw [trailer, Word.at?, checksumSize, List.getElem?_eq_getElem (by omega),
      List.getElem?_eq_getElem (by omega)]
    rfl
  have hsplit : header.frameLength = header.frameLength - checksumSize + 2 := by
    rw [checksumSize]
    omega
  rw [assemble, body_contentIn hheader hall, hchecksum, ← Word.take_of_at? htrailer, covered,
    ← List.take_add, ← hsplit]

end Front

end Frame

namespace Scanner

variable {scanner : Scanner} {last : Option UInt16} {data : Bytes} {command : Command}

/-- What a frame that becomes a command holds. -/
theorem settle_eq_success {header : Header}
    (h : scanner.settle last header data = .success command) :
    ¬ (scanner.policy = .reject ∧ last = some header.sequence) ∧
      commandIn? header data = some command := by
  unfold settle at h
  split_ifs at h with hrepeat
  refine ⟨hrepeat, ?_⟩
  split at h
  · rename_i found hfound
    cases h
    exact hfound
  · cases h

/-- A command that the scanner sees at the front comes from a frame. -/
theorem next?_eq_success (hmarker : MarkerAt data 0) {sighting : Sighting}
    (hnext : scanner.next? last data = some sighting)
    (houtcome : sighting.outcome = .success command) :
    ∃ content document, content.length ≤ maxContent ∧
      minLength + content.length ≤ scanner.capacity ∧
      document? content = some document ∧
      Command.ofDocument command.sequence document = .ok command ∧
      data = assemble command.sequence content ++ data.drop sighting.span ∧
      ¬ (scanner.policy = .reject ∧ last = some command.sequence) := by
  simp only [next?, fromMarker_of_markerAt hmarker] at hnext
  split at hnext
  · cases hnext
  · cases hheader : Header.decode data with
    | none =>
      rw [hheader] at hnext
      cases hnext
    | some header =>
      rw [hheader] at hnext
      dsimp only at hnext
      split_ifs at hnext with hlarge hpart
      · cases hnext
        cases houtcome
      · have hall : header.frameLength ≤ data.length := Nat.le_of_not_lt hpart
        obtain rfl : scanner.judge last header data = sighting := Option.some.inj hnext
        simp only [judge] at houtcome ⊢
        split_ifs at houtcome ⊢ with hchecksum
        obtain ⟨hfirst, hcommand⟩ := settle_eq_success houtcome
        have hsequence := sequence_of_commandIn? hcommand
        obtain ⟨document, hdocument, hread⟩ := Option.bind_eq_some_iff.mp hcommand
        have hlength : (contentIn header data).length = header.contentLength.toNat := by
          simp only [Header.frameLength, minLength] at hall
          rw [contentIn, List.length_take, List.length_drop]
          omega
        have hword := header.contentLength.toNat_lt
        refine ⟨contentIn header data, document, ?_, ?_, hdocument, ?_, ?_, ?_⟩
        · simp only [maxContent]
          omega
        · rw [hlength]
          exact Nat.le_of_not_lt hlarge
        · rw [hsequence]
          cases hofDocument : Command.ofDocument header.sequence document with
          | error failure =>
            rw [hofDocument] at hread
            cases hread
          | ok found =>
            rw [hofDocument] at hread
            cases hread
            rfl
        · rw [hsequence, ← take_eq_assemble hheader hall hchecksum, List.take_append_drop]
        · rw [hsequence]
          exact hfirst

/-- The scanner sees the command of a frame at the front, unless it is a
repeat that the policy refuses. -/
theorem next?_of_framed {content later : Bytes} {document : Value}
    (hlength : content.length ≤ maxContent)
    (hfits : minLength + content.length ≤ scanner.capacity)
    (hdocument : document? content = some document)
    (hcommand : Command.ofDocument command.sequence document = .ok command)
    (hfirst : ¬ (scanner.policy = .reject ∧ last = some command.sequence)) :
    scanner.next? last (assemble command.sequence content ++ later) =
      some ⟨.success command, (assemble command.sequence content).length⟩ := by
  rw [next?_assemble hlength hfits, settle, headerFor, if_neg hfirst, ← headerFor,
    commandIn?_assemble hlength hdocument hcommand]

end Scanner

namespace Decoder

/-- A step tells a command exactly if a frame of it stands at the front;
the bytes behind the frame are left. -/
theorem step_success_iff {decoder : Decoder} (hsound : decoder.Sound) {command : Command}
    {rest : Bytes} :
    (∃ after, decoder.step = (.success command, after) ∧ after.ring.toList = rest) ↔
      ∃ content document, content.length ≤ maxContent ∧
        minLength + content.length ≤ decoder.ring.capacity ∧
        document? content = some document ∧
        Command.ofDocument command.sequence document = .ok command ∧
        decoder.ring.toList = assemble command.sequence content ++ rest ∧
        ¬ (decoder.duplicatePolicy = .reject ∧
          decoder.lastSequence = some command.sequence) := by
  constructor
  · rintro ⟨after, hstep, hrest⟩
    have hmove := step_move hsound
    rw [hstep] at hmove
    generalize houtcome : Outcome.success command = outcome at hmove
    cases hmove with
    | wait => cases houtcome
    | gap sighting hgap hpos hle hfree htook htold =>
      rw [← houtcome] at hgap
      cases hgap
    | sight sighting hmarker hnext htook =>
      obtain ⟨content, document, hlength, hfits, hdocument, hcommand, hframe, hfirst⟩ :=
        Scanner.next?_eq_success hmarker hnext houtcome.symm
      rw [← htook.toList, hrest] at hframe
      exact ⟨content, document, hlength, hfits, hdocument, hcommand, hframe, hfirst⟩
  · rintro ⟨content, document, hlength, hfits, hdocument, hcommand, hframe, hfirst⟩
    have hnext : decoder.scanner.next? decoder.lastSequence
        (assemble command.sequence content ++ rest) =
          some ⟨.success command, (assemble command.sequence content).length⟩ :=
      Scanner.next?_of_framed hlength hfits hdocument hcommand hfirst
    have hmarker := markerAt_of_decode (decode_assemble command.sequence content rest)
    rw [← hframe] at hnext hmarker
    obtain ⟨after, hstep, htook⟩ := step_of_next? hsound hmarker hnext
    refine ⟨after, hstep, ?_⟩
    rw [htook.toList, hframe, List.drop_left]

/-- The step of a decoder behind any run of calls tells a command exactly
if the buffered bytes start with a frame that is built around the command:
its content fits the ring, and without one leading marker byte and all
trailing zero bytes it is the text of a document that is read as the
command under the number of the frame.  Only a repeat that the policy
refuses is not told.  Exactly the frame is taken. -/
theorem success_iff_framed (capacity : Nat) (policy : DuplicatePolicy) (legacyMarker : Bool)
    (calls : List Codec.Call) (command : Command) (rest : Bytes) :
    let reached := ((Codec.fresh capacity policy legacyMarker).behind calls).decoder
    (∃ after, reached.step = (.success command, after) ∧ after.ring.toList = rest) ↔
      ∃ content frame document,
        Frame.build command.sequence content = .ok frame ∧
        content.length ≤ reached.ring.capacity - minLength ∧
        Value.ofBytes? (dropPadding (Frame.dropMarker content)) = some document ∧
        Command.ofDocument command.sequence document = .ok command ∧
        reached.ring.toList = frame ++ rest ∧
        ¬ (reached.duplicatePolicy = .reject ∧
          reached.lastSequence = some command.sequence) := by
  intro reached
  have hsound : reached.Sound := (Codec.sound_behind (fresh_sound capacity policy) calls).1
  have hmin := hsound.minLength_le
  rw [step_success_iff hsound]
  constructor
  · rintro ⟨content, document, hlength, hfits, hread⟩
    obtain ⟨hdocument, hcommand, hframe, hfirst⟩ := hread
    exact ⟨content, _, document, build_eq_ok_iff.mpr ⟨hlength, rfl⟩, by omega, hdocument,
      hcommand, hframe, hfirst⟩
  · rintro ⟨content, frame, document, hbuild, hfits, hread⟩
    obtain ⟨hlength, rfl⟩ := build_eq_ok_iff.mp hbuild
    exact ⟨content, document, hlength, by omega, hread⟩

end Decoder

end TestRig
