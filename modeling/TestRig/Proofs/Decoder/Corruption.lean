import TestRig.Proofs.Checksum.Polynomial
import TestRig.Proofs.Decoder.Framed

/-!
# Corrupted frames

A frame that is changed on the way is refused, if the change leaves marker
and length alone and is short or of odd weight.  What arrives is a frame of
the announced length, so the decoder checks it at once; and it cannot end
in its own checksum, because then the change would be a multiple of the
divisor.

* `decode_xorBytes` says that the header announces the same length.
* `sealed_of_checksum` says that a frame with the right checksum ends in
  it, so a change that is no multiple of the divisor gives a wrong one.
* `refuses_corrupted` is the result for every decoder that calls lead to.
-/

namespace TestRig

open Frame
open Checksum (bits xorBytes length_xorBytes Sealed)

namespace Frame

/-- A change leaves the marker and the length field of a frame alone. -/
structure SparesFraming (error : Bytes) : Prop where
  markerHigh : error[0]? = some 0
  markerLow : error[1]? = some 0
  lengthHigh : error[4]? = some 0
  lengthLow : error[5]? = some 0

/-- The ones of a change are few enough for the checksum: they lie within
sixteen places, or their number is odd. -/
def Limited (error : Bytes) : Prop :=
  (∃ first, ∀ index, (bits error)[index]? = some true → first ≤ index ∧ index < first + 16) ∨
    Odd ((bits error).count true)

/-- A limited change is no multiple of the divisor. -/
theorem Limited.not_dvd {error : Bytes} (h : Limited error) (hsome : true ∈ bits error) :
    ¬ Checksum.divisor ∣ Checksum.polynomialOf (bits error) := by
  rcases h with ⟨first, hburst⟩ | hodd
  · exact Checksum.not_dvd_of_burst hsome hburst
  · exact Checksum.not_dvd_of_odd hodd

/-- A changed header announces the same length under some number. -/
theorem decode_xorBytes {data error : Bytes} {header : Header} (hspares : SparesFraming error)
    (hheader : Header.decode data = some header) :
    ∃ sequence, Header.decode (xorBytes data error) = some ⟨sequence, header.contentLength⟩ := by
  obtain ⟨hhigh, hlow, hlengthHigh, hlengthLow⟩ := hspares
  rcases error with _ | ⟨e0, _ | ⟨e1, _ | ⟨e2, _ | ⟨e3, _ | ⟨e4, _ | ⟨e5, error⟩⟩⟩⟩⟩⟩
  case cons.cons.cons.cons.cons.cons =>
    obtain rfl : e0 = 0 := Option.some.inj hhigh
    obtain rfl : e1 = 0 := Option.some.inj hlow
    obtain rfl : e4 = 0 := Option.some.inj hlengthHigh
    obtain rfl : e5 = 0 := Option.some.inj hlengthLow
    unfold Header.decode at hheader
    split at hheader
    · rename_i hi lo s1 s0 l1 l0 rest
      split_ifs at hheader with hmarker
      cases hheader
      refine ⟨Word.ofBytes (s1 ^^^ e2) (s0 ^^^ e3), ?_⟩
      simp only [xorBytes, List.zipWith_cons_cons, UInt8.xor_zero, Header.decode, if_pos hmarker]
    · cases hheader
  all_goals
    cases hlengthLow

/-- A frame with the right checksum ends in it. -/
theorem sealed_of_checksum {data : Bytes} {header : Header}
    (hheader : Header.decode data = some header) (hall : header.frameLength = data.length)
    (hchecksum : Checksum.ofBytes (covered header data) = trailer header data) : Sealed data := by
  refine ⟨body header.sequence (contentIn header data), ?_⟩
  rw [← assemble, ← take_eq_assemble hheader (Nat.le_of_eq hall) hchecksum, hall,
    List.take_length]

end Frame

/-- Changed bytes of a frame are judged by their checksum, which is
wrong. -/
theorem Scanner.judge_corrupted (scanner : Scanner) (last : Option UInt16) {sequence : UInt16}
    {content error : Bytes} {header : Header}
    (hlength : error.length = (assemble sequence content).length)
    (hsome : true ∈ bits error) (hlimited : Limited error)
    (hheader : Header.decode (xorBytes (assemble sequence content) error) = some header)
    (hall : header.frameLength = (xorBytes (assemble sequence content) error).length) :
    ∃ computed received,
      scanner.judge last header (xorBytes (assemble sequence content) error) =
        ⟨.retry (.checksumMismatch computed received), 2⟩ := by
  refine ⟨_, _, if_neg ?_⟩
  intro hchecksum
  have hassembled : Sealed (assemble sequence content) := ⟨body sequence content, rfl⟩
  exact hlimited.not_dvd hsome
    (hassembled.dvd_of_xorBytes hlength (sealed_of_checksum hheader hall hchecksum))

namespace Decoder

/-- Writing bytes that fit the ring of an empty decoder. -/
theorem write_of_empty {decoder : Decoder} {data : Bytes} (hempty : decoder.buffered = 0)
    (hfits : data.length ≤ decoder.ring.capacity) :
    ∃ ring, decoder.write data = .ok { decoder with ring := ring } ∧ ring.toList = data := by
  have hlength : decoder.ring.length = 0 := hempty
  have hroom : data.length ≤ decoder.ring.available := by
    rw [Ring.available, hlength]
    exact hfits
  obtain ⟨ring, happend⟩ := Ring.append_eq_ok_iff.mpr hroom
  have hnone : decoder.ring.toList = [] :=
    List.length_eq_zero_iff.mp ((Ring.length_toList _).trans hlength)
  have hlist := Ring.toList_append happend
  rw [hnone, List.nil_append] at hlist
  refine ⟨ring, ?_, hlist⟩
  rw [write, happend]
  rfl

/-- A decoder that buffers a changed frame drops the marker of it. -/
theorem step_of_corrupted {decoder : Decoder} {sequence : UInt16} {content error : Bytes}
    (hsound : decoder.Sound) (hcontent : content.length ≤ maxContent)
    (hlength : error.length = (assemble sequence content).length)
    (hspares : SparesFraming error) (hsome : true ∈ bits error) (hlimited : Limited error)
    (hlist : decoder.ring.toList = xorBytes (assemble sequence content) error) :
    ∃ computed received after,
      decoder.step = (.retry (.checksumMismatch computed received), after) ∧
        decoder.Took after ⟨.retry (.checksumMismatch computed received), 2⟩ := by
  -- the header that arrived announces the length of the frame
  have hdecode := decode_assemble sequence content []
  rw [List.append_nil] at hdecode
  obtain ⟨number, hheader⟩ := decode_xorBytes hspares hdecode
  have hframe : (headerFor sequence content).frameLength = (assemble sequence content).length := by
    rw [frameLength_headerFor hcontent, length_assemble]
  have hall : Header.frameLength ⟨number, (headerFor sequence content).contentLength⟩ =
      (xorBytes (assemble sequence content) error).length := by
    rw [length_xorBytes hlength]
    exact hframe
  obtain ⟨computed, received, hjudge⟩ :=
    decoder.scanner.judge_corrupted decoder.lastSequence hlength hsome hlimited hheader hall
  rw [← hlist] at hheader hall hjudge
  rw [Ring.length_toList] at hall
  have hnext := next?_of_complete hheader (hall.le.trans decoder.ring.length_le) hall.le
  rw [hjudge] at hnext
  obtain ⟨after, hstep, htook⟩ := step_of_next? hsound (markerAt_of_decode hheader) hnext
  exact ⟨computed, received, after, hstep, htook⟩

/-- A decoder behind any run of calls, without buffered bytes and with a
ring that holds a frame, refuses the frame if it arrives with a limited
change that spares marker and length: the first step tells that the
checksum is wrong, drops the two bytes of the marker and changes nothing
else. -/
theorem refuses_corrupted {sequence : UInt16} {content frame error : Bytes}
    (hbuild : Frame.build sequence content = .ok frame) (hlength : error.length = frame.length)
    (hspares : SparesFraming error) (hsome : true ∈ bits error) (hlimited : Limited error)
    (capacity : Nat) (policy : DuplicatePolicy) (legacyMarker : Bool)
    (calls : List Codec.Call) :
    let reached := ((Codec.fresh capacity policy legacyMarker).behind calls).decoder
    reached.buffered = 0 → frame.length ≤ reached.ring.capacity →
    ∃ written computed received after,
      reached.write (xorBytes frame error) = .ok written ∧
      written.step = (.retry (.checksumMismatch computed received), after) ∧
      after.ring.toList = (xorBytes frame error).drop 2 ∧
      after.lastSequence = reached.lastSequence ∧
      after.stats = { reached.stats with
        checksumFailures := reached.stats.checksumFailures + 1
        bytesDiscarded := reached.stats.bytesDiscarded + 2 } := by
  intro reached hempty hfits
  obtain ⟨hcontent, rfl⟩ := build_eq_ok_iff.mp hbuild
  have hsound : reached.Sound := (Codec.sound_behind (fresh_sound capacity policy) calls).1
  have hsize : (xorBytes (assemble sequence content) error).length ≤ reached.ring.capacity := by
    rw [length_xorBytes hlength]
    exact hfits
  obtain ⟨ring, hwrite, hlist⟩ := write_of_empty hempty hsize
  obtain ⟨computed, received, after, hstep, htook⟩ :=
    step_of_corrupted (follows_write hsound hwrite).sound hcontent hlength hspares hsome hlimited
      hlist
  refine ⟨_, computed, received, after, hwrite, hstep, ?_, htook.last, htook.stats⟩
  rw [htook.toList, hlist]

/-- A change at the end of the content and the start of the checksum. -/
theorem refuses_corrupted_across_checksum :
    ∃ written computed received after,
      ((Codec.fresh 16 .reject false).behind []).decoder.write
          (xorBytes [0x3A, 0x3B, 0, 1, 0, 1, 0x31, 0xD4, 0xD4] [0, 0, 0, 0, 0, 0, 1, 0x80, 0]) =
        .ok written ∧
      written.step = (.retry (.checksumMismatch computed received), after) ∧
      after.ring.toList =
        (xorBytes [0x3A, 0x3B, 0, 1, 0, 1, 0x31, 0xD4, 0xD4] [0, 0, 0, 0, 0, 0, 1, 0x80, 0]).drop
          2 ∧
      after.lastSequence = none ∧
      after.stats = { checksumFailures := 1, bytesDiscarded := 2 } := by
  have hbuild : Frame.build 1 [0x31] = .ok [0x3A, 0x3B, 0, 1, 0, 1, 0x31, 0xD4, 0xD4] := by
    decide +kernel
  have hlimited : Limited [0, 0, 0, 0, 0, 0, 1, 0x80, 0] := by
    refine .inl ⟨55, fun index hindex => ?_⟩
    have hinside := (List.getElem?_eq_some_iff.mp hindex).1
    have hplaces : ∀ index < 72, (bits [0, 0, 0, 0, 0, 0, 1, 0x80, 0])[index]? = some true →
        55 ≤ index ∧ index < 55 + 16 := by decide +kernel
    exact hplaces index hinside hindex
  have hsome : true ∈ bits [0, 0, 0, 0, 0, 0, 1, 0x80, 0] := by decide +kernel
  have hspares : SparesFraming [0, 0, 0, 0, 0, 0, 1, 0x80, 0] := ⟨rfl, rfl, rfl, rfl⟩
  exact refuses_corrupted hbuild (by decide) hspares hsome hlimited 16 .reject false []
    (by decide) (by decide)

end Decoder

end TestRig
