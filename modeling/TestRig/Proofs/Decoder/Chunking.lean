import TestRig.Proofs.Decoder.Run

/-!
# Decoding in pieces

The decoder takes a stream in pieces that the transport happens to
deliver.  `receiveAll_agree` says that the cuts are of no consequence: the
decoder tells what the scanner sees in the whole stream, and two ways of
cutting a stream give the same commands, the same last sequence number,
the same counters but the one for dropped bytes, and the same sum of
dropped and buffered bytes.

The number of dropped bytes on its own does depend on the cuts, because
garbage at the end of a stream may be dropped already or still wait for
the shortest frame to fill up.
-/

namespace TestRig.Decoder

open Frame

/-- Behind two runs over one stream, from one decoder, what is observable
is the same. -/
theorem Follows.agree {before after after' : Decoder} {stream : Bytes}
    {trace trace' : List Sighting} (h : before.Follows after stream trace)
    (h' : before.Follows after' stream trace') (hwaiting : after.Waiting)
    (hwaiting' : after'.Waiting) :
    (trace'.map Sighting.outcome).filterMap Outcome.command? =
        (trace.map Sighting.outcome).filterMap Outcome.command? ∧
      after'.lastSequence = after.lastSequence ∧
      after'.stats.verdicts = after.stats.verdicts ∧
      after'.buffered + after'.stats.bytesDiscarded =
        after.buffered + after.stats.bytesDiscarded := by
  have hnotable : notable trace' = notable trace :=
    (h'.notable_eq hwaiting').trans (h.notable_eq hwaiting).symm
  refine ⟨?_, ?_, ?_, ?_⟩
  · simp only [List.filterMap_map, Function.comp_def]
    rw [← commands_notable trace', hnotable, commands_notable]
  · rw [h'.last, h.last, ← lastBehind_notable _ trace', hnotable, lastBehind_notable]
  · rw [h'.stats, h.stats, ← verdicts_foldl_notable rfl trace', hnotable,
      verdicts_foldl_notable rfl]
  · have hdiscarded := h.discarded
    have hdiscarded' := h'.discarded
    rw [← delivered_notable trace', hnotable, delivered_notable] at hdiscarded'
    simp only [buffered]
    omega

/-- The decoder agrees with the scanner, whatever the cuts, and so do two
runs with each other. -/
theorem receiveAll_agree {capacity : Nat} {policy : DuplicatePolicy} {pieces pieces' : List Bytes}
    (hcapacity : minLength ≤ capacity) (hfits : (fresh capacity policy).Fits pieces)
    (hfits' : (fresh capacity policy).Fits pieces') (hstream : pieces'.flatten = pieces.flatten) :
    ∃ outcomes outcomes' decoder decoder',
      (fresh capacity policy).receiveAll pieces = (.ok outcomes, decoder) ∧
      (fresh capacity policy).receiveAll pieces' = (.ok outcomes', decoder') ∧
      outcomes.filter (fun outcome => !outcome.isGap) =
        (Scanner.scan ⟨capacity, policy⟩ none pieces.flatten).map Sighting.outcome ∧
      decoder.step = (.incomplete, decoder) ∧
      outcomes'.filterMap Outcome.command? = outcomes.filterMap Outcome.command? ∧
      decoder'.lastSequence = decoder.lastSequence ∧
      decoder'.stats.verdicts = decoder.stats.verdicts ∧
      decoder'.buffered + decoder'.stats.bytesDiscarded =
        decoder.buffered + decoder.stats.bytesDiscarded := by
  have hsound := fresh_sound capacity policy
  have hwait := fresh_waiting capacity policy
  obtain ⟨trace, decoder, hrun, hfollows, hwaiting⟩ := receiveAll_of_fits hsound hwait hfits
  obtain ⟨trace', decoder', hrun', hfollows', hwaiting'⟩ := receiveAll_of_fits hsound hwait hfits'
  rw [hstream] at hfollows'
  refine ⟨_, _, decoder, decoder', hrun, hrun', ?_, hwaiting.step,
    hfollows.agree hfollows' hwaiting hwaiting'⟩
  have hscan := hfollows.notable_eq hwaiting
  rw [fresh_scanner hcapacity, fresh_toList, List.nil_append] at hscan
  have hnone : (fresh capacity policy).lastSequence = none := rfl
  rw [List.filter_map, ← hnone, ← hscan]
  rfl

/-- Half a marker, a header with a wrong checksum and a frame, cut before
and within the second marker. -/
theorem receiveAll_agree_split_marker :
    ∃ outcomes outcomes' decoder decoder',
      (fresh 16 .reject).receiveAll
          [[0x3A, 0x3A, 0x3B, 0, 1, 0, 0, 0, 0], [0x3A, 0x3B, 0, 1, 0, 1, 0x31, 0xD4, 0xD4]] =
        (.ok outcomes, decoder) ∧
      (fresh 16 .reject).receiveAll
          [[0x3A, 0x3A], [0x3B, 0, 1, 0, 0, 0, 0, 0x3A], [0x3B, 0, 1, 0, 1, 0x31, 0xD4, 0xD4]] =
        (.ok outcomes', decoder') ∧
      outcomes.filter (fun outcome => !outcome.isGap) =
        (Scanner.scan ⟨16, .reject⟩ none
          [0x3A, 0x3A, 0x3B, 0, 1, 0, 0, 0, 0, 0x3A, 0x3B, 0, 1, 0, 1, 0x31, 0xD4, 0xD4]).map
            Sighting.outcome ∧
      decoder.step = (.incomplete, decoder) ∧
      outcomes'.filterMap Outcome.command? = outcomes.filterMap Outcome.command? ∧
      decoder'.lastSequence = decoder.lastSequence ∧
      decoder'.stats.verdicts = decoder.stats.verdicts ∧
      decoder'.buffered + decoder'.stats.bytesDiscarded =
        decoder.buffered + decoder.stats.bytesDiscarded :=
  receiveAll_agree (by decide) (fits_iff.mpr (by decide +kernel))
    (fits_iff.mpr (by decide +kernel)) rfl

end TestRig.Decoder
