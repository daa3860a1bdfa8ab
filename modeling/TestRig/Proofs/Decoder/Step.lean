import TestRig.Proofs.Decoder.Scanner

/-!
# One step of the decoder

`step_move` says everything that a step can do, in terms of the list of
buffered bytes: it waits, it drops a gap, or it takes the sighting that the
scanner has at the front.  No later proof opens a stage of the step.

* `Sound` is the invariant of a decoder: the header that it remembers is
  the one at the front of its ring, and its frame fits the ring.
* `Waiting` is the state behind an incomplete outcome.  Such a decoder has
  a free byte (`Waiting.room`), and the scanner sees nothing in its bytes
  (`Waiting.next?`).
* `Took` says how a decoder changes with a sighting.
* `Move` has one constructor for each thing that a step can do;
  `step_of_next?` is the case of a sighting at the front.
-/

namespace TestRig

open Frame

/-- The counters after one more sighting. -/
def DecoderStats.tally (stats : DecoderStats) (sighting : Sighting) : DecoderStats :=
  let discarded := stats.bytesDiscarded + sighting.span
  match sighting.outcome with
  | .incomplete => stats
  | .success _ => { stats with framesDecoded := stats.framesDecoded + 1 }
  | .retry (.skippedGarbage _) => { stats with bytesDiscarded := discarded }
  | .retry (.checksumMismatch _ _) =>
    { stats with checksumFailures := stats.checksumFailures + 1, bytesDiscarded := discarded }
  | .retry (.duplicate _) =>
    { stats with duplicatesDropped := stats.duplicatesDropped + 1, bytesDiscarded := discarded }
  | .retry .undecodableContent =>
    { stats with undecodableFrames := stats.undecodableFrames + 1, bytesDiscarded := discarded }
  | .fault _ => { stats with bytesDiscarded := discarded }

/-! ## The ring of a decoder -/

theorem Ring.hasMarker_iff {ring : Ring} {index : Nat} :
    ring.hasMarker index = true ↔ MarkerAt ring.toList index := by
  simp only [Ring.hasMarker, Ring.at?_eq, MarkerAt]
  cases ring.toList[index]? with
  | none => simp
  | some hi =>
    cases ring.toList[index + 1]? with
    | none => simp
    | some lo => simp [isMarker]

/-- The search finds the least of the offsets that it looks at. -/
theorem Ring.markerFrom?_eq_some {ring : Ring} {count index offset : Nat}
    (h : ring.markerFrom? count index = some offset) :
    MarkerAt ring.toList offset ∧ ∀ i, index ≤ i → i < offset → ¬ MarkerAt ring.toList i := by
  induction count generalizing index with
  | zero => cases h
  | succ count ih =>
    rw [Ring.markerFrom?] at h
    split at h
    · rename_i hmarker
      cases h
      exact ⟨Ring.hasMarker_iff.mp hmarker, fun i hle hlt => absurd hle (by omega)⟩
    · rename_i hnone
      obtain ⟨hat, hbefore⟩ := ih h
      refine ⟨hat, fun i hle hlt => ?_⟩
      by_cases hi : i = index
      · rw [hi, ← Ring.hasMarker_iff]
        exact hnone
      · exact hbefore i (by omega) hlt

theorem Ring.markerFrom?_eq_none {ring : Ring} {count index : Nat}
    (h : ring.markerFrom? count index = none) (i : Nat) (hle : index ≤ i)
    (hlt : i < index + count) : ¬ MarkerAt ring.toList i := by
  induction count generalizing index with
  | zero => omega
  | succ count ih =>
    rw [Ring.markerFrom?] at h
    split at h
    · cases h
    · rename_i hnone
      by_cases hi : i = index
      · rw [hi, ← Ring.hasMarker_iff]
        exact hnone
      · exact ih h (by omega) (by omega)

/-- A ring without a marker is searched to its last pair of bytes. -/
theorem Ring.marker?_eq_none {ring : Ring} (h : ring.marker? = none) (i : Nat) :
    ¬ MarkerAt ring.toList i := by
  intro hmarker
  have hlo := (List.getElem?_eq_some_iff.mp hmarker.2).1
  rw [Ring.length_toList] at hlo
  exact Ring.markerFrom?_eq_none h i (Nat.zero_le _) (by omega) hmarker

namespace Decoder

/-- The scanner with the capacity and the policy of a decoder. -/
def scanner (decoder : Decoder) : Scanner :=
  ⟨decoder.ring.capacity, decoder.duplicatePolicy⟩

/-! ## Invariant -/

/-- The ring holds at least the shortest frame.  A remembered header stands
at the front of the ring, and its frame fits the ring. -/
structure Sound (decoder : Decoder) : Prop where
  minLength_le : minLength ≤ decoder.ring.capacity
  announced : ∀ header, decoder.announced = some header →
    Header.decode decoder.ring.toList = some header ∧
      header.frameLength ≤ decoder.ring.capacity

/-- The bytes of the shortest frame, or of the announced one, are not all
there. -/
def Waiting (decoder : Decoder) : Prop :=
  match decoder.announced with
  | none => decoder.ring.length < minLength
  | some header => decoder.ring.length < header.frameLength

/-- A waiting decoder stays as it is. -/
theorem Waiting.step {decoder : Decoder} (h : decoder.Waiting) :
    decoder.step = (.incomplete, decoder) := by
  obtain ⟨ring, announced, policy, last, stats⟩ := decoder
  unfold Waiting at h
  cases announced with
  | none => simp only [Decoder.step, if_pos h]
  | some header => simp only [Decoder.step, await, if_pos h]

/-- A waiting decoder has a free byte: it waits for a frame that fits. -/
theorem Waiting.room {decoder : Decoder} (h : decoder.Waiting) (hsound : decoder.Sound) :
    decoder.ring.length < decoder.ring.capacity := by
  unfold Waiting at h
  cases hannounced : decoder.announced with
  | none =>
    rw [hannounced] at h
    exact Nat.lt_of_lt_of_le h hsound.minLength_le
  | some header =>
    rw [hannounced] at h
    exact Nat.lt_of_lt_of_le h (hsound.announced header hannounced).2

/-- The scanner sees nothing in the bytes of a waiting decoder. -/
theorem Waiting.next? {decoder : Decoder} (h : decoder.Waiting) (hsound : decoder.Sound) :
    decoder.scanner.next? decoder.lastSequence decoder.ring.toList = none := by
  unfold Waiting at h
  have hlength := decoder.ring.length_toList
  cases hannounced : decoder.announced with
  | none =>
    rw [hannounced] at h
    have hle := length_fromMarker_le decoder.ring.toList
    rw [Scanner.next?, if_pos (by omega)]
  | some header =>
    rw [hannounced] at h
    obtain ⟨hheader, hfits⟩ := hsound.announced header hannounced
    simp only [Scanner.next?, fromMarker_of_markerAt (markerAt_of_decode hheader), hheader,
      scanner]
    split_ifs with hshort hlarge hpart
    · rfl
    · omega
    · rfl
    · omega

/-! ## Taking bytes -/

/-- A decoder that has taken a sighting from its front. -/
structure Took (before after : Decoder) (sighting : Sighting) : Prop where
  toList : after.ring.toList = before.ring.toList.drop sighting.span
  capacity : after.ring.capacity = before.ring.capacity
  policy : after.duplicatePolicy = before.duplicatePolicy
  announced : after.announced = none
  last : after.lastSequence = sighting.outcome.lastAfter before.lastSequence
  stats : after.stats = before.stats.tally sighting

theorem Took.scanner {before after : Decoder} {sighting : Sighting}
    (h : before.Took after sighting) : after.scanner = before.scanner := by
  rw [Decoder.scanner, Decoder.scanner, h.capacity, h.policy]

theorem Took.sound {before after : Decoder} {sighting : Sighting} (h : before.Took after sighting)
    (hsound : before.Sound) : after.Sound where
  minLength_le := by rw [h.capacity]; exact hsound.minLength_le
  announced := by
    intro header hheader
    rw [h.announced] at hheader
    cases hheader

/-- Dropping bytes that are there, behind a count of its own, is a
sighting without a command. -/
theorem discard_took {before : Decoder} {stats : DecoderStats} {outcome : Outcome} {count : Nat}
    (hidle : before.announced = none) (hle : count ≤ before.ring.length)
    (hlast : outcome.lastAfter before.lastSequence = before.lastSequence)
    (hstats : { stats with bytesDiscarded := stats.bytesDiscarded + count } =
      before.stats.tally ⟨outcome, count⟩) :
    before.Took ({ before with stats := stats }.discard count) ⟨outcome, count⟩ := by
  simp only [discard, Nat.min_eq_left hle]
  exact ⟨Ring.toList_consume _ _, Ring.capacity_consume _ _, rfl, hidle, hlast.symm, hstats⟩

/-! ## The stages -/

/-- What a step can do.  A gap may be dropped because no marker starts in
it, whatever comes behind the buffered bytes; the outcome tells its length. -/
inductive Move (decoder : Decoder) : Outcome × Decoder → Prop where
  /-- It waits, and may remember a header. -/
  | wait {after : Decoder} (hwaiting : after.Waiting) (hsound : after.Sound)
      (hsame : after = { decoder with announced := after.announced }) :
      Move decoder (.incomplete, after)
  /-- It drops bytes in which no marker starts. -/
  | gap {after : Decoder} (sighting : Sighting) (hgap : sighting.outcome.isGap = true)
      (hpos : 0 < sighting.span) (hle : sighting.span ≤ decoder.ring.length)
      (hfree : ∀ later i, i < sighting.span → ¬ MarkerAt (decoder.ring.toList ++ later) i)
      (htook : decoder.Took after sighting)
      (htold : sighting.outcome = .retry (.skippedGarbage sighting.span) ∨
        sighting.outcome = .fault (.noHeader sighting.span)) :
      Move decoder (sighting.outcome, after)
  /-- It takes what the scanner sees at the front. -/
  | sight {after : Decoder} (sighting : Sighting) (hmarker : MarkerAt decoder.ring.toList 0)
      (hnext : decoder.scanner.next? decoder.lastSequence decoder.ring.toList = some sighting)
      (htook : decoder.Took after sighting) : Move decoder (sighting.outcome, after)

/-- A step that tells to wait leaves a decoder that waits. -/
theorem Move.waits {decoder after : Decoder} (h : Move decoder (.incomplete, after)) :
    after.Waiting ∧ after.Sound ∧ after = { decoder with announced := after.announced } := by
  generalize houtcome : Outcome.incomplete = outcome at h
  cases h with
  | wait hwaiting hsound hsame => exact ⟨hwaiting, hsound, hsame⟩
  | gap sighting hgap =>
    rw [← houtcome] at hgap
    cases hgap
  | sight sighting hmarker hnext =>
    have hincomplete := (Scanner.isGap_next? hnext).2
    rw [← houtcome] at hincomplete
    cases hincomplete

section Front

variable {decoder : Decoder} {header : Header}

/-- Bytes that start with a header and hold its frame are seen as a frame. -/
theorem next?_of_complete (hheader : Header.decode decoder.ring.toList = some header)
    (hfits : header.frameLength ≤ decoder.ring.capacity)
    (hall : header.frameLength ≤ decoder.ring.length) :
    decoder.scanner.next? decoder.lastSequence decoder.ring.toList =
      some (decoder.scanner.judge decoder.lastSequence header decoder.ring.toList) := by
  have hmin := minLength_le_frameLength header
  simp only [Scanner.next?, fromMarker_of_markerAt (markerAt_of_decode hheader), hheader,
    Ring.length_toList]
  rw [if_neg (by omega), if_neg (by simp only [scanner]; omega), if_neg (by omega)]

theorem content_eq : decoder.content header = contentIn header decoder.ring.toList := by
  show ((decoder.ring.segments _).1 ++ (decoder.ring.segments _).2).drop headerSize = _
  rw [contentIn, Ring.segments_append, List.drop_take]
  congr 1
  simp only [Header.frameLength, minLength, headerSize, checksumSize]
  omega

theorem computedChecksum_eq :
    decoder.computedChecksum header = Checksum.ofBytes (covered header decoder.ring.toList) := by
  show Checksum.ofChunks [(decoder.ring.segments _).1, (decoder.ring.segments _).2] = _
  rw [Checksum.ofChunks_eq, covered, List.flatten_cons, List.flatten_singleton,
    Ring.segments_append]

theorem receivedChecksum_eq (hall : header.frameLength ≤ decoder.ring.length) (computed : UInt16) :
    decoder.receivedChecksum header computed = trailer header decoder.ring.toList := by
  have hmin := minLength_le_frameLength header
  have hlength := decoder.ring.length_toList
  simp only [minLength, headerSize, checksumSize] at hmin
  rw [receivedChecksum, trailer, Ring.word?_eq, Word.at?, checksumSize,
    List.getElem?_eq_getElem (by omega), List.getElem?_eq_getElem (by omega)]
  rfl

theorem command?_eq : decoder.command? header = commandIn? header decoder.ring.toList := by
  rw [command?, commandIn?, content_eq]

theorem isDuplicate_iff : decoder.isDuplicate header = true ↔
    decoder.scanner.policy = .reject ∧ decoder.lastSequence = some header.sequence := by
  simp [isDuplicate, scanner]

/-- A frame with the right checksum is settled as the scanner does. -/
theorem accept_took (hidle : decoder.announced = none)
    (hall : header.frameLength ≤ decoder.ring.length) :
    ∃ after, decoder.accept header =
        (decoder.scanner.settle decoder.lastSequence header decoder.ring.toList, after) ∧
      decoder.Took after
        ⟨decoder.scanner.settle decoder.lastSequence header decoder.ring.toList,
          header.frameLength⟩ := by
  by_cases hduplicate : decoder.isDuplicate header = true
  · have hsettle : decoder.scanner.settle decoder.lastSequence header decoder.ring.toList =
        .retry (.duplicate header.sequence) := if_pos (isDuplicate_iff.mp hduplicate)
    rw [hsettle, accept, if_pos hduplicate]
    exact ⟨_, rfl, discard_took hidle hall rfl rfl⟩
  · rw [accept, if_neg hduplicate, command?_eq, Scanner.settle,
      if_neg (fun h => hduplicate (isDuplicate_iff.mpr h))]
    cases hcommand : commandIn? header decoder.ring.toList with
    | some command =>
      refine ⟨_, rfl, Ring.toList_consume _ _, Ring.capacity_consume _ _, rfl, hidle, ?_, rfl⟩
      show some header.sequence = some command.sequence
      rw [sequence_of_commandIn? hcommand]
    | none => exact ⟨_, rfl, discard_took hidle hall rfl rfl⟩

/-- A frame of which all bytes are there is judged as the scanner does. -/
theorem verify_took (hidle : decoder.announced = none)
    (hall : header.frameLength ≤ decoder.ring.length) :
    ∃ after, decoder.verify header =
        ((decoder.scanner.judge decoder.lastSequence header decoder.ring.toList).outcome,
          after) ∧
      decoder.Took after
        (decoder.scanner.judge decoder.lastSequence header decoder.ring.toList) := by
  have hmin := minLength_le_frameLength header
  simp only [minLength, headerSize, checksumSize] at hmin
  simp only [verify, Scanner.judge, computedChecksum_eq, receivedChecksum_eq hall]
  split_ifs with hequal
  · exact accept_took hidle hall
  · have htwo : 2 ≤ decoder.ring.length := by omega
    exact ⟨_, rfl, discard_took hidle htwo rfl rfl⟩

/-- The stage that waits for the frame of a header. -/
theorem await_move (hheader : Header.decode decoder.ring.toList = some header)
    (hfits : header.frameLength ≤ decoder.ring.capacity)
    (hmin : minLength ≤ decoder.ring.capacity) : Move decoder (decoder.await header) := by
  rw [await]
  split_ifs with hshort
  · refine .wait hshort ⟨hmin, ?_⟩ rfl
    intro other hother
    cases hother
    exact ⟨hheader, hfits⟩
  · have hall : header.frameLength ≤ decoder.ring.length := Nat.le_of_not_lt hshort
    obtain ⟨after, hverify, htook⟩ :=
      @verify_took { decoder with announced := none } header rfl hall
    rw [hverify]
    exact .sight _ (markerAt_of_decode hheader) (next?_of_complete hheader hfits hall)
      ⟨htook.toList, htook.capacity, htook.policy, htook.announced, htook.last, htook.stats⟩

/-- The stage that reads the header behind the marker at the front. -/
theorem readHeader_move (hidle : decoder.announced = none) (hmin : minLength ≤ decoder.ring.length)
    (hmarker : MarkerAt decoder.ring.toList 0) : Move decoder decoder.readHeader := by
  have hlength := decoder.ring.length_toList
  have hcapacity := decoder.ring.length_le
  simp only [minLength, headerSize, checksumSize] at hmin
  obtain ⟨header, hheader, hsequence, hcontent⟩ :=
    decode_of_markerAt hmarker (by simp only [headerSize]; omega)
  simp only [readHeader, Ring.word?_eq, hsequence, hcontent]
  split_ifs with hlarge
  · refine .sight ⟨.fault (.oversized header.contentLength), 1⟩ hmarker ?_ ?_
    · simp only [Scanner.next?, fromMarker_of_markerAt hmarker, hheader, minLength, headerSize,
        checksumSize]
      rw [if_neg (by omega)]
      exact if_pos hlarge
    · have hone : 1 ≤ decoder.ring.length := by omega
      exact discard_took hidle hone rfl rfl
  · refine await_move hheader (Nat.le_of_not_lt hlarge) ?_
    simp only [minLength, headerSize, checksumSize]
    exact Nat.le_trans hmin hcapacity

end Front

/-- The stage that looks for a marker.  Without one, the last byte is kept
if it could be the first half of a marker. -/
theorem seek_move {decoder : Decoder} (hidle : decoder.announced = none)
    (hmin : minLength ≤ decoder.ring.length) : Move decoder decoder.seek := by
  have hlength := decoder.ring.length_toList
  have hpos : 0 < decoder.ring.length := Nat.lt_of_lt_of_le (by decide) hmin
  unfold seek
  split
  · rename_i hfound
    exact readHeader_move hidle hmin (Ring.markerFrom?_eq_some hfound).1
  · rename_i offset hfound
    obtain ⟨hmarker, hbefore⟩ := Ring.markerFrom?_eq_some hfound
    have hinside := (List.getElem?_eq_some_iff.mp hmarker.1).1
    have hle : offset + 1 ≤ decoder.ring.length := by omega
    refine .gap ⟨.retry (.skippedGarbage (offset + 1)), offset + 1⟩ rfl
      (Nat.succ_pos _) hle ?_ (discard_took hidle hle rfl rfl) (Or.inl rfl)
    intro later i hi hearly
    change i < offset + 1 at hi
    exact hbefore i (Nat.zero_le _) hi (markerAt_of_append hearly (by omega))
  · rename_i hnone
    by_cases hhalf : decoder.endsInHalfMarker = true
    · have hle : decoder.ring.length - 1 ≤ decoder.ring.length := Nat.sub_le _ _
      simp only [if_pos hhalf]
      simp only [minLength, headerSize, checksumSize] at hmin
      refine .gap ⟨.fault (.noHeader _), decoder.ring.length - 1⟩ rfl
        (by show 0 < decoder.ring.length - 1; omega) hle ?_ (discard_took hidle hle rfl rfl)
        (Or.inr rfl)
      intro later i hi hearly
      change i < decoder.ring.length - 1 at hi
      exact Ring.marker?_eq_none hnone i (markerAt_of_append hearly (by omega))
    · simp only [if_neg hhalf]
      refine .gap ⟨.fault (.noHeader _), decoder.ring.length⟩ rfl hpos
        (Nat.le_refl _) ?_ (discard_took hidle (Nat.le_refl _) rfl rfl) (Or.inr rfl)
      intro later i hi hearly
      change i < decoder.ring.length at hi
      by_cases hlast : i + 1 < decoder.ring.length
      · exact Ring.marker?_eq_none hnone i (markerAt_of_append hearly (by omega))
      · have hhigh := hearly.1
        rw [List.getElem?_append_left (by omega), show i = decoder.ring.length - 1 by omega] at hhigh
        apply hhalf
        rw [endsInHalfMarker, Ring.at?_eq, hhigh, beq_self_eq_true]

/-- Everything that one step can do. -/
theorem step_move {decoder : Decoder} (hsound : decoder.Sound) : Move decoder decoder.step := by
  unfold step
  split
  · rename_i header hannounced
    obtain ⟨hheader, hfits⟩ := hsound.announced header hannounced
    exact await_move hheader hfits hsound.minLength_le
  · rename_i hidle
    split_ifs with hshort
    · refine .wait ?_ hsound rfl
      rw [Waiting, hidle]
      exact hshort
    · exact seek_move hidle (Nat.le_of_not_lt hshort)

/-- A step takes what the scanner sees at the front. -/
theorem step_of_next? {decoder : Decoder} {sighting : Sighting} (hsound : decoder.Sound)
    (hmarker : MarkerAt decoder.ring.toList 0)
    (hnext : decoder.scanner.next? decoder.lastSequence decoder.ring.toList = some sighting) :
    ∃ after, decoder.step = (sighting.outcome, after) ∧ decoder.Took after sighting := by
  have hmove := step_move hsound
  generalize decoder.step = result at hmove ⊢
  cases hmove with
  | wait hwaiting hafter hsame =>
    -- a decoder that waits has nothing to take
    have hnone := hwaiting.next? hafter
    rw [hsame] at hnone
    exact absurd (hnone.symm.trans hnext) (Option.some_ne_none sighting).symm
  | gap other hgap hpos hle hfree htook htold =>
    have hfront := hfree [] 0 hpos
    rw [List.append_nil] at hfront
    exact absurd hmarker hfront
  | sight other hmarker' hother htook =>
    obtain rfl : other = sighting := Option.some.inj (hother.symm.trans hnext)
    exact ⟨_, rfl, htook⟩

end Decoder

end TestRig
