import TestRig.Proofs.Codec.Directions
import TestRig.Proofs.Decoder.Run

/-!
# What the decoder consumes

A step that does not wait takes bytes from the front of the ring, and its
outcome says how many.  The decoder therefore comes to a wait behind as
many steps as there are bytes at the most, and over a run of calls every
byte that was written is still buffered, was dropped, or belongs to the
frame of a command.

* `Outcome.consumption` is the number of bytes that goes with an outcome.
* `step_waits` and `step_takes` are the two kinds of steps, and
  `exists_waits` repeats them until the decoder waits.
* `Codec.behind` is the codec behind a run of calls, and `Codec.sightings`
  what its steps took.  `follows_call` is one call, `follows_behind` a run
  without a reset.
* `calls_conserve` is the account of every run.
-/

namespace TestRig

open Frame

/-! ## Consumption -/

/-- The length of the frame that the front of a byte string announces. -/
def Frame.announcedLength (data : Bytes) : Nat :=
  (Header.decode data).elim 0 Header.frameLength

namespace Outcome

/-- The number of bytes that a step with an outcome takes from the buffered
ones. -/
def consumption (buffered : Bytes) : Outcome → Nat
  | incomplete => 0
  | success _ => announcedLength buffered
  | retry (.skippedGarbage count) => count
  | retry (.checksumMismatch _ _) => 2
  | retry (.duplicate _) => announcedLength buffered
  | retry .undecodableContent => announcedLength buffered
  | fault (.noHeader dropped) => dropped
  | fault (.oversized _) => 1

/-- A frame became a command. -/
def isSuccess : Outcome → Bool
  | success _ => true
  | _ => false

/-- A frame has a wrong checksum. -/
def isMismatch : Outcome → Bool
  | retry (.checksumMismatch _ _) => true
  | _ => false

/-- The content of a frame is not a command. -/
def isUndecodable : Outcome → Bool
  | retry .undecodableContent => true
  | _ => false

/-- A frame was dropped as a repeat. -/
def isRepeat : Outcome → Bool
  | retry (.duplicate _) => true
  | _ => false

end Outcome

/-- What the scanner sees at the front takes the bytes that its outcome
tells. -/
theorem Scanner.span_eq_consumption {scanner : Scanner} {last : Option UInt16} {data : Bytes}
    {sighting : Sighting} (hmarker : MarkerAt data 0)
    (h : scanner.next? last data = some sighting) :
    sighting.span = sighting.outcome.consumption data := by
  simp only [next?, fromMarker_of_markerAt hmarker] at h
  split at h
  · cases h
  · cases hheader : Header.decode data with
    | none =>
      rw [hheader] at h
      cases h
    | some header =>
      have hlength : announcedLength data = header.frameLength := by
        rw [announcedLength, hheader]
        rfl
      rw [hheader] at h
      dsimp only at h
      split_ifs at h
      · cases h
        rfl
      · cases h
        simp only [judge]
        split_ifs
        · unfold settle
          split_ifs
          · exact hlength.symm
          · split <;> exact hlength.symm
        · rfl

/-! ## Counters along a trace -/

/-- A counter that grows with the sightings of one kind counts them. -/
theorem count_foldl_tally {count : DecoderStats → Nat} {counts : Sighting → Bool}
    (htally : ∀ stats sighting,
      count (stats.tally sighting) = count stats + (counts sighting).toNat)
    (trace : List Sighting) (stats : DecoderStats) :
    count (trace.foldl DecoderStats.tally stats) = count stats + trace.countP counts := by
  induction trace generalizing stats with
  | nil => rfl
  | cons sighting rest ih =>
    rw [List.foldl_cons, ih, htally, List.countP_cons]
    cases counts sighting <;> simp <;> omega

/-- The four counters of frames count the sightings of their kinds. -/
theorem frames_foldl_tally (trace : List Sighting) :
    let stats := trace.foldl DecoderStats.tally {}
    stats.framesDecoded = trace.countP (·.outcome.isSuccess) ∧
      stats.checksumFailures = trace.countP (·.outcome.isMismatch) ∧
      stats.undecodableFrames = trace.countP (·.outcome.isUndecodable) ∧
      stats.duplicatesDropped = trace.countP (·.outcome.isRepeat) := by
  have hcount : ∀ (count : DecoderStats → Nat) (counts : Sighting → Bool),
      count {} = 0 → (∀ stats sighting,
        count (stats.tally sighting) = count stats + (counts sighting).toNat) →
      count (trace.foldl DecoderStats.tally {}) = trace.countP counts := by
    intro count counts hstart htally
    rw [count_foldl_tally htally, hstart, Nat.zero_add]
  refine ⟨hcount (·.framesDecoded) _ rfl ?_, hcount (·.checksumFailures) _ rfl ?_,
    hcount (·.undecodableFrames) _ rfl ?_, hcount (·.duplicatesDropped) _ rfl ?_⟩
  all_goals
    rintro stats ⟨outcome, span⟩
    rcases outcome with _ | _ | ⟨_ | _ | _ | _⟩ | _ <;> rfl

namespace Decoder

/-! ## One step -/

/-- A step that waits changes nothing but the header that it remembers. -/
theorem step_waits {decoder after : Decoder} (hsound : decoder.Sound)
    (hstep : decoder.step = (.incomplete, after)) :
    after = { decoder with announced := after.announced } ∧
      decoder.Follows after [] [] := by
  obtain ⟨_, hafter, hsame⟩ := Move.waits (hstep ▸ step_move hsound)
  refine ⟨hsame, ?_⟩
  rw [hsame] at hafter ⊢
  exact ⟨hafter, rfl, fun _ => rfl, rfl, rfl, rfl, by simp⟩

/-- A step that does not wait takes the bytes that its outcome tells. -/
theorem step_takes {decoder after : Decoder} {outcome : Outcome} (hsound : decoder.Sound)
    (hstep : decoder.step = (outcome, after)) (hincomplete : outcome.isIncomplete = false) :
    let sighting : Sighting := ⟨outcome, outcome.consumption decoder.ring.toList⟩
    0 < sighting.span ∧ sighting.span ≤ decoder.ring.length ∧ decoder.Took after sighting ∧
      decoder.Follows after [] [sighting] := by
  have hmove := step_move hsound
  rw [hstep] at hmove
  -- in both cases the outcome tells the span
  have hsame : ∀ sighting : Sighting,
      sighting.span = sighting.outcome.consumption decoder.ring.toList →
      sighting = ⟨sighting.outcome, sighting.outcome.consumption decoder.ring.toList⟩ := by
    rintro ⟨outcome, span⟩ hspan
    exact congrArg (Sighting.mk outcome) hspan
  cases hmove with
  | wait => cases hincomplete
  | gap sighting hgap hpos hle hfree htook htold =>
    have hfollows := follows_gap hsound hgap hpos hle hfree htook
    have hspan : sighting.span = sighting.outcome.consumption decoder.ring.toList := by
      rcases htold with htold | htold
      · rw [htold]
        rfl
      · rw [htold]
        rfl
    rw [← hsame sighting hspan]
    exact ⟨hpos, hle, htook, hfollows⟩
  | sight sighting hmarker hnext htook =>
    have hfollows := follows_sight hsound hmarker hnext htook
    obtain ⟨hpos, hle⟩ := Scanner.span_next? hnext
    rw [fromMarker_of_markerAt hmarker, Ring.length_toList] at hle
    rw [← hsame sighting (Scanner.span_eq_consumption hmarker hnext)]
    exact ⟨hpos, hle, htook, hfollows⟩

/-! ## Steps one after the other -/

/-- The decoder behind some steps. -/
def stepped (decoder : Decoder) : (count : Nat) → Decoder
  | 0 => decoder
  | count + 1 => decoder.step.2.stepped count

/-- The decoder waits behind as many steps as there are bytes at the most,
because every step before takes one. -/
theorem exists_waits {decoder : Decoder} (hsound : decoder.Sound) :
    ∃ count ≤ decoder.buffered,
      (∀ i < count, (decoder.stepped i).step.1.isIncomplete = false) ∧
        (decoder.stepped count).step.1 = .incomplete := by
  generalize hlength : decoder.ring.length = length
  induction length using Nat.strongRecOn generalizing decoder with
  | ind length ih =>
    generalize hstep : decoder.step = result
    obtain ⟨outcome, after⟩ := result
    cases hincomplete : outcome.isIncomplete with
    | true =>
      refine ⟨0, Nat.zero_le _, fun i hi => absurd hi (Nat.not_lt_zero i), ?_⟩
      show decoder.step.1 = .incomplete
      rw [hstep]
      cases outcome with
      | incomplete => rfl
      | success | retry | fault => cases hincomplete
    | false =>
      obtain ⟨hpos, hle, htook, hfollows⟩ := step_takes hsound hstep hincomplete
      have hshorter := congrArg List.length htook.toList
      rw [List.length_drop, Ring.length_toList, Ring.length_toList] at hshorter
      obtain ⟨count, hcount, hgoes, hlast⟩ :=
        ih after.ring.length (by omega) hfollows.sound rfl
      have hnext : ∀ i, decoder.stepped (i + 1) = after.stepped i := by
        intro i
        rw [stepped, hstep]
      refine ⟨count + 1, ?_, ?_, ?_⟩
      · simp only [buffered] at hcount ⊢
        omega
      · intro i hi
        cases i with
        | zero =>
          show decoder.step.1.isIncomplete = false
          rw [hstep]
          exact hincomplete
        | succ i =>
          rw [hnext]
          exact hgoes i (by omega)
      · rw [hnext]
        exact hlast

end Decoder

namespace Codec

/-! ## Runs of calls -/

/-- The codec behind a run of calls. -/
def behind (codec : Codec) : List Call → Codec
  | [] => codec
  | call :: calls => (codec.call call).2.behind calls

/-- What a call takes from the buffered bytes: the outcome of a step that
does not wait, with its consumption. -/
def sighting? (codec : Codec) : Call → Option Sighting
  | .step =>
    let outcome := codec.decoder.step.1
    if outcome.isIncomplete then none
    else some ⟨outcome, outcome.consumption codec.decoder.ring.toList⟩
  | _ => none

/-- What the calls of a run take, in order. -/
def sightings (codec : Codec) : List Call → List Sighting
  | [] => []
  | call :: calls => (codec.sighting? call).toList ++ (codec.call call).2.sightings calls

/-- The bytes that a call wrote. -/
def written : Call × Answer → Bytes
  | (.write data, .written (.ok ())) => data
  | _ => []

/-- The bytes that the calls of a run wrote, in order. -/
def writtenIn (told : List (Call × Answer)) : Bytes :=
  told.flatMap written

/-- What a call other than a reset does to the decoder. -/
theorem follows_call {codec : Codec} (hsound : codec.decoder.Sound) {call : Call}
    (hkeeps : call ≠ .reset) :
    codec.decoder.Follows (codec.call call).2.decoder (written (call, (codec.call call).1))
      (codec.sighting? call).toList := by
  cases call with
  | write data =>
    simp only [Codec.call]
    cases hwrite : codec.decoder.write data with
    | ok decoder => exact Decoder.follows_write hsound hwrite
    | error failure => exact .refl hsound
  | step =>
    simp only [Codec.call, sighting?]
    generalize hstep : codec.decoder.step = result
    obtain ⟨outcome, after⟩ := result
    cases hincomplete : outcome.isIncomplete with
    | true =>
      rw [if_pos rfl]
      cases outcome with
      | incomplete => exact (Decoder.step_waits hsound hstep).2
      | success | retry | fault => cases hincomplete
    | false =>
      rw [if_neg Bool.false_ne_true]
      obtain ⟨_, _, _, hfollows⟩ := Decoder.step_takes hsound hstep hincomplete
      exact hfollows
  | reset => exact absurd rfl hkeeps
  | encodeFrame content sequence => exact .refl hsound
  | encodeResponse response sequence => exact .refl hsound
  | encodeReport response =>
    obtain ⟨_, _, hkept⟩ := @call_outbound (.encodeReport response) rfl codec codec rfl
    rw [hkept]
    exact .refl hsound

/-- A call of any kind counts what it takes. -/
theorem sound_call {codec : Codec} (hsound : codec.decoder.Sound) (call : Call) :
    (codec.call call).2.decoder.Sound ∧
      (codec.call call).2.decoder.stats =
        (codec.sighting? call).toList.foldl DecoderStats.tally codec.decoder.stats := by
  by_cases hreset : call = .reset
  · subst hreset
    exact ⟨⟨hsound.minLength_le, nofun⟩, rfl⟩
  · have hfollows := follows_call hsound hreset
    exact ⟨hfollows.sound, hfollows.stats⟩

/-- The decoder behind a run of calls is sound, and its counters tell what
the run took. -/
theorem sound_behind {codec : Codec} (hsound : codec.decoder.Sound) (calls : List Call) :
    (codec.behind calls).decoder.Sound ∧
      (codec.behind calls).decoder.stats =
        (codec.sightings calls).foldl DecoderStats.tally codec.decoder.stats := by
  induction calls generalizing codec with
  | nil => exact ⟨hsound, rfl⟩
  | cons call calls ih =>
    obtain ⟨hcall, hstats⟩ := sound_call hsound call
    obtain ⟨hlast, hrest⟩ := ih hcall
    refine ⟨hlast, ?_⟩
    rw [behind, hrest, hstats, sightings, List.foldl_append]

/-- A run without a reset, as one run over the bytes that it wrote. -/
theorem follows_behind {codec : Codec} (hsound : codec.decoder.Sound) {calls : List Call}
    (hkeeps : .reset ∉ calls) :
    codec.decoder.Follows (codec.behind calls).decoder (writtenIn (codec.run calls))
      (codec.sightings calls) := by
  induction calls generalizing codec with
  | nil => exact .refl hsound
  | cons call calls ih =>
    have hcall : call ≠ .reset := fun h => hkeeps (h ▸ List.mem_cons_self)
    have hfirst := follows_call hsound hcall
    have hrest := ih hfirst.sound fun h => hkeeps (List.mem_cons_of_mem _ h)
    exact hfirst.trans hrest

/-- The decoder behind any run of calls.  A step that waits leaves bytes,
last sequence number and counters.  Every other step takes at least one
byte from the front, as many as its outcome tells, and counts them as
dropped unless they are the frame of a command.  Behind as many steps as
there are bytes at the most, the decoder waits.  Without a reset, the bytes
that were written are the buffered ones, the dropped ones and those of the
frames of the commands; and the counters of frames say how often each kind
of outcome was told. -/
theorem calls_conserve (capacity : Nat) (policy : DuplicatePolicy) (legacyMarker : Bool)
    (calls : List Call) :
    let start := fresh capacity policy legacyMarker
    let reached := (start.behind calls).decoder
    let seen := start.sightings calls
    (∀ after, reached.step = (.incomplete, after) →
      after.ring = reached.ring ∧ after.lastSequence = reached.lastSequence ∧
        after.stats = reached.stats) ∧
    (∀ outcome after, reached.step = (outcome, after) → outcome.isIncomplete = false →
      let count := outcome.consumption reached.ring.toList
      0 < count ∧ count ≤ reached.buffered ∧
        after.ring.toList = reached.ring.toList.drop count ∧
        after.stats.bytesDiscarded =
          reached.stats.bytesDiscarded + if outcome.isSuccess then 0 else count) ∧
    (∃ count ≤ reached.buffered,
      (∀ i < count, (reached.stepped i).step.1.isIncomplete = false) ∧
        (reached.stepped count).step.1 = .incomplete) ∧
    (.reset ∉ calls →
      (writtenIn (start.run calls)).length =
        reached.buffered + reached.stats.bytesDiscarded + delivered seen) ∧
    reached.stats.framesDecoded = seen.countP (·.outcome.isSuccess) ∧
    reached.stats.checksumFailures = seen.countP (·.outcome.isMismatch) ∧
    reached.stats.undecodableFrames = seen.countP (·.outcome.isUndecodable) ∧
    reached.stats.duplicatesDropped = seen.countP (·.outcome.isRepeat) := by
  intro start reached seen
  have hfresh : start.decoder.Sound := Decoder.fresh_sound capacity policy
  obtain ⟨hsound, hstats⟩ := sound_behind hfresh calls
  have hzero : start.decoder.stats = {} := rfl
  rw [hzero] at hstats
  refine ⟨?_, ?_, Decoder.exists_waits hsound, ?_, ?_⟩
  · intro after hstep
    obtain ⟨hsame, _⟩ := Decoder.step_waits hsound hstep
    rw [hsame]
    exact ⟨rfl, rfl, rfl⟩
  · intro outcome after hstep hincomplete
    obtain ⟨hpos, hle, htook, _⟩ := Decoder.step_takes hsound hstep hincomplete
    refine ⟨hpos, hle, htook.toList, ?_⟩
    rw [htook.stats]
    rcases outcome with _ | _ | ⟨_ | _ | _ | _⟩ | _ <;> rfl
  · intro hkeeps
    have hdiscarded : reached.buffered + reached.stats.bytesDiscarded + delivered seen =
        0 + 0 + (writtenIn (start.run calls)).length :=
      (follows_behind hfresh hkeeps).discarded
    omega
  · have hframes := frames_foldl_tally (start.sightings calls)
    rw [← hstats] at hframes
    exact hframes

end Codec

end TestRig
