import TestRig.Proofs.Decoder.RoundTrip
import Mathlib.Order.Nat

/-!
# Resynchronization

Garbage in front of a frame may hold markers.  One that announces too long
a frame costs the decoder one byte, one whose frame has a wrong checksum
costs two, and bytes without a marker are dropped as a gap.
`receiveAll_resync` says that none of these reaches into the frame: it is
the first that becomes a command, and exactly the garbage was dropped.

* `FalseMarker` is a marker that opens no frame, and `Buried` a frame
  behind garbage in which every marker is false.  `Buried.sighting` says
  what the scanner sees at a marker up to the frame.
* `trail` is a run of the decoder step by step, each outcome with the
  decoder behind it; `receiveAll_eq_trail` says that it is the run.
* `Nears` is the invariant: the decoder has dropped a part of the garbage
  and nothing else, and has read no command.  `Nears.step` is one step,
  and `Nears.trail` a whole run.
-/

namespace TestRig

open Frame

namespace Frame

/-! ## False markers -/

instance (data : Bytes) (index : Nat) : Decidable (MarkerAt data index) :=
  inferInstanceAs (Decidable (_ ∧ _))

/-- The marker at a place of a stream opens no frame: what it announces is
longer than the capacity, or is all there and has a wrong checksum. -/
def FalseMarker (capacity : Nat) (stream : Bytes) (index : Nat) : Prop :=
  ∀ header ∈ Header.decode (stream.drop index),
    capacity < header.frameLength ∨
      index + header.frameLength ≤ stream.length ∧
        Checksum.ofBytes (covered header (stream.drop index)) ≠
          trailer header (stream.drop index)

instance (capacity : Nat) (stream : Bytes) (index : Nat) :
    Decidable (FalseMarker capacity stream index) :=
  inferInstanceAs (Decidable (∀ _ ∈ _, _))

theorem markerAt_drop {data : Bytes} {index count : Nat} :
    MarkerAt (data.drop count) index ↔ MarkerAt data (count + index) := by
  rw [MarkerAt, MarkerAt, List.getElem?_drop, List.getElem?_drop, Nat.add_assoc]

theorem markerAt_append {data : Bytes} {index : Nat} (h : MarkerAt data index) (later : Bytes) :
    MarkerAt (data ++ later) index := by
  obtain ⟨hhi, hlo⟩ := h
  refine ⟨?_, ?_⟩
  · rw [List.getElem?_append_left (List.getElem?_eq_some_iff.mp hhi).1, hhi]
  · rw [List.getElem?_append_left (List.getElem?_eq_some_iff.mp hlo).1, hlo]

/-- Where a marker stands, there is a first one, and the search finds it. -/
theorem fromMarker_eq_drop {data : Bytes} {index : Nat} (h : MarkerAt data index) :
    ∃ first ≤ index, MarkerAt data first ∧ fromMarker data = data.drop first := by
  have hexists : ∃ i, MarkerAt data i := ⟨index, h⟩
  have hfirst := Nat.find_spec hexists
  refine ⟨Nat.find hexists, Nat.find_min' hexists h, hfirst, ?_⟩
  have hbefore : ∀ i, i < Nat.find hexists → ¬ MarkerAt data i :=
    fun i hi => Nat.find_min hexists hi
  have hfront : MarkerAt (data.drop (Nat.find hexists)) 0 := markerAt_drop.mpr hfirst
  rw [← fromMarker_drop hbefore, fromMarker_of_markerAt hfront]

end Frame

/-! ## A frame behind garbage -/

/-- An outcome without a command leaves the last sequence number. -/
theorem lastAfter_of_command? {outcome : Outcome} (h : outcome.command? = none)
    (last : Option UInt16) : outcome.lastAfter last = last := by
  cases outcome with
  | success command => cases h
  | incomplete | retry | fault => rfl

namespace Scanner

/-- At a false marker at most two bytes are given up. -/
theorem next?_of_falseMarker {scanner : Scanner} {last : Option UInt16} {data : Bytes}
    {header : Header} (hheader : Header.decode data = some header)
    (hlong : minLength ≤ data.length)
    (hfalse : scanner.capacity < header.frameLength ∨ header.frameLength ≤ data.length ∧
      Checksum.ofBytes (covered header data) ≠ trailer header data) :
    ∃ sighting, scanner.next? last data = some sighting ∧ sighting.span ≤ 2 ∧
      sighting.outcome.command? = none := by
  have hfront : fromMarker data = data := fromMarker_of_markerAt (markerAt_of_decode hheader)
  simp only [next?, hfront, hheader]
  rw [if_neg (by omega)]
  by_cases hlarge : scanner.capacity < header.frameLength
  · rw [if_pos hlarge]
    exact ⟨_, rfl, Nat.le_succ 1, rfl⟩
  · obtain ⟨hall, hwrong⟩ := hfalse.resolve_left hlarge
    rw [if_neg hlarge, if_neg (by omega), judge, if_neg hwrong]
    exact ⟨_, rfl, Nat.le_refl 2, rfl⟩

/-- A frame behind garbage in which every marker is false.  A scanner that
has read no command before reads the frame as one. -/
structure Buried (scanner : Scanner) (garbage frame tail : Bytes) (command : Command) : Prop where
  marker : MarkerAt (frame ++ tail) 0
  next : scanner.next? none (frame ++ tail) = some ⟨.success command, frame.length⟩
  minLength_le : minLength ≤ frame.length
  allFalse : ∀ i, MarkerAt garbage i → FalseMarker scanner.capacity (garbage ++ (frame ++ tail)) i

section Buried

variable {scanner : Scanner} {garbage frame tail : Bytes} {command : Command} {index : Nat}

/-- The last byte of the garbage and the first one of the frame are no
marker. -/
theorem Buried.markerAt_garbage (h : scanner.Buried garbage frame tail command)
    (hmarker : MarkerAt (garbage ++ (frame ++ tail)) index) (hindex : index < garbage.length) :
    MarkerAt garbage index := by
  refine markerAt_of_append hmarker ?_
  by_contra hlast
  have hlo := hmarker.2
  rw [List.getElem?_append_right (by omega), show index + 1 - garbage.length = 0 by omega,
    h.marker.1] at hlo
  exact absurd hlo (by decide)

/-- At a marker up to the frame the scanner sees the frame, or gives up
bytes of the garbage. -/
theorem Buried.sighting (h : scanner.Buried garbage frame tail command)
    (hmarker : MarkerAt (garbage ++ (frame ++ tail)) index) (hindex : index ≤ garbage.length) :
    ∃ sighting, scanner.next? none ((garbage ++ (frame ++ tail)).drop index) = some sighting ∧
      (index = garbage.length ∧ sighting = ⟨.success command, frame.length⟩ ∨
        index + sighting.span ≤ garbage.length ∧ sighting.outcome.command? = none) := by
  by_cases hend : index = garbage.length
  · refine ⟨_, ?_, Or.inl ⟨hend, rfl⟩⟩
    rw [hend, List.drop_left, h.next]
  · have hlt : index < garbage.length := by omega
    have hin : MarkerAt garbage index := h.markerAt_garbage hmarker hlt
    have htwo : index + 1 < garbage.length := (List.getElem?_eq_some_iff.mp hin.2).1
    have hlong := h.minLength_le
    have hlength : ((garbage ++ (frame ++ tail)).drop index).length =
        garbage.length + (frame.length + tail.length) - index := by
      rw [List.length_drop, List.length_append, List.length_append]
    have hheaderSize : headerSize ≤ minLength := Nat.le_add_right _ _
    obtain ⟨header, hheader, _⟩ :=
      decode_of_markerAt (markerAt_drop.mpr hmarker) (by omega)
    have hfalse := h.allFalse index hin header hheader
    rw [List.length_append, List.length_append] at hfalse
    obtain ⟨sighting, hnext, hspan, hcommand⟩ :=
      @next?_of_falseMarker scanner none _ header hheader (by omega)
        (hfalse.imp_right fun hwrong => ⟨by omega, hwrong.2⟩)
    exact ⟨sighting, hnext, Or.inr ⟨by omega, hcommand⟩⟩

/-- From any place up to the frame on, the scanner sees something. -/
theorem Buried.next?_ne_none (h : scanner.Buried garbage frame tail command)
    (hindex : index ≤ garbage.length) :
    scanner.next? none ((garbage ++ (frame ++ tail)).drop index) ≠ none := by
  have hframe : MarkerAt ((garbage ++ (frame ++ tail)).drop index) (garbage.length - index) := by
    rw [markerAt_drop, show index + (garbage.length - index) = garbage.length by omega,
      ← Nat.add_zero garbage.length, ← markerAt_drop, List.drop_left]
    exact h.marker
  obtain ⟨first, hfirst, hmarker, hfrom⟩ := fromMarker_eq_drop hframe
  rw [markerAt_drop] at hmarker
  rw [List.drop_drop] at hfrom
  obtain ⟨sighting, hnext, _⟩ := h.sighting hmarker (by omega)
  have hfront : fromMarker ((garbage ++ (frame ++ tail)).drop (index + first)) =
      (garbage ++ (frame ++ tail)).drop (index + first) :=
    fromMarker_of_markerAt (markerAt_drop.mpr hmarker)
  simp only [next?, hfrom]
  simp only [next?, hfront] at hnext
  rw [hnext]
  exact Option.some_ne_none sighting

end Buried

end Scanner

namespace Decoder

/-! ## Runs step by step -/

/-- The steps of a drain, each outcome with the decoder behind it. -/
def drainTrail : (fuel : Nat) → Decoder → List (Outcome × Decoder)
  | 0, _ => []
  | fuel + 1, decoder =>
    match decoder.step with
    | (.incomplete, _) => []
    | (outcome, decoder) => (outcome, decoder) :: drainTrail fuel decoder

/-- The steps of a run over pieces that are received one after the other. -/
def trail (decoder : Decoder) : List Bytes → List (Outcome × Decoder)
  | [] => []
  | piece :: rest =>
    match decoder.write piece with
    | .error _ => []
    | .ok written =>
      drainTrail (written.ring.length + 1) written ++ written.drain.2.trail rest

theorem drainTrail_succ {decoder after : Decoder} {outcome : Outcome}
    (hstep : decoder.step = (outcome, after)) (h : outcome.isIncomplete = false) (fuel : Nat) :
    drainTrail (fuel + 1) decoder = (outcome, after) :: drainTrail fuel after := by
  rw [drainTrail, hstep]
  cases outcome with
  | incomplete => cases h
  | success | retry | fault => rfl

theorem drainLoop_eq_trail (fuel : Nat) (told : List Outcome) (decoder : Decoder) :
    (drainLoop fuel told decoder).1 =
      told.reverse ++ (drainTrail fuel decoder).map Prod.fst := by
  induction fuel generalizing told decoder with
  | zero => rw [drainLoop, drainTrail, List.map_nil, List.append_nil]
  | succ fuel ih =>
    generalize hstep : decoder.step = result
    obtain ⟨outcome, after⟩ := result
    cases hincomplete : outcome.isIncomplete with
    | true =>
      cases outcome with
      | incomplete => simp only [drainLoop, drainTrail, hstep, List.map_nil, List.append_nil]
      | success | retry | fault => cases hincomplete
    | false =>
      rw [drainLoop_succ hstep hincomplete, drainTrail_succ hstep hincomplete, ih,
        List.reverse_cons, List.append_assoc, List.map_cons, List.singleton_append]

theorem receiveAll_go_eq_trail {pieces : List Bytes} {decoder : Decoder} (told : List Outcome)
    (hfits : decoder.Fits pieces) :
    (receiveAll.go told decoder pieces).1 =
      .ok (told.reverse ++ (decoder.trail pieces).map Prod.fst) := by
  induction pieces generalizing decoder told with
  | nil => rw [receiveAll.go, trail, List.map_nil, List.append_nil]
  | cons piece rest ih =>
    obtain ⟨outcomes, after, hreceive⟩ := receive_eq_ok_iff.mpr hfits.1
    have hrest := hfits.2 outcomes after hreceive
    rw [receiveAll.go, hreceive, trail]
    rw [receive] at hreceive
    cases hwrite : decoder.write piece with
    | error failure =>
      rw [hwrite] at hreceive
      cases hreceive
    | ok written =>
      rw [hwrite] at hreceive
      have hdrain : written.drain = (outcomes, after) := Except.ok.inj hreceive
      have htold := drainLoop_eq_trail (written.ring.length + 1) [] written
      rw [← drain, hdrain, List.reverse_nil, List.nil_append] at htold
      dsimp only at htold ⊢
      rw [ih _ hrest, hdrain, htold]
      simp only [List.reverse_append, List.reverse_reverse, List.map_append, List.append_assoc]

/-- The outcomes of a run are those of its steps. -/
theorem receiveAll_eq_trail {pieces : List Bytes} {decoder : Decoder}
    (hfits : decoder.Fits pieces) :
    (decoder.receiveAll pieces).1 = .ok ((decoder.trail pieces).map Prod.fst) :=
  receiveAll_go_eq_trail [] hfits

/-! ## Nearing the frame -/

/-- A decoder that has dropped a part of the garbage and nothing else, and
has read no command.  `later` are the bytes that have not come yet. -/
structure Nears (decoder : Decoder) (garbage rest later : Bytes) : Prop where
  sound : decoder.Sound
  dropped_le : decoder.stats.bytesDiscarded ≤ garbage.length
  ahead : decoder.ring.toList ++ later =
    (garbage ++ rest).drop decoder.stats.bytesDiscarded
  last : decoder.lastSequence = none

/-- The steps of a run up to the first command: exactly the garbage was
dropped before it, and what is buffered behind it is the front of the
tail. -/
def Arrives (command : Command) (garbage tail later : Bytes)
    (steps : List (Outcome × Decoder)) : Prop :=
  ∃ early after late, steps = early ++ (.success command, after) :: late ∧
    (∀ step ∈ early, step.1.command? = none) ∧
    after.stats.bytesDiscarded = garbage.length ∧ after.ring.toList ++ later = tail

section Nearing

variable {decoder : Decoder} {garbage frame tail later : Bytes} {command : Command}

theorem Arrives.append_left {steps : List (Outcome × Decoder)}
    (h : Arrives command garbage tail later steps) {first : List (Outcome × Decoder)}
    (hfirst : ∀ step ∈ first, step.1.command? = none) :
    Arrives command garbage tail later (first ++ steps) := by
  obtain ⟨early, after, late, rfl, hearly, hafter⟩ := h
  refine ⟨first ++ early, after, late, (List.append_assoc ..).symm, ?_, hafter⟩
  intro step hstep
  exact (List.mem_append.mp hstep).elim (hfirst step) (hearly step)

theorem Arrives.append_right {steps : List (Outcome × Decoder)}
    (h : Arrives command garbage tail later steps) (last : List (Outcome × Decoder)) :
    Arrives command garbage tail later (steps ++ last) := by
  obtain ⟨early, after, late, rfl, hafter⟩ := h
  exact ⟨early, after, late ++ last, by rw [List.append_assoc, List.cons_append], hafter⟩

theorem ahead_of_took {after : Decoder} {sighting : Sighting} {count : Nat} {stream : Bytes}
    (htook : decoder.Took after sighting) (hle : sighting.span ≤ decoder.ring.length)
    (hahead : decoder.ring.toList ++ later = stream.drop count) :
    after.ring.toList ++ later = stream.drop (count + sighting.span) := by
  rw [← List.drop_drop, ← hahead, htook.toList,
    List.drop_append_of_le_length (by rw [Ring.length_toList]; exact hle)]

/-- Bytes of the garbage that are dropped bring the decoder nearer. -/
theorem Nears.took {after : Decoder} {sighting : Sighting} {rest : Bytes}
    (h : decoder.Nears garbage rest later) (htook : decoder.Took after sighting)
    (hle : sighting.span ≤ decoder.ring.length)
    (hwithin : decoder.stats.bytesDiscarded + sighting.span ≤ garbage.length)
    (hcommand : sighting.outcome.command? = none)
    (hincomplete : sighting.outcome.isIncomplete = false) : after.Nears garbage rest later := by
  have hcount : after.stats.bytesDiscarded =
      decoder.stats.bytesDiscarded + sighting.span := by
    have htally := bytesDiscarded_tally hincomplete decoder.stats
    rwa [delivered, hcommand, ← htook.stats] at htally
  refine ⟨htook.sound h.sound, ?_, ?_, ?_⟩
  · rw [hcount]
    exact hwithin
  · rw [hcount]
    exact ahead_of_took htook hle h.ahead
  · rw [htook.last, lastAfter_of_command? hcommand, h.last]

/-- One step of a decoder that nears the frame: it waits, or drops bytes of
the garbage, or reads the frame. -/
theorem Nears.step (hburied : decoder.scanner.Buried garbage frame tail command)
    (h : decoder.Nears garbage (frame ++ tail) later) {outcome : Outcome} {after : Decoder}
    (hstep : decoder.step = (outcome, after)) :
    after.scanner = decoder.scanner ∧
      (outcome = .incomplete ∧ after.Nears garbage (frame ++ tail) later ∧ after.Waiting ∨
        outcome.isIncomplete = false ∧ after.ring.length < decoder.ring.length ∧
          (outcome.command? = none ∧ after.Nears garbage (frame ++ tail) later ∨
            outcome = .success command ∧ after.stats.bytesDiscarded = garbage.length ∧
              after.ring.toList ++ later = tail)) := by
  have hmove := step_move h.sound
  rw [hstep] at hmove
  have hlength := decoder.ring.length_toList
  cases hmove with
  | wait hwaiting hsound hsame =>
    refine ⟨by rw [hsame]; rfl, Or.inl ⟨rfl, ?_, hwaiting⟩⟩
    rw [hsame] at hsound ⊢
    exact ⟨hsound, h.dropped_le, h.ahead, h.last⟩
  | gap sighting hgap hpos hle hfree htook =>
    -- the marker of the frame is not in the gap, so the gap ends before it
    have hwithin : decoder.stats.bytesDiscarded + sighting.span ≤ garbage.length := by
      by_contra hover
      have hbefore := h.dropped_le
      refine hfree later (garbage.length - decoder.stats.bytesDiscarded) (by omega) ?_
      rw [h.ahead, markerAt_drop, Nat.add_sub_cancel' hbefore, ← Nat.add_zero garbage.length,
        ← markerAt_drop, List.drop_left]
      exact hburied.marker
    obtain ⟨_, hincomplete⟩ :=
      (follows_gap h.sound hgap hpos hle hfree htook).progress sighting (List.mem_singleton_self _)
    have hcommand := (command?_of_isGap hgap).1
    refine ⟨htook.scanner, Or.inr ⟨hincomplete, ?_, Or.inl ⟨hcommand, ?_⟩⟩⟩
    · rw [← Ring.length_toList, htook.toList, List.length_drop]
      omega
    · exact h.took htook hle hwithin hcommand hincomplete
  | sight sighting hmarker hnext htook =>
    obtain ⟨hpos, hle⟩ := Scanner.span_next? hnext
    rw [fromMarker_of_markerAt hmarker, hlength] at hle
    have hincomplete := (Scanner.isGap_next? hnext).2
    have hahead := h.ahead
    rw [h.last] at hnext
    have hlater := Scanner.next?_append hmarker hnext later
    have hplace := markerAt_append hmarker later
    rw [hahead] at hlater hplace
    rw [markerAt_drop, Nat.add_zero] at hplace
    obtain ⟨seen, hseen, hcases⟩ := hburied.sighting hplace h.dropped_le
    rw [hseen] at hlater
    cases hlater
    refine ⟨htook.scanner, Or.inr ⟨hincomplete, ?_, ?_⟩⟩
    · rw [← Ring.length_toList, htook.toList, List.length_drop]
      omega
    · rcases hcases with ⟨hend, rfl⟩ | ⟨hwithin, hcommand⟩
      · refine Or.inr ⟨rfl, ?_, ?_⟩
        · rw [htook.stats]
          exact hend
        · have htail := ahead_of_took htook hle hahead
          rw [hend, ← List.append_assoc] at htail
          rwa [List.drop_left' (List.length_append ..)] at htail
      · exact Or.inl ⟨hcommand, h.took htook hle hwithin hcommand hincomplete⟩

/-- The steps of a drain arrive at the frame, or the decoder is still
nearing it and waits. -/
theorem Nears.drainTrail (hburied : decoder.scanner.Buried garbage frame tail command)
    (h : decoder.Nears garbage (frame ++ tail) later) {fuel : Nat}
    (hfuel : decoder.ring.length < fuel) (told : List Outcome) :
    Arrives command garbage tail later (Decoder.drainTrail fuel decoder) ∨
      (∀ step ∈ Decoder.drainTrail fuel decoder, step.1.command? = none) ∧
        (drainLoop fuel told decoder).2.Nears garbage (frame ++ tail) later ∧
        (drainLoop fuel told decoder).2.scanner = decoder.scanner ∧
        (drainLoop fuel told decoder).2.Waiting := by
  induction fuel generalizing decoder told with
  | zero => omega
  | succ fuel ih =>
    generalize hstep : decoder.step = result
    obtain ⟨outcome, after⟩ := result
    obtain ⟨hscanner, ⟨rfl, hnears, hwaiting⟩ | ⟨hincomplete, hshorter, hcases⟩⟩ :=
      Nears.step hburied h hstep
    · rw [Decoder.drainTrail, drainLoop, hstep]
      exact Or.inr ⟨fun step hmem => absurd hmem List.not_mem_nil, hnears, hscanner, hwaiting⟩
    · rw [drainTrail_succ hstep hincomplete, drainLoop_succ hstep hincomplete]
      rcases hcases with ⟨hcommand, hnears⟩ | ⟨rfl, hcount, htail⟩
      · have hfirst : ∀ step ∈ [(outcome, after)], step.1.command? = none := by
          intro step hmem
          rw [List.mem_singleton.mp hmem]
          exact hcommand
        rw [← hscanner] at hburied
        rcases ih hburied hnears (by omega) (outcome :: told) with harrives | ⟨hnone, hlast⟩
        · exact Or.inl (harrives.append_left hfirst)
        · rw [hscanner] at hlast
          refine Or.inr ⟨?_, hlast⟩
          intro step hmem
          rcases List.mem_cons.mp hmem with rfl | hrest
          · exact hcommand
          · exact hnone step hrest
      · exact Or.inl ⟨[], after, _, rfl, fun step hmem => absurd hmem List.not_mem_nil,
          hcount, htail⟩

/-- Bytes that come in are the next ones of the stream. -/
theorem Nears.write {written : Decoder} {piece rest : Bytes}
    (h : decoder.Nears garbage rest (piece ++ later)) (hwrite : decoder.write piece = .ok written) :
    written.Nears garbage rest later ∧ written.scanner = decoder.scanner := by
  have hfollows := follows_write h.sound hwrite
  have hstats : written.stats = decoder.stats := hfollows.stats
  have hlist : written.ring.toList = decoder.ring.toList ++ piece := by
    rw [Decoder.write] at hwrite
    cases happend : decoder.ring.append piece with
    | error failure =>
      rw [happend] at hwrite
      cases hwrite
    | ok ring =>
      rw [happend] at hwrite
      cases hwrite
      exact Ring.toList_append happend
  refine ⟨⟨hfollows.sound, ?_, ?_, ?_⟩, hfollows.scanner⟩
  · rw [hstats]
    exact h.dropped_le
  · rw [hstats, hlist, List.append_assoc, h.ahead]
  · exact hfollows.last.trans h.last

/-- A run over pieces that fit arrives at the frame.  A decoder that is
still nearing it at the end of the stream would wait for bytes, but the
scanner sees something in those that it holds. -/
theorem Nears.trail {pieces : List Bytes}
    (hburied : decoder.scanner.Buried garbage frame tail command)
    (h : decoder.Nears garbage (frame ++ tail) pieces.flatten) (hwaiting : decoder.Waiting)
    (hfits : decoder.Fits pieces) :
    ∃ later, Arrives command garbage tail later (decoder.trail pieces) := by
  induction pieces generalizing decoder with
  | nil =>
    have hnone := hwaiting.next? h.sound
    have hahead := h.ahead
    rw [List.flatten_nil, List.append_nil] at hahead
    rw [h.last, hahead] at hnone
    exact absurd hnone (hburied.next?_ne_none h.dropped_le)
  | cons piece rest ih =>
    obtain ⟨outcomes, after, hreceive⟩ := receive_eq_ok_iff.mpr hfits.1
    have hrest := hfits.2 outcomes after hreceive
    rw [receive] at hreceive
    rw [List.flatten_cons] at h
    cases hwrite : decoder.write piece with
    | error failure =>
      rw [hwrite] at hreceive
      cases hreceive
    | ok written =>
      rw [hwrite] at hreceive
      have hdrain : written.drain = (outcomes, after) := Except.ok.inj hreceive
      obtain ⟨hnears, hscanner⟩ := h.write hwrite
      rw [← hscanner] at hburied
      rw [Decoder.trail, hwrite]
      dsimp only
      rcases hnears.drainTrail hburied (Nat.lt_succ_self _) [] with harrives | ⟨hnone, hlast⟩
      · exact ⟨_, harrives.append_right _⟩
      · rw [← drain, hdrain] at hlast
        rw [hdrain]
        obtain ⟨hnears', hscanner', hwaiting'⟩ := hlast
        obtain ⟨later, harrives⟩ := ih (by rw [hscanner']; exact hburied) hnears' hwaiting' hrest
        exact ⟨later, harrives.append_left hnone⟩

end Nearing

theorem fresh_nears {capacity : Nat} {policy : DuplicatePolicy} (garbage rest : Bytes) :
    (fresh capacity policy).Nears garbage rest (garbage ++ rest) where
  sound := fresh_sound capacity policy
  dropped_le := Nat.zero_le _
  ahead := by
    rw [fresh_toList]
    rfl
  last := rfl

/-- The frame of a command behind garbage with false markers only. -/
theorem buried_assemble {scanner : Scanner} {sequence : UInt16} {content garbage tail : Bytes}
    {command : Command} (h : content.length ≤ maxContent)
    (hfits : (assemble sequence content).length ≤ scanner.capacity)
    (hcommand : commandIn? (headerFor sequence content) (assemble sequence content) =
      some command)
    (hfalse : ∀ i, MarkerAt garbage i →
      FalseMarker scanner.capacity (garbage ++ (assemble sequence content ++ tail)) i) :
    scanner.Buried garbage (assemble sequence content) tail command where
  marker := markerAt_of_decode (decode_assemble sequence content tail)
  next := by
    rw [length_assemble] at hfits
    rw [Scanner.next?_assemble h hfits, Scanner.settle, hcommand, if_neg]
    rintro ⟨_, hlast⟩
    cases hlast
  minLength_le := by
    rw [length_assemble]
    exact Nat.le_add_right _ _
  allFalse := hfalse

/-- A decoder finds the frame of a command behind garbage, whatever the
policy for repeats and the cuts of the stream, provided that every marker
in the garbage announces a frame that is larger than the ring, or that is
all there with a wrong checksum.  No command is read before it; when it is
read, exactly the garbage was dropped, and of the bytes behind the frame
none. -/
theorem receiveAll_resync {capacity : Nat} {policy : DuplicatePolicy} {sequence : UInt16}
    {content garbage frame tail : Bytes} {document : Json.Value} {command : Command}
    {pieces : List Bytes} (hframe : Frame.build sequence content = .ok frame)
    (hlength : frame.length ≤ capacity) (hdocument : document? content = some document)
    (hcommand : Command.ofDocument sequence document = .ok command)
    (hfalse : ∀ i, MarkerAt garbage i → FalseMarker capacity (garbage ++ (frame ++ tail)) i)
    (hstream : pieces.flatten = garbage ++ (frame ++ tail))
    (hfits : (fresh capacity policy).Fits pieces) :
    ∃ early after late,
      (fresh capacity policy).trail pieces = early ++ (.success command, after) :: late ∧
      ((fresh capacity policy).receiveAll pieces).1 =
        .ok (early.map Prod.fst ++ .success command :: late.map Prod.fst) ∧
      (∀ step ∈ early, step.1.command? = none) ∧
      after.stats.bytesDiscarded = garbage.length ∧
      ∃ later, after.ring.toList ++ later = tail := by
  obtain ⟨hcontent, rfl⟩ := build_eq_ok_iff.mp hframe
  have hcapacity : minLength ≤ capacity := by
    rw [length_assemble] at hlength
    omega
  have hscanner : (fresh capacity policy).scanner = ⟨capacity, policy⟩ := fresh_scanner hcapacity
  have hread : commandIn? (headerFor sequence content) (assemble sequence content) =
      some command := commandIn?_assemble hcontent hdocument hcommand
  have hburied : (fresh capacity policy).scanner.Buried garbage (assemble sequence content) tail
      command := by
    rw [hscanner]
    exact buried_assemble hcontent hlength hread hfalse
  have hnears := @fresh_nears capacity policy garbage (assemble sequence content ++ tail)
  rw [← hstream] at hnears
  obtain ⟨later, early, after, late, htrail, hearly, hcount, htail⟩ :=
    hnears.trail hburied (fresh_waiting capacity policy) hfits
  refine ⟨early, after, late, htrail, ?_, hearly, hcount, later, htail⟩
  rw [receiveAll_eq_trail hfits, htrail, List.map_append, List.map_cons]

/-- Garbage with a marker that announces too much, one whose frame reaches
into the frame of the command, and half a marker at the end.  The stream is
cut in both frames. -/
theorem receiveAll_resync_overlapping :
    ∃ early after late,
      (fresh 16 .reject).trail
          [[7, 0x3A, 0x3B, 0, 9, 0xFF, 0xFF, 0x3A, 0x3B, 0, 2, 0, 4, 0x3A, 0x3A, 0x3B],
            [0, 1, 0, 1, 0x31, 0xD4, 0xD4], [0x3A, 0x3B, 0]] =
        early ++ (.success ⟨none, 1, .number (.integer 1)⟩, after) :: late ∧
      ((fresh 16 .reject).receiveAll
          [[7, 0x3A, 0x3B, 0, 9, 0xFF, 0xFF, 0x3A, 0x3B, 0, 2, 0, 4, 0x3A, 0x3A, 0x3B],
            [0, 1, 0, 1, 0x31, 0xD4, 0xD4], [0x3A, 0x3B, 0]]).1 =
        .ok (early.map Prod.fst ++
          .success ⟨none, 1, .number (.integer 1)⟩ :: late.map Prod.fst) ∧
      (∀ step ∈ early, step.1.command? = none) ∧
      after.stats.bytesDiscarded = 14 ∧
      ∃ later, after.ring.toList ++ later = [0x3A, 0x3B, 0] := by
  have hframe : Frame.build 1 [0x31] = .ok [0x3A, 0x3B, 0, 1, 0, 1, 0x31, 0xD4, 0xD4] := by
    decide +kernel
  have hfalse : ∀ i < 14,
      MarkerAt [7, 0x3A, 0x3B, 0, 9, 0xFF, 0xFF, 0x3A, 0x3B, 0, 2, 0, 4, 0x3A] i →
      FalseMarker 16 ([7, 0x3A, 0x3B, 0, 9, 0xFF, 0xFF, 0x3A, 0x3B, 0, 2, 0, 4, 0x3A] ++
        ([0x3A, 0x3B, 0, 1, 0, 1, 0x31, 0xD4, 0xD4] ++ [0x3A, 0x3B, 0])) i := by
    decide +kernel
  exact receiveAll_resync hframe (by decide) rfl rfl
    (fun i hmarker => hfalse i (List.getElem?_eq_some_iff.mp hmarker.1).1 hmarker) rfl
    (fits_iff.mpr (by decide +kernel))

end Decoder

end TestRig
