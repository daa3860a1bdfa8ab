import TestRig.Proofs.Decoder.Step

/-!
# Runs of the decoder

A run takes bytes in and takes sightings out.  `Follows` ties the decoder
behind a run to the scanner: what the scanner sees in the whole stream is
what the run has told, and then what the scanner sees from the buffered
bytes on, whatever comes later.  The statement is about all later bytes,
so runs compose (`Follows.trans`), and a cut of the stream is of no
consequence.

* `notable` drops the gaps from a trace.  Commands, last sequence number
  and all counters but one depend on the notable sightings only.
* `drain_follows` and `receiveAll_of_fits` are the two runs that callers
  make.  Both end in a decoder that waits.  `Fits` is the condition of the
  second one.
-/

namespace TestRig

open Frame

/-! ## Traces -/

/-- The sightings of a trace that are not gaps. -/
def notable (trace : List Sighting) : List Sighting :=
  trace.filter fun sighting => !sighting.outcome.isGap

/-- The last sequence number behind a trace. -/
def lastBehind (last : Option UInt16) (trace : List Sighting) : Option UInt16 :=
  trace.foldl (fun last sighting => sighting.outcome.lastAfter last) last

/-- Number of bytes of the frames that became commands. -/
def delivered : List Sighting → Nat
  | [] => 0
  | sighting :: rest =>
    (if sighting.outcome.command?.isSome then sighting.span else 0) + delivered rest

/-- Number of bytes that a trace takes. -/
def taken : List Sighting → Nat
  | [] => 0
  | sighting :: rest => sighting.span + taken rest

@[simp] theorem notable_append (first second : List Sighting) :
    notable (first ++ second) = notable first ++ notable second :=
  List.filter_append ..

@[simp] theorem taken_append (first second : List Sighting) :
    taken (first ++ second) = taken first + taken second := by
  induction first with
  | nil => rw [List.nil_append, taken, Nat.zero_add]
  | cons sighting rest ih => rw [List.cons_append, taken, taken, ih, Nat.add_assoc]

/-- A gap changes neither command nor sequence number. -/
theorem command?_of_isGap {outcome : Outcome} (h : outcome.isGap = true) :
    outcome.command? = none ∧ ∀ last, outcome.lastAfter last = last := by
  cases outcome with
  | success command => cases h
  | incomplete => exact ⟨rfl, fun _ => rfl⟩
  | retry reason => exact ⟨rfl, fun _ => rfl⟩
  | fault reason => exact ⟨rfl, fun _ => rfl⟩

theorem commands_notable (trace : List Sighting) :
    (notable trace).filterMap (fun sighting => sighting.outcome.command?) =
      trace.filterMap (fun sighting => sighting.outcome.command?) := by
  induction trace with
  | nil => rfl
  | cons sighting rest ih =>
    simp only [notable] at ih ⊢
    cases hgap : sighting.outcome.isGap with
    | false => simp [hgap, List.filterMap_cons, ih]
    | true => simp [hgap, ih, (command?_of_isGap hgap).1]

theorem lastBehind_notable (last : Option UInt16) (trace : List Sighting) :
    lastBehind last (notable trace) = lastBehind last trace := by
  induction trace generalizing last with
  | nil => rfl
  | cons sighting rest ih =>
    simp only [notable, lastBehind] at ih ⊢
    cases hgap : sighting.outcome.isGap with
    | false => simp [hgap, ih]
    | true => simp [hgap, ih, (command?_of_isGap hgap).2]

theorem delivered_notable (trace : List Sighting) : delivered (notable trace) = delivered trace := by
  induction trace with
  | nil => rfl
  | cons sighting rest ih =>
    simp only [notable] at ih ⊢
    cases hgap : sighting.outcome.isGap with
    | false => simp [hgap, delivered, ih]
    | true => simp [hgap, delivered, ih, (command?_of_isGap hgap).1]

/-! ## Counters along a trace -/

/-- The counters without the one for dropped bytes. -/
def DecoderStats.verdicts (stats : DecoderStats) : DecoderStats :=
  { stats with bytesDiscarded := 0 }

theorem verdicts_tally {first second : DecoderStats} (h : first.verdicts = second.verdicts)
    (sighting : Sighting) : (first.tally sighting).verdicts = (second.tally sighting).verdicts := by
  obtain ⟨f1, c1, u1, d1, b1⟩ := first
  obtain ⟨f2, c2, u2, d2, b2⟩ := second
  simp only [DecoderStats.verdicts, DecoderStats.mk.injEq] at h
  obtain ⟨rfl, rfl, rfl, rfl, -⟩ := h
  obtain ⟨outcome, span⟩ := sighting
  rcases outcome with _ | _ | ⟨_ | _ | _ | _⟩ | _ <;> rfl

theorem verdicts_tally_of_isGap {sighting : Sighting} (h : sighting.outcome.isGap = true)
    (stats : DecoderStats) : (stats.tally sighting).verdicts = stats.verdicts := by
  obtain ⟨outcome, span⟩ := sighting
  rcases outcome with _ | _ | ⟨_ | _ | _ | _⟩ | _ <;> first | rfl | cases h

/-- All counters but the one for dropped bytes depend on the notable
sightings only. -/
theorem verdicts_foldl_notable {first second : DecoderStats} (h : first.verdicts = second.verdicts)
    (trace : List Sighting) :
    ((notable trace).foldl DecoderStats.tally first).verdicts =
      (trace.foldl DecoderStats.tally second).verdicts := by
  induction trace generalizing first second with
  | nil => exact h
  | cons sighting rest ih =>
    simp only [notable] at ih ⊢
    cases hgap : sighting.outcome.isGap with
    | false =>
      simp only [List.filter_cons, hgap, Bool.not_false, if_true, List.foldl_cons]
      exact ih (verdicts_tally h sighting)
    | true =>
      simp only [List.filter_cons, hgap, Bool.not_true, Bool.false_eq_true, if_false,
        List.foldl_cons]
      exact ih (h.trans (verdicts_tally_of_isGap hgap second).symm)

/-- Bytes that become no part of a command are counted as dropped. -/
theorem bytesDiscarded_tally {sighting : Sighting} (h : sighting.outcome.isIncomplete = false)
    (stats : DecoderStats) :
    (stats.tally sighting).bytesDiscarded + delivered [sighting] =
      stats.bytesDiscarded + sighting.span := by
  obtain ⟨outcome, span⟩ := sighting
  rcases outcome with _ | _ | ⟨_ | _ | _ | _⟩ | _ <;> first | rfl | cases h

theorem bytesDiscarded_foldl {trace : List Sighting}
    (h : ∀ sighting ∈ trace, sighting.outcome.isIncomplete = false) (stats : DecoderStats) :
    (trace.foldl DecoderStats.tally stats).bytesDiscarded + delivered trace =
      stats.bytesDiscarded + taken trace := by
  induction trace generalizing stats with
  | nil => rfl
  | cons sighting rest ih =>
    have hhead := bytesDiscarded_tally (h sighting (List.mem_cons_self ..)) stats
    have hrest := ih (fun s hs => h s (List.mem_cons_of_mem _ hs)) (stats.tally sighting)
    simp only [List.foldl_cons, delivered, taken] at hhead hrest ⊢
    omega

namespace Decoder

/-! ## The scanner keeps up with the decoder -/

/-- What ties the decoder behind a run to the one before it: the bytes that
came in between, and the sightings that were told. -/
structure Follows (before after : Decoder) (stream : Bytes) (trace : List Sighting) : Prop where
  sound : after.Sound
  scanner : after.scanner = before.scanner
  foresight : ∀ later,
    before.scanner.scan before.lastSequence (before.ring.toList ++ (stream ++ later)) =
      notable trace ++ before.scanner.scan after.lastSequence (after.ring.toList ++ later)
  last : after.lastSequence = lastBehind before.lastSequence trace
  stats : after.stats = trace.foldl DecoderStats.tally before.stats
  account : after.ring.length + taken trace = before.ring.length + stream.length
  progress : ∀ sighting ∈ trace, 0 < sighting.span ∧ sighting.outcome.isIncomplete = false

theorem Follows.refl {decoder : Decoder} (hsound : decoder.Sound) :
    decoder.Follows decoder [] [] where
  sound := hsound
  scanner := rfl
  foresight _ := rfl
  last := rfl
  stats := rfl
  account := rfl
  progress := by simp

theorem Follows.trans {first middle last : Decoder} {stream stream' : Bytes}
    {trace trace' : List Sighting} (h : first.Follows middle stream trace)
    (h' : middle.Follows last stream' trace') :
    first.Follows last (stream ++ stream') (trace ++ trace') where
  sound := h'.sound
  scanner := h'.scanner.trans h.scanner
  foresight later := by
    rw [List.append_assoc, h.foresight, ← h.scanner, h'.foresight, notable_append,
      List.append_assoc]
  last := by rw [h'.last, h.last, lastBehind, lastBehind, lastBehind, List.foldl_append]
  stats := by rw [h'.stats, h.stats, List.foldl_append]
  account := by
    have haccount := h.account
    have haccount' := h'.account
    rw [taken_append, List.length_append]
    omega
  progress := by
    intro sighting hmem
    rcases List.mem_append.mp hmem with hleft | hright
    · exact h.progress sighting hleft
    · exact h'.progress sighting hright

/-- Bytes that come in change nothing of what the scanner sees. -/
theorem follows_write {before after : Decoder} {data : Bytes} (hsound : before.Sound)
    (h : before.write data = .ok after) : before.Follows after data [] := by
  simp only [write] at h
  cases happend : before.ring.append data with
  | error failure =>
    rw [happend] at h
    cases h
  | ok ring =>
    rw [happend] at h
    cases h
    have hlist := Ring.toList_append happend
    have hcapacity := Ring.capacity_append happend
    refine ⟨⟨?_, ?_⟩, ?_, ?_, rfl, rfl, ?_, by simp⟩
    · show minLength ≤ ring.capacity
      rw [hcapacity]
      exact hsound.minLength_le
    · intro header hheader
      obtain ⟨hdecode, hfits⟩ := hsound.announced header hheader
      show Header.decode ring.toList = some header ∧ header.frameLength ≤ ring.capacity
      rw [hlist, hcapacity]
      exact ⟨decode_append hdecode data, hfits⟩
    · simp only [Decoder.scanner, hcapacity]
    · intro later
      show _ = notable [] ++ before.scanner.scan before.lastSequence (ring.toList ++ later)
      rw [hlist, List.append_assoc]
      rfl
    · have hlength := congrArg List.length hlist
      rw [List.length_append, Ring.length_toList, Ring.length_toList] at hlength
      exact hlength

/-- A sighting at the front is the next one that the scanner has. -/
theorem follows_sight {before after : Decoder} {sighting : Sighting} (hsound : before.Sound)
    (hmarker : MarkerAt before.ring.toList 0)
    (hnext : before.scanner.next? before.lastSequence before.ring.toList = some sighting)
    (htook : before.Took after sighting) : before.Follows after [] [sighting] := by
  obtain ⟨hpos, hle⟩ := Scanner.span_next? hnext
  obtain ⟨hgap, hincomplete⟩ := Scanner.isGap_next? hnext
  rw [fromMarker_of_markerAt hmarker] at hle
  refine ⟨htook.sound hsound, htook.scanner, ?_, htook.last, htook.stats, ?_, ?_⟩
  · intro later
    have hlater := Scanner.next?_append hmarker hnext later
    have hfront : MarkerAt (before.ring.toList ++ later) 0 := by
      rw [MarkerAt, List.getElem?_append_left (List.getElem?_eq_some_iff.mp hmarker.1).1,
        List.getElem?_append_left (List.getElem?_eq_some_iff.mp hmarker.2).1]
      exact hmarker
    rw [List.nil_append, Scanner.scan_of_some hlater, fromMarker_of_markerAt hfront,
      List.drop_append_of_le_length hle, htook.toList, htook.last, notable, List.filter_cons,
      hgap]
    rfl
  · have hlength := congrArg List.length htook.toList
    rw [List.length_drop, Ring.length_toList, Ring.length_toList] at hlength
    rw [Ring.length_toList] at hle
    simp only [taken, List.length_nil]
    omega
  · intro other hother
    cases List.mem_singleton.mp hother
    exact ⟨hpos, hincomplete⟩

/-- The scanner does not miss the bytes of a gap. -/
theorem follows_gap {before after : Decoder} {sighting : Sighting} (hsound : before.Sound)
    (hgap : sighting.outcome.isGap = true) (hpos : 0 < sighting.span)
    (hle : sighting.span ≤ before.ring.length)
    (hfree : ∀ later i, i < sighting.span → ¬ MarkerAt (before.ring.toList ++ later) i)
    (htook : before.Took after sighting) : before.Follows after [] [sighting] := by
  have hlength := before.ring.length_toList
  refine ⟨htook.sound hsound, htook.scanner, ?_, htook.last, htook.stats, ?_, ?_⟩
  · intro later
    rw [List.nil_append, htook.toList, htook.last, (command?_of_isGap hgap).2, notable,
      List.filter_cons, hgap, ← List.drop_append_of_le_length (by omega)]
    exact Scanner.scan_congr (fromMarker_drop (hfree later)).symm
  · have hdrop := congrArg List.length htook.toList
    rw [List.length_drop, Ring.length_toList, Ring.length_toList] at hdrop
    simp only [taken, List.length_nil]
    omega
  · intro other hother
    cases List.mem_singleton.mp hother
    refine ⟨hpos, ?_⟩
    cases houtcome : sighting.outcome with
    | incomplete =>
      rw [houtcome] at hgap
      cases hgap
    | success | retry | fault => rfl

/-! ## Draining and receiving -/

theorem drainLoop_succ {decoder after : Decoder} {outcome : Outcome}
    (hstep : decoder.step = (outcome, after)) (h : outcome.isIncomplete = false) (fuel : Nat)
    (outcomes : List Outcome) :
    drainLoop (fuel + 1) outcomes decoder = drainLoop fuel (outcome :: outcomes) after := by
  rw [drainLoop, hstep]
  cases outcome with
  | incomplete => cases h
  | success | retry | fault => rfl

/-- With more fuel than buffered bytes, the steps end in a decoder that
waits: every step that does not wait takes a byte. -/
theorem drainLoop_follows {decoder : Decoder} (hsound : decoder.Sound) {fuel : Nat}
    (hfuel : decoder.ring.length < fuel) (outcomes : List Outcome) :
    ∃ trace after, drainLoop fuel outcomes decoder =
        (outcomes.reverse ++ trace.map Sighting.outcome, after) ∧
      decoder.Follows after [] trace ∧ after.Waiting := by
  induction fuel generalizing decoder outcomes with
  | zero => omega
  | succ fuel ih =>
    have hmove := step_move hsound
    generalize hstep : decoder.step = result at hmove
    -- the two moves that take bytes go on alike
    have hgoes : ∀ (after : Decoder) (sighting : Sighting),
        decoder.step = (sighting.outcome, after) → decoder.Follows after [] [sighting] →
        ∃ trace last, drainLoop (fuel + 1) outcomes decoder =
            (outcomes.reverse ++ trace.map Sighting.outcome, last) ∧
          decoder.Follows last [] trace ∧ last.Waiting := by
      intro after sighting hnext hfollows
      obtain ⟨hpos, hincomplete⟩ := hfollows.progress sighting (List.mem_singleton_self _)
      have haccount := hfollows.account
      simp only [taken, List.length_nil] at haccount
      obtain ⟨trace, last, hloop, hrest, hwaiting⟩ :=
        ih hfollows.sound (by omega) (sighting.outcome :: outcomes)
      refine ⟨sighting :: trace, last, ?_, hfollows.trans hrest, hwaiting⟩
      rw [drainLoop_succ hnext hincomplete, hloop, List.reverse_cons, List.append_assoc,
        List.map_cons, List.singleton_append]
    cases hmove with
    | @wait after hwaiting hafter hsame =>
      refine ⟨[], after, ?_, ?_, hwaiting⟩
      · rw [drainLoop, hstep, List.map_nil, List.append_nil]
      · rw [hsame] at hafter ⊢
        exact ⟨hafter, rfl, fun _ => rfl, rfl, rfl, rfl, by simp⟩
    | gap sighting hgap hpos hle hfree htook =>
      exact hgoes _ sighting hstep (follows_gap hsound hgap hpos hle hfree htook)
    | sight sighting hmarker hnext htook =>
      exact hgoes _ sighting hstep (follows_sight hsound hmarker hnext htook)

theorem drain_follows {decoder : Decoder} (hsound : decoder.Sound) :
    ∃ trace after, decoder.drain = (trace.map Sighting.outcome, after) ∧
      decoder.Follows after [] trace ∧ after.Waiting :=
  drainLoop_follows hsound (Nat.lt_succ_self _) []

theorem receive_follows {decoder after : Decoder} {data : Bytes} {outcomes : List Outcome}
    (hsound : decoder.Sound) (h : decoder.receive data = .ok (outcomes, after)) :
    ∃ trace, outcomes = trace.map Sighting.outcome ∧ decoder.Follows after data trace ∧
      after.Waiting := by
  rw [receive] at h
  cases hwrite : decoder.write data with
  | error failure =>
    rw [hwrite] at h
    cases h
  | ok written =>
    have hwritten := follows_write hsound hwrite
    obtain ⟨trace, last, hdrain, hfollows, hwaiting⟩ := drain_follows hwritten.sound
    rw [hwrite] at h
    simp only [Except.map, hdrain, Except.ok.injEq, Prod.mk.injEq] at h
    obtain ⟨rfl, rfl⟩ := h
    refine ⟨trace, rfl, ?_, hwaiting⟩
    have htrans := hwritten.trans hfollows
    rwa [List.append_nil, List.nil_append] at htrans

theorem receiveAll_go_follows {pieces : List Bytes} {decoder after : Decoder}
    {told outcomes : List Outcome} (hsound : decoder.Sound) (hwaiting : decoder.Waiting)
    (h : receiveAll.go told decoder pieces = (.ok outcomes, after)) :
    ∃ trace, outcomes = told.reverse ++ trace.map Sighting.outcome ∧
      decoder.Follows after pieces.flatten trace ∧ after.Waiting := by
  induction pieces generalizing decoder told with
  | nil =>
    simp only [receiveAll.go, Prod.mk.injEq, Except.ok.injEq] at h
    obtain ⟨rfl, rfl⟩ := h
    exact ⟨[], by simp, .refl hsound, hwaiting⟩
  | cons piece rest ih =>
    rw [receiveAll.go] at h
    cases hreceive : decoder.receive piece with
    | error failure =>
      rw [hreceive] at h
      cases h
    | ok result =>
      obtain ⟨found, next⟩ := result
      rw [hreceive] at h
      obtain ⟨trace, rfl, hfollows, hnext⟩ := receive_follows hsound hreceive
      obtain ⟨trace', rfl, hrest, hlast⟩ := ih hfollows.sound hnext h
      refine ⟨trace ++ trace', ?_, ?_, hlast⟩
      · rw [List.reverse_append, List.reverse_reverse, List.append_assoc, List.map_append]
      · rw [List.flatten_cons]
        exact hfollows.trans hrest

/-- Every piece fits the room that the decoder has when the piece comes. -/
def Fits (decoder : Decoder) : List Bytes → Prop
  | [] => True
  | piece :: rest =>
    piece.length ≤ decoder.available ∧
      ∀ outcomes after, decoder.receive piece = .ok (outcomes, after) → after.Fits rest

theorem receive_eq_ok_iff {decoder : Decoder} {data : Bytes} :
    (∃ outcomes after, decoder.receive data = .ok (outcomes, after)) ↔
      data.length ≤ decoder.available := by
  rw [available, ← Ring.append_eq_ok_iff]
  simp only [receive, write]
  cases decoder.ring.append data with
  | error failure =>
    constructor
    · rintro ⟨outcomes, after, h⟩
      cases h
    · rintro ⟨after, h⟩
      cases h
  | ok ring => exact ⟨fun _ => ⟨ring, rfl⟩, fun _ => ⟨_, _, rfl⟩⟩

/-- A run that has received some pieces comes to its end exactly if the
others fit. -/
theorem receiveAll_go_isOk {pieces : List Bytes} {decoder : Decoder} {told : List Outcome} :
    (receiveAll.go told decoder pieces).1.isOk = true ↔ decoder.Fits pieces := by
  induction pieces generalizing decoder told with
  | nil => exact ⟨fun _ => trivial, fun _ => rfl⟩
  | cons piece rest ih =>
    rw [receiveAll.go, Fits, ← receive_eq_ok_iff]
    cases hreceive : decoder.receive piece with
    | error failure =>
      constructor
      · intro h
        cases h
      · rintro ⟨⟨outcomes, after, h⟩, _⟩
        cases h
    | ok result =>
      obtain ⟨outcomes, after⟩ := result
      show (receiveAll.go _ after rest).1.isOk = true ↔ _
      rw [ih]
      constructor
      · intro h
        refine ⟨⟨outcomes, after, rfl⟩, ?_⟩
        intro outcomes' after' heq
        cases heq
        exact h
      · rintro ⟨_, h⟩
        exact h outcomes after rfl

/-- A run comes to its end exactly if all pieces fit. -/
theorem fits_iff {decoder : Decoder} {pieces : List Bytes} :
    decoder.Fits pieces ↔ (decoder.receiveAll pieces).1.isOk = true :=
  receiveAll_go_isOk.symm

/-- A run over pieces that fit is one run over the stream. -/
theorem receiveAll_of_fits {pieces : List Bytes} {decoder : Decoder} (hsound : decoder.Sound)
    (hwaiting : decoder.Waiting) (hfits : decoder.Fits pieces) :
    ∃ trace after, decoder.receiveAll pieces = (.ok (trace.map Sighting.outcome), after) ∧
      decoder.Follows after pieces.flatten trace ∧ after.Waiting := by
  have hok := fits_iff.mp hfits
  generalize hrun : decoder.receiveAll pieces = result at hok
  obtain ⟨told, after⟩ := result
  cases told with
  | error failure => cases hok
  | ok outcomes =>
    obtain ⟨trace, rfl, hfollows, hlast⟩ := receiveAll_go_follows hsound hwaiting hrun
    exact ⟨trace, after, rfl, hfollows, hlast⟩

/-! ## Runs that end in a waiting decoder -/

/-- The notable sightings of such a run are those of the scanner. -/
theorem Follows.notable_eq {before after : Decoder} {stream : Bytes} {trace : List Sighting}
    (h : before.Follows after stream trace) (hwaiting : after.Waiting) :
    notable trace =
      before.scanner.scan before.lastSequence (before.ring.toList ++ stream) := by
  have hforesight := h.foresight []
  rw [List.append_nil, List.append_nil, ← h.scanner,
    Scanner.scan_of_none (hwaiting.next? h.sound), List.append_nil] at hforesight
  rw [← hforesight, h.scanner]

theorem Follows.discarded {before after : Decoder} {stream : Bytes} {trace : List Sighting}
    (h : before.Follows after stream trace) :
    after.ring.length + after.stats.bytesDiscarded + delivered trace =
      before.ring.length + before.stats.bytesDiscarded + stream.length := by
  have haccount := h.account
  have hdiscarded := bytesDiscarded_foldl (fun s hs => (h.progress s hs).2) before.stats
  rw [← h.stats] at hdiscarded
  omega

theorem fresh_sound (capacity : Nat) (policy : DuplicatePolicy) : (fresh capacity policy).Sound where
  minLength_le := by
    simp only [fresh, Ring.capacity_empty]
    omega
  announced := by
    intro header hheader
    cases hheader

theorem fresh_scanner {capacity : Nat} {policy : DuplicatePolicy}
    (hcapacity : minLength ≤ capacity) : (fresh capacity policy).scanner = ⟨capacity, policy⟩ := by
  simp only [minLength, headerSize, checksumSize] at hcapacity
  simp only [Decoder.scanner, fresh, Ring.capacity_empty, minLength, headerSize, checksumSize]
  congr
  omega

theorem fresh_toList (capacity : Nat) (policy : DuplicatePolicy) :
    (fresh capacity policy).ring.toList = [] :=
  Ring.toList_empty _

theorem fresh_waiting (capacity : Nat) (policy : DuplicatePolicy) :
    (fresh capacity policy).Waiting := by
  show 0 < minLength
  decide

end Decoder

end TestRig
