import TestRig.Codec
import TestRig.Frame.Parts
import TestRig.Proofs.Link.Outbound

/-!
# The two directions of a codec

One codec holds the decoder and the encoder of a connection, and its calls
come in any order.  What a call on the one side answers does not depend on
the calls on the other side, and reports are numbered without a gap.

* `Codec.Call` is a call, `Codec.call` its answer and what it leaves behind,
  and `Codec.run` a list of calls.
* `inbound_run` and `outbound_run` say that the calls of one direction
  answer as if the others had not been made.
* `numbers_reports` is the numbering: each report that was encoded has the
  number behind that of the last one, modulo `2 ^ 16`.
-/

namespace TestRig

/-- The number in the header of a frame. -/
def Frame.number? (frame : Bytes) : Option Nat :=
  (Frame.parts? frame).map fun parts => parts.sequence.toNat

/-- Numbers that follow each other from a given one on, modulo `2 ^ 16`. -/
def numbersFrom (first count : Nat) : List (Option Nat) :=
  (List.range' first count).map fun number => some (number % 65536)

theorem numbersFrom_succ (first count : Nat) :
    numbersFrom first (count + 1) = some (first % 65536) :: numbersFrom (first + 1) count := by
  rw [numbersFrom, List.range'_succ, List.map_cons]
  rfl

/-- A frame of a response carries the number that it was built with. -/
theorem Encoder.number?_of_encodeResponse {encoder : Encoder} {response : Response}
    {sequence : UInt16} {frame : Bytes}
    (h : encoder.encodeResponse response sequence = .ok frame) :
    Frame.number? frame = some sequence.toNat := by
  obtain ⟨hlength, rfl⟩ := encodeResponse_eq_ok_iff.mp h
  rw [Frame.number?, Frame.parts?_assemble hlength]
  rfl

/-- The two ends of encoding a report.  Only a frame that was built takes a
number. -/
theorem Encoder.encodeReport_cases (encoder : Encoder) (response : Response) :
    (∃ frame, encoder.encodeResponse response encoder.reportSequence = .ok frame ∧
      encoder.encodeReport response =
        .ok (frame, { encoder with reportSequence := encoder.reportSequence + 1 })) ∨
    ∃ failure, encoder.encodeReport response = .error failure := by
  unfold encodeReport
  cases encoder.encodeResponse response encoder.reportSequence with
  | ok frame => exact .inl ⟨frame, rfl, rfl⟩
  | error failure => exact .inr ⟨failure, rfl⟩

namespace Codec

/-! ## Calls -/

/-- A call of a codec. -/
inductive Call where
  | write (data : Bytes)
  | step
  | reset
  | encodeFrame (content : Bytes) (sequence : UInt16)
  | encodeResponse (response : Response) (sequence : UInt16)
  | encodeReport (response : Response)

/-- The call is one of the decoder. -/
def Call.isInbound : Call → Bool
  | write _ | step | reset => true
  | encodeFrame .. | encodeResponse .. | encodeReport _ => false

/-- What a call answers. -/
inductive Answer where
  /-- Bytes were written, or not. -/
  | written (result : Except Failure Unit)
  /-- The outcome of a step. -/
  | told (outcome : Outcome)
  /-- The decoder was reset. -/
  | done
  /-- The frame that was encoded. -/
  | encoded (result : Except Failure Bytes)

/-- One call: its answer and the codec behind it. -/
def call (codec : Codec) : Call → Answer × Codec
  | .write data =>
    match codec.decoder.write data with
    | .ok decoder => (.written (.ok ()), { codec with decoder })
    | .error failure => (.written (.error failure), codec)
  | .step =>
    let (outcome, decoder) := codec.decoder.step
    (.told outcome, { codec with decoder })
  | .reset => (.done, { codec with decoder := codec.decoder.reset })
  | .encodeFrame content sequence =>
    (.encoded (codec.encoder.encodeFrame content sequence), codec)
  | .encodeResponse response sequence =>
    (.encoded (codec.encoder.encodeResponse response sequence), codec)
  | .encodeReport response =>
    match codec.encoder.encodeReport response with
    | .ok (frame, encoder) => (.encoded (.ok frame), { codec with encoder })
    | .error failure => (.encoded (.error failure), codec)

/-- Several calls one after the other, each with its answer. -/
def run (codec : Codec) : List Call → List (Call × Answer)
  | [] => []
  | call :: calls => (call, (codec.call call).1) :: (codec.call call).2.run calls

/-! ## One direction at a time -/

/-- A call of the decoder depends on the decoder alone, and leaves the
encoder. -/
theorem call_inbound {call : Call} (h : call.isInbound = true) (codec : Codec) {codec' : Codec}
    (hdecoder : codec.decoder = codec'.decoder) :
    (codec.call call).1 = (codec'.call call).1 ∧
      (codec.call call).2.decoder = (codec'.call call).2.decoder ∧
      (codec.call call).2.encoder = codec.encoder := by
  cases call with
  | write data =>
    simp only [Codec.call, hdecoder]
    cases codec'.decoder.write data with
    | ok decoder => exact ⟨rfl, rfl, rfl⟩
    | error failure => exact ⟨rfl, hdecoder, rfl⟩
  | step =>
    simp only [Codec.call, hdecoder]
    exact ⟨trivial, trivial, trivial⟩
  | reset =>
    simp only [Codec.call, hdecoder]
    exact ⟨trivial, trivial, trivial⟩
  | encodeFrame content sequence => cases h
  | encodeResponse response sequence => cases h
  | encodeReport response => cases h

/-- A call of the encoder depends on the encoder alone, and leaves the
decoder. -/
theorem call_outbound {call : Call} (h : call.isInbound = false) (codec : Codec) {codec' : Codec}
    (hencoder : codec.encoder = codec'.encoder) :
    (codec.call call).1 = (codec'.call call).1 ∧
      (codec.call call).2.encoder = (codec'.call call).2.encoder ∧
      (codec.call call).2.decoder = codec.decoder := by
  cases call with
  | write data => cases h
  | step => cases h
  | reset => cases h
  | encodeFrame content sequence =>
    simp only [Codec.call, hencoder]
    exact ⟨trivial, trivial, trivial⟩
  | encodeResponse response sequence =>
    simp only [Codec.call, hencoder]
    exact ⟨trivial, trivial, trivial⟩
  | encodeReport response =>
    simp only [Codec.call, hencoder]
    cases codec'.encoder.encodeReport response with
    | ok result => exact ⟨rfl, rfl, rfl⟩
    | error failure => exact ⟨rfl, hencoder, rfl⟩

/-- The answers of the decoder are those of a run without the calls of the
encoder. -/
theorem inbound_run {codec codec' : Codec} (hdecoder : codec.decoder = codec'.decoder)
    (calls : List Call) :
    (codec.run calls).filter (fun told => told.1.isInbound) =
      codec'.run (calls.filter Call.isInbound) := by
  induction calls generalizing codec codec' with
  | nil => rfl
  | cons call calls ih =>
    rw [run, List.filter_cons, List.filter_cons]
    cases hcall : call.isInbound with
    | true =>
      obtain ⟨hanswer, hnext, _⟩ := call_inbound hcall codec hdecoder
      rw [if_pos rfl, if_pos rfl, run, ih hnext, hanswer]
    | false =>
      obtain ⟨_, _, hkept⟩ := @call_outbound _ hcall codec codec rfl
      rw [if_neg Bool.false_ne_true, if_neg Bool.false_ne_true, ih (hkept.trans hdecoder)]

/-- The answers of the encoder are those of a run without the calls of the
decoder. -/
theorem outbound_run {codec codec' : Codec} (hencoder : codec.encoder = codec'.encoder)
    (calls : List Call) :
    (codec.run calls).filter (fun told => !told.1.isInbound) =
      codec'.run (calls.filter fun call => !call.isInbound) := by
  induction calls generalizing codec codec' with
  | nil => rfl
  | cons call calls ih =>
    rw [run, List.filter_cons, List.filter_cons]
    cases hcall : call.isInbound with
    | true =>
      obtain ⟨_, _, hkept⟩ := @call_inbound _ hcall codec codec rfl
      rw [Bool.not_true, if_neg Bool.false_ne_true, if_neg Bool.false_ne_true,
        ih (hkept.trans hencoder)]
    | false =>
      obtain ⟨hanswer, hnext, _⟩ := call_outbound hcall codec hencoder
      rw [Bool.not_false, if_pos rfl, if_pos rfl, run, ih hnext, hanswer]

/-! ## Numbers of reports -/

/-- The frame of a report that was encoded. -/
def report? : Call × Answer → Option Bytes
  | (.encodeReport _, .encoded (.ok frame)) => some frame
  | _ => none

/-- The reports that were encoded, in order. -/
def reportsIn (told : List (Call × Answer)) : List Bytes :=
  told.filterMap report?

/-- A call either encodes a report, which takes the next number, or leaves
the numbers alone. -/
theorem call_cases (codec : Codec) (call : Call) :
    (∃ frame, report? (call, (codec.call call).1) = some frame ∧
      Frame.number? frame = some codec.encoder.reportSequence.toNat ∧
      (codec.call call).2.encoder.reportSequence = codec.encoder.reportSequence + 1) ∨
    report? (call, (codec.call call).1) = none ∧
      (codec.call call).2.encoder.reportSequence = codec.encoder.reportSequence := by
  cases call with
  | write data =>
    obtain ⟨_, _, hkept⟩ := @call_inbound (.write data) rfl codec codec rfl
    exact .inr ⟨rfl, by rw [hkept]⟩
  | step => exact .inr ⟨rfl, rfl⟩
  | reset => exact .inr ⟨rfl, rfl⟩
  | encodeFrame content sequence => exact .inr ⟨rfl, rfl⟩
  | encodeResponse response sequence => exact .inr ⟨rfl, rfl⟩
  | encodeReport response =>
    rcases codec.encoder.encodeReport_cases response with
      ⟨frame, hframe, hreport⟩ | ⟨failure, hreport⟩
    · simp only [Codec.call, hreport]
      exact .inl ⟨frame, rfl, Encoder.number?_of_encodeResponse hframe, trivial⟩
    · simp only [Codec.call, hreport]
      exact .inr ⟨rfl, trivial⟩

theorem numbers_reports {codec : Codec} {first : Nat}
    (hfirst : codec.encoder.reportSequence.toNat = first % 65536) (calls : List Call) :
    (reportsIn (codec.run calls)).map Frame.number? =
      numbersFrom first (reportsIn (codec.run calls)).length := by
  induction calls generalizing codec first with
  | nil => rfl
  | cons call calls ih =>
    rw [run, reportsIn, List.filterMap_cons]
    rcases codec.call_cases call with ⟨frame, hreport, hnumber, hnext⟩ | ⟨hreport, hnext⟩
    · have hrest := @ih (codec.call call).2 (first + 1) (by
        rw [hnext, UInt16.toNat_add, hfirst]
        show (first % 65536 + 1) % 65536 = (first + 1) % 65536
        omega)
      rw [hreport]
      show Frame.number? frame :: (reportsIn _).map Frame.number? =
        numbersFrom first ((reportsIn _).length + 1)
      rw [hnumber, hfirst, hrest, numbersFrom_succ]
    · rw [hreport]
      exact ih (hnext ▸ hfirst)

end Codec

end TestRig
