import TestRig.Codec
import TestRig.Frame.Parts
import TestRig.Proofs.Decoder.RoundTrip
import TestRig.Proofs.Json.Reading
import TestRig.Proofs.Link.Outbound

/-!
# Responses read by the protocol that sent them

What the station sends can be read by its own decoder.  The document of a
response is an object in an order of its own, which is not the order of the
keys.  The reader puts the members in order, and the command in them has the
code of the response as its kind and the data as its payload.

* `Response.received` is the document that is read, its members in order;
  `spells_document` reads it from the text that was written, and
  `received_injective` says that no two responses share it.
* `Follows.lossless` is a run in which every byte became part of a command.
* `Encoder.Sends` is a frame that goes out for a response, and
  `sends_received` what becomes of it on the other side.
-/

namespace TestRig

open Frame (assemble commandIn? decode_assemble document? fromMarker_of_markerAt headerFor
  markerAt_of_decode maxContent minLength)
open Json (Value Plain Spells)

namespace Response

/-! ## The document that is read -/

/-- The members of the document in the order of their keys. -/
def sortedMembers (response : Response) : List (String × Value) :=
  [("cmdType", .ofNat response.kind.code), ("data", response.data)] ++
  (match response.desc with
    | some desc => [("desc", .string desc)]
    | none => []) ++
  [("result", .string (if response.passed then "true" else "false")),
    ("subCommand", .ofInt response.subCommand.toInt)]

/-- The document of a response as it is read. -/
def received (response : Response) : Value :=
  .object response.sortedMembers

theorem ofMembers_members (response : Response) :
    Value.ofMembers response.members = response.received := by
  obtain ⟨kind, subCommand, data, passed, desc⟩ := response
  cases desc <;> rfl

theorem plain_code (depth : Nat) (kind : ResponseKind) : Plain depth (.ofNat kind.code) := by
  cases kind <;> exact .integer depth (by decide) (by decide)

theorem plain_int64 (depth : Nat) (n : Int64) : Plain depth (.ofInt n.toInt) := by
  have hmin := Int64.le_toInt n
  have hbound := Int64.toInt_lt n
  refine .integer depth ?_ ?_
  · simp only [Json.minInteger]
    omega
  · simp only [Json.integerBound]
    omega

theorem plain_of_mem_members {depth : Nat} {response : Response}
    (hdata : Plain depth response.data) {member : String × Value}
    (hmember : member ∈ response.members) : Plain depth member.2 := by
  rw [members, List.mem_append] at hmember
  rcases hmember with hmember | hmember
  · simp only [List.mem_cons, List.not_mem_nil, or_false] at hmember
    rcases hmember with rfl | rfl | rfl | rfl
    · exact plain_code depth response.kind
    · exact plain_int64 depth response.subCommand
    · exact hdata
    · exact .string depth _
  · split at hmember
    · rw [List.mem_singleton] at hmember
      subst hmember
      exact .string depth _
    · cases hmember

/-- The text of a response is read as its members in order.  The document
is one level deeper than the data. -/
theorem spells_document {depth : Nat} {response : Response} (hdata : Plain depth response.data) :
    Spells (depth + 1) response.document.render response.received := by
  rw [← ofMembers_members]
  exact Json.spells_object fun member hmember =>
    Json.spells_render (plain_of_mem_members hdata hmember)

/-- What stands under each key. -/
theorem member?_received (response : Response) :
    response.received.member? "cmdType" = some (.ofNat response.kind.code) ∧
      response.received.member? "data" = some response.data ∧
      response.received.member? "desc" = response.desc.map .string ∧
      response.received.member? "result" =
        some (.string (if response.passed then "true" else "false")) ∧
      response.received.member? "subCommand" = some (.ofInt response.subCommand.toInt) := by
  obtain ⟨kind, subCommand, data, passed, desc⟩ := response
  cases desc <;> exact ⟨rfl, rfl, rfl, rfl, rfl⟩

/-- Nothing of a response is lost in its document. -/
theorem received_injective : Function.Injective received := by
  intro first second h
  obtain ⟨hkind, hdata, hdesc, hresult, hcode⟩ := first.member?_received
  obtain ⟨hkind', hdata', hdesc', hresult', hcode'⟩ := second.member?_received
  rw [h] at hkind hdata hdesc hresult hcode
  rw [hkind] at hkind'
  rw [hdata] at hdata'
  rw [hdesc] at hdesc'
  rw [hresult] at hresult'
  rw [hcode] at hcode'
  have hsame : ∀ kind kind' : ResponseKind, some (Value.ofNat kind.code) =
      some (.ofNat kind'.code) → kind = kind' := by
    intro kind kind' h
    cases kind <;> cases kind' <;> first | rfl | cases h
  have hverdict : ∀ passed passed' : Bool, (if passed then "true" else "false") =
      (if passed' then "true" else "false") → passed = passed' := by
    decide
  obtain ⟨kind, subCommand, data, passed, desc⟩ := first
  obtain ⟨kind', subCommand', data', passed', desc'⟩ := second
  rw [Response.mk.injEq]
  exact ⟨hsame kind kind' hkind',
    Int64.toInt_inj.mp (Json.Number.integer.inj (Value.number.inj (Option.some.inj hcode'))),
    Option.some.inj hdata',
    hverdict passed passed' (Value.string.inj (Option.some.inj hresult')),
    Option.map_injective (fun _ _ => Value.string.inj) hdesc'⟩

/-- The command that is read from the document of a response. -/
theorem ofDocument_received (response : Response) (sequence : UInt16) :
    Command.ofDocument sequence response.received =
      .ok ⟨some (.ofCode response.subCommand), sequence, response.data⟩ := by
  obtain ⟨_, hdata, _, _, hcode⟩ := response.member?_received
  have hint : (Value.ofInt response.subCommand.toInt).int64? = some response.subCommand := by
    rw [Value.ofInt, Value.int64?, if_pos ⟨Int64.le_toInt _, Int64.toInt_le _⟩,
      Int64.ofInt_toInt]
  rw [Command.ofDocument, hcode]
  simp only [hint, hdata, Option.getD_some]

end Response

namespace Decoder

/-! ## Runs without a loss -/

/-- A run in which every byte became part of a command tells nothing else,
and leaves nothing behind. -/
theorem Follows.lossless {before after : Decoder} {stream : Bytes} {trace : List Sighting}
    (h : before.Follows after stream trace) (hwaiting : after.Waiting)
    (hempty : before.ring.toList = [])
    (hall : delivered (before.scanner.scan before.lastSequence stream) = stream.length) :
    trace = before.scanner.scan before.lastSequence stream ∧ after.buffered = 0 := by
  have hscan := h.notable_eq hwaiting
  rw [hempty, List.nil_append] at hscan
  have hlength : before.ring.length = 0 := by
    rw [← Ring.length_toList, hempty, List.length_nil]
  have haccount := h.account
  have hle := delivered_le_taken trace
  rw [← hscan, delivered_notable] at hall
  have hnotable : notable trace = trace :=
    notable_of_delivered (fun s hs => (h.progress s hs).1) (by omega)
  refine ⟨hnotable.symm.trans hscan, ?_⟩
  show after.ring.length = 0
  omega

/-- A frame around a command is all that a fresh decoder reads, under
either policy for repeats. -/
theorem receive_assemble {capacity : Nat} {policy : DuplicatePolicy} {sequence : UInt16}
    {content : Bytes} {command : Command} (hlength : content.length ≤ maxContent)
    (hfits : (assemble sequence content).length ≤ (fresh capacity policy).available)
    (hcommand : commandIn? (headerFor sequence content) (assemble sequence content) =
      some command) :
    ∃ decoder,
      (fresh capacity policy).receive (assemble sequence content) =
        .ok ([.success command], decoder) ∧
      decoder.step = (.incomplete, decoder) ∧
      decoder.buffered = 0 := by
  have hscanner : minLength + content.length ≤ (fresh capacity policy).scanner.capacity := by
    rw [Frame.length_assemble] at hfits
    exact hfits
  have hsettle : (fresh capacity policy).scanner.settle none (headerFor sequence content)
      (assemble sequence content) = .success command := by
    rw [Scanner.settle, if_neg, hcommand]
    rintro ⟨_, hrepeated⟩
    cases hrepeated
  have hnext : (fresh capacity policy).scanner.next? none (assemble sequence content ++ []) =
      some ⟨.success command, (assemble sequence content).length⟩ := by
    rw [Scanner.next?_assemble hlength hscanner, hsettle]
  rw [List.append_nil] at hnext
  -- nothing is left behind the frame
  have hdecode := decode_assemble sequence content []
  rw [List.append_nil] at hdecode
  have hscan := Scanner.scan_of_some hnext
  have hnone : (fresh capacity policy).scanner.next?
      ((Outcome.success command).lastAfter none) [] = none := rfl
  rw [fromMarker_of_markerAt (markerAt_of_decode hdecode), List.drop_length,
    Scanner.scan_of_none hnone] at hscan
  obtain ⟨outcomes, decoder, hreceive⟩ := receive_eq_ok_iff.mpr hfits
  obtain ⟨trace, rfl, hfollows, hwaiting⟩ := receive_follows (fresh_sound capacity policy) hreceive
  have hlast : (fresh capacity policy).lastSequence = none := rfl
  obtain ⟨htrace, hbuffered⟩ := hfollows.lossless hwaiting (fresh_toList capacity policy) (by
    rw [hlast, hscan]
    rfl)
  refine ⟨decoder, ?_, hwaiting.step, hbuffered⟩
  rw [hreceive, htrace, hlast, hscan]
  rfl

end Decoder

namespace Encoder

/-! ## Frames of responses -/

/-- The document of a response is found in the content of its frame, behind
the legacy marker or without it. -/
theorem document?_content (encoder : Encoder) {response : Response}
    (hdata : Plain 126 response.data) :
    document? (encoder.content response) = some response.received := by
  have hbytes := Json.ofBytes?_bytes (Response.spells_document hdata)
  obtain ⟨hplain, hmarked⟩ := Frame.document?_of_ofBytes? hbytes
  unfold content
  split_ifs
  · exact hmarked
  · exact hplain

/-- A frame goes out for a response: as an answer under the number of a
command, or as the next report. -/
def Sends (encoder : Encoder) (response : Response) (sequence : UInt16) (frame : Bytes) : Prop :=
  encoder.encodeResponse response sequence = .ok frame ∨
    encoder.reportSequence = sequence ∧
      ∃ after, encoder.encodeReport response = .ok (frame, after)

theorem Sends.eq_assemble {encoder : Encoder} {response : Response} {sequence : UInt16}
    {frame : Bytes} (h : encoder.Sends response sequence frame) :
    (encoder.content response).length ≤ maxContent ∧
      frame = assemble sequence (encoder.content response) := by
  rcases h with hanswer | ⟨rfl, after, hreport⟩
  · exact encodeResponse_eq_ok_iff.mp hanswer
  · unfold encodeReport at hreport
    cases hencode : encoder.encodeResponse response encoder.reportSequence with
    | error failure =>
      rw [hencode] at hreport
      cases hreport
    | ok built =>
      rw [hencode] at hreport
      cases hreport
      exact encodeResponse_eq_ok_iff.mp hencode

/-- Every frame that goes out for a response is read by a fresh decoder as
one command, and nothing else: its number is the number of the frame, its
kind has the code of the response, and its payload is the data.  The
document in the frame has the members of the response, so no other response
has a frame with this content. -/
theorem sends_received {encoder : Encoder} {response : Response} {sequence : UInt16}
    {frame : Bytes} (hdata : Plain 126 response.data)
    (hsends : encoder.Sends response sequence frame) :
    (∀ (capacity : Nat) (policy : DuplicatePolicy),
      frame.length ≤ (Decoder.fresh capacity policy).available →
        ∃ decoder,
          (Decoder.fresh capacity policy).receive frame =
            .ok ([.success ⟨some (.ofCode response.subCommand), sequence, response.data⟩],
              decoder) ∧
          decoder.step = (.incomplete, decoder) ∧
          decoder.buffered = 0) ∧
      ∃ parts,
        Frame.parts? frame = some parts ∧
        parts.sequence = sequence ∧
        document? parts.content = some response.received ∧
        ∀ (other : Encoder) (response' : Response) (sequence' : UInt16) (frame' : Bytes),
          Plain 126 response'.data → other.Sends response' sequence' frame' →
          (Frame.parts? frame').map Frame.Parts.content = some parts.content →
          response' = response := by
  obtain ⟨hlength, rfl⟩ := hsends.eq_assemble
  have hdocument := encoder.document?_content hdata
  refine ⟨?_, _, Frame.parts?_assemble hlength, rfl, hdocument, ?_⟩
  · intro capacity policy hfits
    exact Decoder.receive_assemble hlength hfits
      (Frame.commandIn?_assemble hlength hdocument (response.ofDocument_received sequence))
  · intro other response' sequence' frame' hdata' hsends' hcontent
    obtain ⟨hlength', rfl⟩ := hsends'.eq_assemble
    rw [Frame.parts?_assemble hlength', Option.map_some] at hcontent
    have hsame : document? (other.content response') = document? (encoder.content response) :=
      congrArg document? (Option.some.inj hcontent)
    rw [other.document?_content hdata', hdocument] at hsame
    exact Response.received_injective (Option.some.inj hsame)

/-- A report with nested data and a note, both with characters that have to
be escaped. -/
def nestedReport : Response where
  kind := .report
  subCommand := 7
  data := .object [("a", .array [.ofInt (-3), .string "\"\n\x01é"]), ("b", .null)]
  passed := false
  desc := some "x\\"

/-- The text of that report. -/
def nestedText : Bytes :=
  [123, 34, 99, 109, 100, 84, 121, 112, 101, 34, 58, 49, 44, 34, 115, 117, 98, 67, 111, 109, 109,
    97, 110, 100, 34, 58, 55, 44, 34, 100, 97, 116, 97, 34, 58, 123, 34, 97, 34, 58, 91, 45, 51,
    44, 34, 92, 34, 92, 110, 92, 117, 48, 48, 48, 49, 195, 169, 34, 93, 44, 34, 98, 34, 58, 110,
    117, 108, 108, 125, 44, 34, 114, 101, 115, 117, 108, 116, 34, 58, 34, 102, 97, 108, 115, 101,
    34, 44, 34, 100, 101, 115, 99, 34, 58, 34, 120, 92, 92, 34, 125]

/-- The frame of that report under the number 5, with the legacy marker. -/
def nestedFrame : Bytes :=
  assemble 5 (Frame.legacyMarker :: nestedText)

theorem plain_nestedReport : Plain 126 nestedReport.data := by
  refine .object (by decide) ?_
  intro member hmember
  simp only [List.mem_cons, List.not_mem_nil, or_false] at hmember
  rcases hmember with rfl | rfl
  · refine .array ?_
    intro element helement
    simp only [List.mem_cons, List.not_mem_nil, or_false] at helement
    rcases helement with rfl | rfl
    · exact .integer _ (by decide) (by decide)
    · exact .string _ _
  · exact .null _

/-- That report, numbered as the next one, read by a small decoder that
drops repeats. -/
theorem sends_received_nested :
    (∃ decoder,
      (Decoder.fresh 128 .reject).receive nestedFrame =
        .ok ([.success ⟨some (.ofCode 7), 5, nestedReport.data⟩], decoder) ∧
      decoder.step = (.incomplete, decoder) ∧
      decoder.buffered = 0) ∧
      ∃ parts,
        Frame.parts? nestedFrame = some parts ∧
        parts.sequence = 5 ∧
        document? parts.content = some nestedReport.received ∧
        ∀ (other : Encoder) (response' : Response) (sequence' : UInt16) (frame' : Bytes),
          Plain 126 response'.data → other.Sends response' sequence' frame' →
          (Frame.parts? frame').map Frame.Parts.content = some parts.content →
          response' = nestedReport := by
  have hcontent : content ⟨true, 5⟩ nestedReport = Frame.legacyMarker :: nestedText := by
    decide +kernel
  have hframe : encodeResponse ⟨true, 5⟩ nestedReport 5 = .ok nestedFrame := by
    rw [encodeResponse_eq_ok_iff, hcontent]
    exact ⟨by decide +kernel, rfl⟩
  have hsends : Sends ⟨true, 5⟩ nestedReport 5 nestedFrame := by
    refine .inr ⟨rfl, ⟨true, 6⟩, ?_⟩
    rw [encodeReport, hframe]
    rfl
  have hfits : nestedFrame.length ≤ (Decoder.fresh 128 .reject).available := by
    rw [nestedFrame, Frame.length_assemble]
    decide +kernel
  have hreceived := sends_received plain_nestedReport hsends
  exact ⟨hreceived.1 128 .reject hfits, hreceived.2⟩

end Encoder

end TestRig
