import TestRig.Encoder
import TestRig.Proofs.Decoder.Run
import TestRig.Proofs.Json.Edges
import Mathlib.Data.List.Forall2

/-!
# Decoding what was encoded

A stream of encoded frames is decoded into one command for each frame and
nothing else, however it is cut.  The proof has no decoder in it: the
scanner reads the frames one by one, and `Follows` carries that over.

* `document?_of_ofBytes?` says that the text of a document is found again
  in a frame, behind a marker byte or without one.
* `encodeFrame_eq_ok` takes an encoded frame apart, and `next?_assemble`
  says what the scanner sees at its front, whatever comes behind it.
* `Scanner.Delivers` is a frame that is read as a command in every state of
  the scanner; `scan_flatten` reads a stream of such frames.
* `notable_of_delivered` says that a trace without a loss has no gaps.
-/

namespace TestRig

open Frame
open Json (Value)

namespace Frame

/-! ## The content of a frame -/

theorem dropMarker_eq_self {content : Bytes} (h : content.head? ≠ some legacyMarker) :
    dropMarker content = content := by
  rcases content with _ | ⟨byte, rest⟩
  · rfl
  · rw [dropMarker, if_neg]
    rintro rfl
    exact h rfl

theorem dropPadding_eq_self {content : Bytes} (h : content.getLast? ≠ some 0) :
    dropPadding content = content := by
  rcases List.eq_nil_or_concat content with rfl | ⟨front, byte, rfl⟩
  · rfl
  · rw [List.concat_eq_append] at h ⊢
    have hbyte : (byte == 0) = false := by
      rw [beq_eq_false_iff_ne]
      rintro rfl
      exact h List.getLast?_concat
    rw [dropPadding, List.reverse_append, List.reverse_singleton, List.singleton_append,
      List.dropWhile_cons, hbyte, if_neg Bool.false_ne_true, List.reverse_cons,
      List.reverse_reverse]

/-- The text of a document is read out of a frame as that document, behind
a marker byte or without one. -/
theorem document?_of_ofBytes? {text : Bytes} {document : Value}
    (h : Value.ofBytes? text = some document) :
    document? text = some document ∧ document? (legacyMarker :: text) = some document := by
  have hhead := Json.head_ne_of_ofBytes? h
  have hpadding := dropPadding_eq_self (Json.getLast_ne_of_ofBytes? h)
  have hplain : document? text = some document := by
    rw [document?, dropMarker_eq_self hhead, hpadding, h]
  refine ⟨hplain, ?_⟩
  rw [document?, dropMarker, if_pos rfl, hpadding, h]

/-! ## An assembled frame -/

/-- The header of the frame around a content. -/
def headerFor (sequence : UInt16) (content : Bytes) : Header :=
  ⟨sequence, UInt16.ofNat content.length⟩

theorem decode_assemble (sequence : UInt16) (content later : Bytes) :
    Header.decode (assemble sequence content ++ later) = some (headerFor sequence content) := by
  rw [assemble, body, List.append_assoc, List.append_assoc]
  exact Header.decode_encode _ _

section Assembled

variable {sequence : UInt16} {content : Bytes} (h : content.length ≤ maxContent)
include h

theorem frameLength_headerFor :
    (headerFor sequence content).frameLength = minLength + content.length := by
  simp only [maxContent] at h
  simp only [Header.frameLength, headerFor, UInt16.toNat_ofNat']
  omega

theorem covered_assemble :
    covered (headerFor sequence content) (assemble sequence content) = body sequence content := by
  rw [covered, frameLength_headerFor h, assemble, List.take_left']
  simp only [body, List.length_append, Header.length_encode, minLength]
  omega

theorem contentIn_assemble :
    contentIn (headerFor sequence content) (assemble sequence content) = content := by
  have hlength : (headerFor sequence content).contentLength.toNat = content.length := by
    have hframe : (headerFor sequence content).frameLength = minLength + content.length :=
      frameLength_headerFor h
    rw [Header.frameLength] at hframe
    omega
  rw [contentIn, hlength, assemble, body, List.append_assoc, Header.drop_encode,
    List.take_left' rfl]

/-- The command of a document is read from the frame around its text. -/
theorem commandIn?_assemble {document : Value} {command : Command}
    (hdocument : document? content = some document)
    (hcommand : Command.ofDocument sequence document = .ok command) :
    commandIn? (headerFor sequence content) (assemble sequence content) = some command := by
  rw [commandIn?, contentIn_assemble h, hdocument, Option.bind_some]
  show (Command.ofDocument sequence document).toOption = some command
  rw [hcommand]
  rfl

theorem trailer_assemble :
    trailer (headerFor sequence content) (assemble sequence content) =
      Checksum.ofBytes (body sequence content) := by
  have hlength : (body sequence content).length = minLength + content.length - checksumSize := by
    simp only [body, List.length_append, Header.length_encode, minLength]
    omega
  rw [trailer, frameLength_headerFor h, ← hlength, assemble, Word.at?,
    List.getElem?_append_right (Nat.le_refl _), List.getElem?_append_right (Nat.le_succ _),
    Nat.succ_sub (Nat.le_refl _), Nat.sub_self]
  exact Word.ofBytes_toBytes _

end Assembled

end Frame

/-- An encoded frame is assembled around a content in which the document
of the text is found. -/
theorem Encoder.encodeFrame_eq_ok {encoder : Encoder} {text frame : Bytes} {sequence : UInt16}
    (h : encoder.encodeFrame text sequence = .ok frame) :
    ∃ content, document? content = Value.ofBytes? text ∧ (Value.ofBytes? text).isSome = true ∧
      content.length ≤ maxContent ∧ frame = assemble sequence content := by
  unfold Encoder.encodeFrame at h
  cases hdocument : Value.ofBytes? text with
  | none =>
    rw [hdocument] at h
    cases h
  | some document =>
    rw [hdocument] at h
    obtain ⟨hplain, hmarked⟩ := document?_of_ofBytes? hdocument
    simp only [Encoder.frame, buildAfter, List.singleton_append] at h
    split_ifs at h
    · obtain ⟨hlength, hframe⟩ := build_eq_ok_iff.mp h
      exact ⟨Frame.legacyMarker :: text, hmarked, rfl, hlength, hframe⟩
    · obtain ⟨hlength, hframe⟩ := build_eq_ok_iff.mp h
      exact ⟨text, hplain, rfl, hlength, hframe⟩

namespace Scanner

/-! ## Frames before the scanner -/

/-- The scanner sees an assembled frame that fits as a whole, and settles it. -/
theorem next?_assemble {scanner : Scanner} {sequence : UInt16} {content : Bytes}
    (h : content.length ≤ maxContent) (hfits : minLength + content.length ≤ scanner.capacity)
    (last : Option UInt16) (later : Bytes) :
    scanner.next? last (assemble sequence content ++ later) =
      some ⟨scanner.settle last (headerFor sequence content) (assemble sequence content),
        (assemble sequence content).length⟩ := by
  have hframe : (headerFor sequence content).frameLength = minLength + content.length :=
    frameLength_headerFor h
  have hlength := length_assemble sequence content
  have hdecode := decode_assemble sequence content later
  have hjudge : scanner.judge last (headerFor sequence content)
      (assemble sequence content ++ later) =
      ⟨scanner.settle last (headerFor sequence content) (assemble sequence content),
        (assemble sequence content).length⟩ := by
    rw [judge_append (by omega)]
    simp only [judge, covered_assemble h, trailer_assemble h, if_true]
    rw [hframe, hlength]
  simp only [next?, fromMarker_of_markerAt (markerAt_of_decode hdecode), hdecode,
    List.length_append]
  rw [if_neg (by omega), if_neg (by omega), if_neg (by omega), hjudge]

/-- A frame that is read as a command, whatever was read before it and
whatever comes behind it. -/
structure Delivers (scanner : Scanner) (frame : Bytes) (command : Command) : Prop where
  marker : ∀ later, MarkerAt (frame ++ later) 0
  next : ∀ last later, scanner.next? last (frame ++ later) = some ⟨.success command, frame.length⟩

/-- A scanner that accepts repeats reads every frame around a command. -/
theorem delivers_assemble {scanner : Scanner} {sequence : UInt16} {content : Bytes}
    {command : Command} (haccept : scanner.policy = .accept) (h : content.length ≤ maxContent)
    (hfits : minLength + content.length ≤ scanner.capacity)
    (hcommand : commandIn? (headerFor sequence content) (assemble sequence content) =
      some command) :
    scanner.Delivers (assemble sequence content) command where
  marker later := markerAt_of_decode (decode_assemble sequence content later)
  next last later := by
    rw [next?_assemble h hfits, settle, if_neg, hcommand]
    rintro ⟨hreject, _⟩
    rw [haccept] at hreject
    cases hreject

/-- A stream of such frames is read as their commands, and no byte of it is
lost. -/
theorem scan_flatten {scanner : Scanner} {frames : List Bytes} {commands : List Command}
    (h : List.Forall₂ scanner.Delivers frames commands) (last : Option UInt16) :
    (scanner.scan last frames.flatten).map Sighting.outcome = commands.map Outcome.success ∧
      delivered (scanner.scan last frames.flatten) = frames.flatten.length := by
  induction h generalizing last with
  | nil =>
    have hnone : scanner.next? last [] = none := rfl
    rw [List.flatten_nil, scan_of_none hnone]
    exact ⟨rfl, rfl⟩
  | @cons frame command frames commands hfirst _ ih =>
    rw [List.flatten_cons, scan_of_some (hfirst.next last _),
      fromMarker_of_markerAt (hfirst.marker _), List.drop_left]
    obtain ⟨houtcomes, hdelivered⟩ := ih (some command.sequence)
    constructor
    · rw [List.map_cons, List.map_cons, ← houtcomes]
      rfl
    · rw [List.length_append, ← hdelivered]
      rfl

end Scanner

/-! ## Traces without a loss -/

theorem delivered_le_taken (trace : List Sighting) : delivered trace ≤ taken trace := by
  induction trace with
  | nil => exact Nat.le_refl _
  | cons sighting rest ih =>
    simp only [delivered, taken] at ih ⊢
    split_ifs <;> omega

/-- A trace whose bytes all became part of a command has no gaps. -/
theorem notable_of_delivered {trace : List Sighting} (hspan : ∀ s ∈ trace, 0 < s.span)
    (h : delivered trace = taken trace) : notable trace = trace := by
  induction trace with
  | nil => rfl
  | cons sighting rest ih =>
    have hle := delivered_le_taken rest
    have hpos := hspan sighting (List.mem_cons_self ..)
    simp only [delivered, taken] at h hle
    have hsome : sighting.outcome.command?.isSome = true := by
      split_ifs at h with hsome
      · exact hsome
      · omega
    have hgap : sighting.outcome.isGap = false := by
      rw [Bool.eq_false_iff]
      intro hgap
      rw [(command?_of_isGap hgap).1] at hsome
      cases hsome
    rw [if_pos hsome] at h
    have hrest := ih (fun s hs => hspan s (List.mem_cons_of_mem _ hs)) (by omega)
    rw [notable] at hrest ⊢
    rw [List.filter_cons, hgap, Bool.not_false, if_pos rfl, hrest]

namespace Decoder

/-- A document names its kind of command by a 64-bit integer, or names none. -/
def namesKind (document : Value) : Bool :=
  (document.member? "subCommand").all fun given => given.int64?.isSome

theorem ofDocument_of_namesKind {document : Value} (h : namesKind document = true)
    (sequence : UInt16) : ∃ command, Command.ofDocument sequence document = .ok command := by
  rw [namesKind] at h
  unfold Command.ofDocument
  split
  · exact ⟨_, rfl⟩
  · rename_i given hgiven
    rw [hgiven, Option.all_some] at h
    obtain ⟨code, hcode⟩ := Option.isSome_iff_exists.mp h
    rw [hcode]
    exact ⟨_, rfl⟩

/-- An encoded message is a frame that is read as its command. -/
theorem delivers_encodeFrame {scanner : Scanner} {encoder : Encoder} {sequence : UInt16}
    {text frame : Bytes} (haccept : scanner.policy = .accept)
    (hframe : encoder.encodeFrame text sequence = .ok frame)
    (hkind : (Value.ofBytes? text).all namesKind = true) (hfits : frame.length ≤ scanner.capacity) :
    ∃ command, (Value.ofBytes? text).map (Command.ofDocument sequence) = some (.ok command) ∧
      scanner.Delivers frame command := by
  obtain ⟨content, hcontent, hsome, hlength, rfl⟩ := Encoder.encodeFrame_eq_ok hframe
  obtain ⟨document, hdocument⟩ := Option.isSome_iff_exists.mp hsome
  rw [hdocument] at hkind hcontent ⊢
  obtain ⟨command, hcommand⟩ := ofDocument_of_namesKind hkind sequence
  refine ⟨command, by rw [Option.map_some, hcommand], ?_⟩
  rw [length_assemble] at hfits
  exact Scanner.delivers_assemble haccept hlength hfits
    (commandIn?_assemble hlength hcontent hcommand)

theorem delivers_encodeFrames {scanner : Scanner} {messages : List (UInt16 × Bytes)}
    {frames : List Bytes} (haccept : scanner.policy = .accept)
    (hframes : List.Forall₂ (fun (message : UInt16 × Bytes) frame =>
      ∃ encoder : Encoder, encoder.encodeFrame message.2 message.1 = .ok frame) messages frames)
    (hkind : ∀ message ∈ messages, (Value.ofBytes? message.2).all namesKind = true)
    (hfits : ∀ frame ∈ frames, frame.length ≤ scanner.capacity) :
    ∃ commands : List Command,
      messages.map (fun message =>
        (Value.ofBytes? message.2).map (Command.ofDocument message.1)) =
          commands.map (fun command => some (.ok command)) ∧
      List.Forall₂ scanner.Delivers frames commands := by
  induction hframes with
  | nil => exact ⟨[], rfl, .nil⟩
  | @cons message frame messages frames hfirst _ ih =>
    obtain ⟨encoder, hframe⟩ := hfirst
    obtain ⟨command, hcommand, hdelivers⟩ := delivers_encodeFrame haccept hframe
      (hkind message (List.mem_cons_self ..)) (hfits frame (List.mem_cons_self ..))
    obtain ⟨commands, hcommands, hrest⟩ :=
      ih (fun m hm => hkind m (List.mem_cons_of_mem _ hm))
        (fun f hf => hfits f (List.mem_cons_of_mem _ hf))
    refine ⟨command :: commands, ?_, .cons hdelivers hrest⟩
    rw [List.map_cons, List.map_cons, hcommand, hcommands]

/-- A stream of encoded messages is decoded into one command for each
message, in order, and nothing of it is dropped or left over.  The messages
may be encoded with the legacy marker or without it. -/
theorem receiveAll_encodeFrame {capacity : Nat} {messages : List (UInt16 × Bytes)}
    {frames pieces : List Bytes}
    (hframes : List.Forall₂ (fun (message : UInt16 × Bytes) frame =>
      ∃ encoder : Encoder, encoder.encodeFrame message.2 message.1 = .ok frame) messages frames)
    (hkind : ∀ message ∈ messages, (Value.ofBytes? message.2).all namesKind = true)
    (hlengths : ∀ frame ∈ frames, frame.length ≤ (fresh capacity .accept).ring.capacity)
    (hstream : pieces.flatten = frames.flatten) (hfits : (fresh capacity .accept).Fits pieces) :
    ∃ (commands : List Command) (decoder : Decoder),
      messages.map (fun message =>
        (Value.ofBytes? message.2).map (Command.ofDocument message.1)) =
          commands.map (fun command => some (.ok command)) ∧
      (fresh capacity .accept).receiveAll pieces = (.ok (commands.map .success), decoder) ∧
      decoder.step = (.incomplete, decoder) ∧
      decoder.stats.bytesDiscarded = 0 ∧
      decoder.buffered = 0 := by
  have haccept : (fresh capacity .accept).scanner.policy = .accept := rfl
  obtain ⟨commands, hcommands, hdelivers⟩ :=
    delivers_encodeFrames haccept hframes hkind hlengths
  obtain ⟨trace, decoder, hrun, hfollows, hwaiting⟩ :=
    receiveAll_of_fits (fresh_sound capacity .accept) (fresh_waiting capacity .accept) hfits
  obtain ⟨houtcomes, hdelivered⟩ := Scanner.scan_flatten hdelivers none
  have hscan := hfollows.notable_eq hwaiting
  rw [fresh_toList, List.nil_append, hstream] at hscan
  have hdiscarded := hfollows.discarded
  have haccount := hfollows.account
  rw [hstream] at hdiscarded haccount
  -- every byte of the stream became part of a command
  have hall : delivered trace = frames.flatten.length := by
    rw [← delivered_notable, hscan]
    exact hdelivered
  have hstart : (fresh capacity .accept).ring.length = 0 := rfl
  have hzero : (fresh capacity .accept).stats.bytesDiscarded = 0 := rfl
  have hnotable : notable trace = trace :=
    notable_of_delivered (fun s hs => (hfollows.progress s hs).1) (by omega)
  refine ⟨commands, decoder, hcommands, ?_, hwaiting.step, by omega, ?_⟩
  · rw [hrun, ← hnotable, hscan, ← houtcomes]
    rfl
  · show decoder.ring.length = 0
    omega

/-- A text that holds a marker, behind the legacy byte, and an object that
names its kind; the stream is cut within the second marker. -/
theorem receiveAll_encodeFrame_marker_in_text :
    ∃ (commands : List Command) (decoder : Decoder),
      [((7 : UInt16), ([0x22, 0x3A, 0x3B, 0x22] : Bytes)),
          (8, [123, 34, 115, 117, 98, 67, 111, 109, 109, 97, 110, 100, 34, 58, 49, 125])].map
        (fun message => (Value.ofBytes? message.2).map (Command.ofDocument message.1)) =
          commands.map (fun command => some (.ok command)) ∧
      (fresh 24 .accept).receiveAll
          [[58, 59, 0, 7, 0, 5, 4, 34, 58, 59, 34, 119, 120, 58],
            [59, 0, 8, 0, 16, 123, 34, 115, 117, 98, 67, 111, 109, 109, 97, 110, 100, 34, 58, 49,
              125, 145, 18]] =
        (.ok (commands.map .success), decoder) ∧
      decoder.step = (.incomplete, decoder) ∧
      decoder.stats.bytesDiscarded = 0 ∧
      decoder.buffered = 0 := by
  have hframes : List.Forall₂ (fun (message : UInt16 × Bytes) frame =>
      ∃ encoder : Encoder, encoder.encodeFrame message.2 message.1 = .ok frame)
      [(7, [0x22, 0x3A, 0x3B, 0x22]),
        (8, [123, 34, 115, 117, 98, 67, 111, 109, 109, 97, 110, 100, 34, 58, 49, 125])]
      [[58, 59, 0, 7, 0, 5, 4, 34, 58, 59, 34, 119, 120],
        [58, 59, 0, 8, 0, 16, 123, 34, 115, 117, 98, 67, 111, 109, 109, 97, 110, 100, 34, 58, 49,
          125, 145, 18]] :=
    .cons ⟨{ legacyMarker := true }, by decide +kernel⟩
      (.cons ⟨{ legacyMarker := false }, by decide +kernel⟩ .nil)
  exact receiveAll_encodeFrame hframes (by decide +kernel) (by decide) rfl
    (fits_iff.mpr (by decide +kernel))

end Decoder

end TestRig
