import TestRig.Proofs.Codec.Consumption
import TestRig.Proofs.Ring.Refinement

/-!
# The stages of a decoder

A step of the decoder can be told as turns through ten stages, each of
which learns something and hands it to the next.  Between two calls only
two of them are seen: the first one, and the one that waits for the rest of
a frame.  The header that is kept there is always the one at the front of
the ring.

* `Stage` are the stages, `StagedCodec` is a codec that stores one, and
  `turn?` is one turn.  Every access to the ring is checked: a turn fails
  if a byte that it reads or drops is missing.
* `Stage.needs` are the bytes that must be there in a stage.  `pursues_turn?`
  is what one turn does under that condition: it goes on with what was left
  to do, one stage further, or answers.
* `answer?_eq` repeats the turns up to the answer, which is that of
  `Decoder.step`, and `call?_eq` and `behind?_eq` say the same of all calls
  and of runs of them.
* `stage_between_calls` is what a run of calls leaves behind.
-/

namespace TestRig

open Frame

/-! ## Checked access -/

/-- The two segments of the oldest bytes, if there are so many. -/
def Ring.front? (ring : Ring) (count : Nat) : Option (Bytes × Bytes) :=
  if count ≤ ring.length then ring.segments? count else none

/-- The ring behind its oldest bytes, if there are so many. -/
def Ring.drop? (ring : Ring) (count : Nat) : Option Ring :=
  if count ≤ ring.length then some (ring.consume count) else none

/-- The bytes from a position on, if the position is not behind them. -/
def Bytes.drop? (data : Bytes) (start : Nat) : Option Bytes :=
  if start ≤ data.length then some (data.drop start) else none

/-- Bytes that are there can be read. -/
theorem Ring.front?_eq {ring : Ring} {count : Nat} (h : count ≤ ring.length) :
    ring.front? count = some (ring.segments count) := by
  rw [front?, if_pos h, segments?_eq]

/-- A word that is there can be read. -/
theorem Ring.exists_word? (ring : Ring) (index : Nat) (h : index + 2 ≤ ring.length) :
    ∃ word, ring.word? index = some word := by
  have hlength := ring.length_toList
  rw [word?_eq, Word.at?, List.getElem?_eq_getElem (by omega), List.getElem?_eq_getElem (by omega)]
  exact ⟨_, rfl⟩

theorem Frame.checksumSize_le_frameLength (header : Header) :
    checksumSize ≤ header.frameLength :=
  Nat.le_trans (by decide) (minLength_le_frameLength header)

/-! ## Stages -/

/-- The stages of a decoder.  Later ones carry what earlier ones learned. -/
inductive Stage where
  | idle
  | findHeader
  | parseHeader
  | checkComplete (header : Header)
  | verifyChecksum (header : Header)
  | checkDuplicate (header : Header)
  | parsePayload (header : Header)
  | buildCommand (header : Header) (document : Json.Value)
  | consume (header : Header) (command : Command)
  | error (header : Header)

namespace Stage

/-- The stage that stands for a remembered header. -/
def stored (announced : Option Header) : Stage :=
  announced.elim idle checkComplete

/-- The number of bytes that must be there in a stage. -/
def needs : Stage → Nat
  | idle | checkComplete _ => 0
  | findHeader | parseHeader => minLength
  | error _ => 1
  | verifyChecksum header | checkDuplicate header | parsePayload header
  | buildCommand header _ | consume header _ => header.frameLength

/-- The number of turns from a stage to the answer, at the most. -/
def turns : Stage → Nat
  | consume .. | error _ => 1
  | buildCommand .. => 2
  | parsePayload _ => 3
  | checkDuplicate _ => 4
  | verifyChecksum _ => 5
  | checkComplete _ => 6
  | parseHeader => 7
  | findHeader => 8
  | idle => 9

theorem turns_le (stage : Stage) : stage.turns ≤ 9 := by
  cases stage <;> simp [turns]

@[simp] theorem needs_stored (announced : Option Header) : (stored announced).needs = 0 := by
  cases announced <;> rfl

end Stage

/-- A codec that stores the stage of its decoder. -/
structure StagedCodec where
  stage : Stage
  ring : Ring
  duplicatePolicy : DuplicatePolicy
  lastSequence : Option UInt16
  stats : DecoderStats
  encoder : Encoder

/-- A codec with the stage that its decoder stands in between two calls. -/
def Codec.staged (codec : Codec) : StagedCodec :=
  let decoder := codec.decoder
  ⟨.stored decoder.announced, decoder.ring, decoder.duplicatePolicy, decoder.lastSequence,
    decoder.stats, codec.encoder⟩

namespace StagedCodec

/-- What one turn comes to. -/
inductive Turn where
  /-- The next stage. -/
  | go (next : StagedCodec)
  /-- The outcome of the call, and what it leaves behind. -/
  | answer (outcome : Outcome) (after : StagedCodec)

/-- Drops bytes from the front and counts them. -/
def discard? (codec : StagedCodec) (count : Nat) : Option StagedCodec := do
  let ring ← codec.ring.drop? count
  let stats := { codec.stats with bytesDiscarded := codec.stats.bytesDiscarded + count }
  return { codec with ring, stats }

/-- Drops a frame whose content is not a command. -/
def dropUndecodable? (codec : StagedCodec) (header : Header) : Option Turn := do
  let counted := { codec.stats with undecodableFrames := codec.stats.undecodableFrames + 1 }
  let after ← { codec with stats := counted }.discard? header.frameLength
  return .answer (.retry .undecodableContent) after

/-- One turn.  The stage is taken out first, so that an answer leaves the
first stage behind unless it stores another one.  It fails if a byte is
missing that it reads or drops, or a difference is negative. -/
def turn? (codec : StagedCodec) : Option Turn :=
  let ring := codec.ring
  let taken := { codec with stage := .idle }
  match codec.stage with
  | .idle =>
    if ring.length < minLength then return .answer .incomplete taken
    else return .go { taken with stage := .findHeader }
  | .findHeader =>
    match ring.marker? with
    | some 0 => return .go { taken with stage := .parseHeader }
    | some (offset + 1) => do
      let after ← taken.discard? (offset + 1)
      return .answer (.retry (.skippedGarbage (offset + 1))) after
    | none => do
      let last ← Nat.psub ring.length 1
      -- the last byte stays if it could be the first half of a marker
      let kept := if ring.at? last == some markerHigh then 1 else 0
      let dropped ← Nat.psub ring.length kept
      let after ← taken.discard? dropped
      return .answer (.fault (.noHeader dropped)) after
  | .parseHeader => do
    let sequence ← ring.word? 2
    let contentLength ← ring.word? 4
    let header : Header := ⟨sequence, contentLength⟩
    if ring.capacity < header.frameLength then return .go { taken with stage := .error header }
    else return .go { taken with stage := .checkComplete header }
  | .checkComplete header =>
    if ring.length < header.frameLength then
      return .answer .incomplete { taken with stage := .checkComplete header }
    else return .go { taken with stage := .verifyChecksum header }
  | .verifyChecksum header => do
    let covered ← Nat.psub header.frameLength checksumSize
    let (head, tail) ← ring.front? covered
    let computed := Checksum.ofChunks [head, tail]
    let received ← ring.word? covered
    if computed = received then return .go { taken with stage := .checkDuplicate header }
    else
      let counted := { codec.stats with checksumFailures := codec.stats.checksumFailures + 1 }
      let after ← { taken with stats := counted }.discard? 2
      return .answer (.retry (.checksumMismatch computed received)) after
  | .checkDuplicate header =>
    if codec.duplicatePolicy == .reject && codec.lastSequence == some header.sequence then do
      let counted := { codec.stats with duplicatesDropped := codec.stats.duplicatesDropped + 1 }
      let after ← { taken with stats := counted }.discard? header.frameLength
      return .answer (.retry (.duplicate header.sequence)) after
    else return .go { taken with stage := .parsePayload header }
  | .parsePayload header => do
    let covered ← Nat.psub header.frameLength checksumSize
    let (head, tail) ← ring.front? covered
    let content ← Bytes.drop? (head ++ tail) headerSize
    match document? content with
    | some document => return .go { taken with stage := .buildCommand header document }
    | none => taken.dropUndecodable? header
  | .buildCommand header document =>
    match Command.ofDocument header.sequence document with
    | .ok command => return .go { taken with stage := .consume header command }
    | .error _ => taken.dropUndecodable? header
  | .consume header command => do
    let ring ← ring.drop? header.frameLength
    let stats := { codec.stats with framesDecoded := codec.stats.framesDecoded + 1 }
    return .answer (.success command)
      { taken with ring, stats, lastSequence := some header.sequence }
  | .error header => do
    let after ← taken.discard? 1
    return .answer (.fault (.oversized header.contentLength)) after

/-- Turns up to the answer.  It fails with a turn, or if the turns are too
few. -/
def answer? (codec : StagedCodec) : (turns : Nat) → Option (Outcome × StagedCodec)
  | 0 => none
  | turns + 1 => do
    match ← codec.turn? with
    | .go next => next.answer? turns
    | .answer outcome after => return (outcome, after)

/-- One call: its answer and the codec behind it.  A step has nine turns. -/
def call? (codec : StagedCodec) : Codec.Call → Option (Codec.Answer × StagedCodec)
  | .write data =>
    match codec.ring.append data with
    | .ok ring => return (.written (.ok ()), { codec with ring })
    | .error failure => return (.written (.error failure), codec)
  | .step => do
    let (outcome, after) ← codec.answer? 9
    return (.told outcome, after)
  | .reset =>
    return (.done, { codec with stage := .idle, ring := codec.ring.clear, lastSequence := none })
  | .encodeFrame content sequence =>
    return (.encoded (codec.encoder.encodeFrame content sequence), codec)
  | .encodeResponse response sequence =>
    return (.encoded (codec.encoder.encodeResponse response sequence), codec)
  | .encodeReport response =>
    match codec.encoder.encodeReport response with
    | .ok (frame, encoder) => return (.encoded (.ok frame), { codec with encoder })
    | .error failure => return (.encoded (.error failure), codec)

/-- The codec behind a run of calls, if none of them fails. -/
def behind? (codec : StagedCodec) : List Codec.Call → Option StagedCodec
  | [] => some codec
  | call :: calls => do
    let (_, after) ← codec.call? call
    after.behind? calls

/-! ## Turns -/

/-- The decoder of a codec, without a remembered header. -/
def decoder (codec : StagedCodec) : Decoder :=
  ⟨codec.ring, none, codec.duplicatePolicy, codec.lastSequence, codec.stats⟩

/-- What is left to do in a stage. -/
def rest (codec : StagedCodec) : Outcome × Decoder :=
  let decoder := codec.decoder
  match codec.stage with
  | .idle => decoder.step
  | .findHeader => decoder.seek
  | .parseHeader => decoder.readHeader
  | .checkComplete header => decoder.await header
  | .verifyChecksum header => decoder.verify header
  | .checkDuplicate header => decoder.accept header
  | .parsePayload header =>
    (decoder.command? header).elim (decoder.dropUndecodable header) (decoder.deliver header)
  | .buildCommand header document =>
    (Command.ofDocument header.sequence document).toOption.elim
      (decoder.dropUndecodable header) (decoder.deliver header)
  | .consume header command => decoder.deliver header command
  | .error header => (.fault (.oversized header.contentLength), decoder.discard 1)

/-- What a turn has to do: go on with what was left, one stage further, or
come to its end.  A turn that fails does neither. -/
inductive Pursues (codec : StagedCodec) : Option Turn → Prop where
  | go (stage : Stage) (hneeds : stage.needs ≤ codec.ring.length)
      (hturns : stage.turns < codec.stage.turns)
      (hrest : { codec with stage }.rest = codec.rest) :
      Pursues codec (some (.go { codec with stage }))
  | answer {after : StagedCodec} (outcome : Outcome) (decoder : Decoder)
      (hrest : codec.rest = (outcome, decoder))
      (hafter : after = Codec.staged ⟨decoder, codec.encoder⟩) :
      Pursues codec (some (.answer outcome after))

section Turns

variable {ring : Ring} {policy : DuplicatePolicy} {last : Option UInt16} {stats : DecoderStats}
  {encoder : Encoder} {header : Header}

/-- Bytes that are there are dropped as the decoder does. -/
theorem pursues_discard {stage : Stage} {counted : DecoderStats} {outcome : Outcome} {count : Nat}
    (hle : count ≤ ring.length)
    (hrest : rest ⟨stage, ring, policy, last, stats, encoder⟩ =
      (outcome, (Decoder.mk ring none policy last counted).discard count)) :
    Pursues ⟨stage, ring, policy, last, stats, encoder⟩ (do
      let after ← discard? ⟨.idle, ring, policy, last, counted, encoder⟩ count
      return .answer outcome after) := by
  simp only [discard?, Ring.drop?, if_pos hle]
  refine .answer outcome _ hrest ?_
  simp only [Codec.staged, Decoder.discard, Nat.min_eq_left hle]
  rfl

/-- The stage that looks for a marker. -/
theorem pursues_findHeader (hneeds : minLength ≤ ring.length) :
    Pursues ⟨.findHeader, ring, policy, last, stats, encoder⟩
      (turn? ⟨.findHeader, ring, policy, last, stats, encoder⟩) := by
  have hpos : 1 ≤ ring.length := Nat.le_trans (by decide) hneeds
  simp only [turn?]
  split
  · rename_i hfound
    refine .go .parseHeader hneeds (by simp [Stage.turns]) ?_
    simp only [rest, decoder, Decoder.seek, hfound]
  · rename_i offset hfound
    -- the marker is among the buffered bytes, so those before it are all there
    obtain ⟨hmarker, -⟩ := Ring.markerFrom?_eq_some hfound
    have hinside := (List.getElem?_eq_some_iff.mp hmarker.1).1
    rw [Ring.length_toList] at hinside
    refine pursues_discard (Nat.le_of_lt hinside) ?_
    simp only [rest, decoder, Decoder.seek, hfound]
  · rename_i hnone
    have hkept : (if ring.at? (ring.length - 1) == some markerHigh then 1 else 0) ≤ ring.length := by
      split_ifs
      · exact hpos
      · exact Nat.zero_le _
    simp only [Nat.psub_eq_sub hpos, Nat.psub_eq_sub hkept, Option.bind_eq_bind, Option.bind_some]
    refine pursues_discard (Nat.sub_le _ _) ?_
    simp only [rest, decoder, Decoder.seek, hnone]
    rfl

/-- The stage that reads the header. -/
theorem pursues_parseHeader (hneeds : minLength ≤ ring.length) :
    Pursues ⟨.parseHeader, ring, policy, last, stats, encoder⟩
      (turn? ⟨.parseHeader, ring, policy, last, stats, encoder⟩) := by
  simp only [minLength, headerSize, checksumSize] at hneeds
  obtain ⟨sequence, hsequence⟩ := ring.exists_word? 2 (by omega)
  obtain ⟨contentLength, hcontent⟩ := ring.exists_word? 4 (by omega)
  have hrest : rest ⟨.parseHeader, ring, policy, last, stats, encoder⟩ =
      if ring.capacity < (Header.mk sequence contentLength).frameLength then
        rest ⟨.error ⟨sequence, contentLength⟩, ring, policy, last, stats, encoder⟩
      else rest ⟨.checkComplete ⟨sequence, contentLength⟩, ring, policy, last, stats, encoder⟩ := by
    simp only [rest, decoder, Decoder.readHeader, hsequence, hcontent]
    rfl
  simp only [turn?, hsequence, hcontent, Option.bind_eq_bind, Option.bind_some]
  split_ifs with hlarge
  · refine .go (.error ⟨sequence, contentLength⟩) ?_ (by simp [Stage.turns]) ?_
    · show 1 ≤ ring.length
      omega
    · rw [hrest, if_pos hlarge]
  · refine .go (.checkComplete ⟨sequence, contentLength⟩) (Nat.zero_le _) (by simp [Stage.turns]) ?_
    rw [hrest, if_neg hlarge]

/-- The stage that compares the checksums. -/
theorem pursues_verifyChecksum (hneeds : header.frameLength ≤ ring.length) :
    Pursues ⟨.verifyChecksum header, ring, policy, last, stats, encoder⟩
      (turn? ⟨.verifyChecksum header, ring, policy, last, stats, encoder⟩) := by
  have hcovered := checksumSize_le_frameLength header
  obtain ⟨received, hreceived⟩ := ring.exists_word? (header.frameLength - checksumSize)
    (Nat.le_trans (Nat.le_of_eq (Nat.sub_add_cancel hcovered)) hneeds)
  have hrest : rest ⟨.verifyChecksum header, ring, policy, last, stats, encoder⟩ =
      Decoder.verify ⟨ring, none, policy, last, stats⟩ header := rfl
  rw [Decoder.verify, Decoder.receivedChecksum, hreceived] at hrest
  simp only [turn?, Nat.psub_eq_sub hcovered, Ring.front?_eq (Nat.le_trans (Nat.sub_le _ _) hneeds),
    hreceived, Option.bind_eq_bind, Option.bind_some]
  split_ifs with hequal
  · refine .go (.checkDuplicate header) hneeds (by simp [Stage.turns]) ?_
    rw [hrest]
    exact (if_pos hequal).symm
  · refine pursues_discard (Nat.le_trans hcovered hneeds) ?_
    rw [hrest]
    exact if_neg hequal

/-- The stage that reads the document. -/
theorem pursues_parsePayload (hneeds : header.frameLength ≤ ring.length) :
    Pursues ⟨.parsePayload header, ring, policy, last, stats, encoder⟩
      (turn? ⟨.parsePayload header, ring, policy, last, stats, encoder⟩) := by
  have hmin := minLength_le_frameLength header
  have hcovered := checksumSize_le_frameLength header
  have hcontent : Bytes.drop? ((ring.segments (header.frameLength - checksumSize)).1 ++
      (ring.segments (header.frameLength - checksumSize)).2) headerSize =
        some (Decoder.content ⟨ring, none, policy, last, stats⟩ header) := by
    refine if_pos ?_
    rw [Ring.segments_append, List.length_take, Ring.length_toList]
    simp only [minLength, headerSize, checksumSize] at hmin ⊢
    omega
  have hrest : rest ⟨.parsePayload header, ring, policy, last, stats, encoder⟩ =
      (Decoder.command? ⟨ring, none, policy, last, stats⟩ header).elim
        (Decoder.dropUndecodable ⟨ring, none, policy, last, stats⟩ header)
        (Decoder.deliver ⟨ring, none, policy, last, stats⟩ header) := rfl
  rw [Decoder.command?] at hrest
  simp only [turn?, Nat.psub_eq_sub hcovered, Ring.front?_eq (Nat.le_trans (Nat.sub_le _ _) hneeds),
    hcontent, Option.bind_eq_bind, Option.bind_some]
  split
  · rename_i document hdocument
    refine .go (.buildCommand header document) hneeds (by simp [Stage.turns]) ?_
    rw [hrest, hdocument]
    rfl
  · rename_i hnone
    refine pursues_discard hneeds ?_
    rw [hrest, hnone]
    rfl

/-- A turn goes on with what was left to do. -/
theorem pursues_turn? {codec : StagedCodec} (hneeds : codec.stage.needs ≤ codec.ring.length) :
    codec.Pursues codec.turn? := by
  obtain ⟨stage, ring, policy, last, stats, encoder⟩ := codec
  cases stage with
  | idle =>
    simp only [turn?]
    split_ifs with hshort
    · exact .answer .incomplete _ (if_pos hshort) rfl
    · exact .go .findHeader (Nat.le_of_not_lt hshort) (by simp [Stage.turns]) (if_neg hshort).symm
  | findHeader => exact pursues_findHeader hneeds
  | parseHeader => exact pursues_parseHeader hneeds
  | checkComplete header =>
    simp only [turn?]
    split_ifs with hshort
    · exact .answer .incomplete _ (if_pos hshort) rfl
    · exact .go (.verifyChecksum header) (Nat.le_of_not_lt hshort) (by simp [Stage.turns])
        (if_neg hshort).symm
  | verifyChecksum header => exact pursues_verifyChecksum hneeds
  | checkDuplicate header =>
    simp only [turn?]
    split_ifs with hduplicate
    · exact pursues_discard hneeds (if_pos hduplicate)
    · have hfirst : ¬ Decoder.isDuplicate ⟨ring, none, policy, last, stats⟩ header = true :=
        hduplicate
      refine .go (.parsePayload header) hneeds (by simp [Stage.turns]) ?_
      show _ = Decoder.accept ⟨ring, none, policy, last, stats⟩ header
      rw [Decoder.accept, if_neg hfirst]
      simp only [rest, decoder]
      cases Decoder.command? ⟨ring, none, policy, last, stats⟩ header <;> rfl
  | parsePayload header => exact pursues_parsePayload hneeds
  | buildCommand header document =>
    simp only [turn?]
    split
    · rename_i command hcommand
      refine .go (.consume header command) hneeds (by simp [Stage.turns]) ?_
      simp only [rest, hcommand]
      rfl
    · rename_i failure hcommand
      refine pursues_discard hneeds ?_
      simp only [rest, hcommand]
      rfl
  | consume header command =>
    have hall : header.frameLength ≤ ring.length := hneeds
    simp only [turn?, Ring.drop?, if_pos hall]
    exact .answer (.success command) _ rfl rfl
  | error header => exact pursues_discard hneeds rfl

end Turns

/-! ## Calls -/

/-- The turns come to the answer of what was left to do. -/
theorem answer?_eq {codec : StagedCodec} (hneeds : codec.stage.needs ≤ codec.ring.length)
    {turns : Nat} (hturns : codec.stage.turns ≤ turns) :
    codec.answer? turns = some (codec.rest.1, Codec.staged ⟨codec.rest.2, codec.encoder⟩) := by
  -- every turn that goes on leaves a stage with fewer turns to come
  induction turns generalizing codec with
  | zero =>
    have hpos : 0 < codec.stage.turns := by cases codec.stage <;> simp [Stage.turns]
    omega
  | succ turns ih =>
    have hpursues := pursues_turn? hneeds
    rw [answer?]
    generalize codec.turn? = turn at hpursues ⊢
    cases hpursues with
    | go stage hneeds hless hrest =>
      rw [← hrest]
      exact ih hneeds (by change stage.turns ≤ turns; omega)
    | answer outcome decoder hrest hafter =>
      rw [hrest, hafter]
      rfl

/-- What is left to do between two calls is a step. -/
theorem rest_staged (codec : Codec) : codec.staged.rest = codec.decoder.step := by
  obtain ⟨⟨ring, announced, policy, last, stats⟩, encoder⟩ := codec
  cases announced <;> rfl

/-- No call fails, and it does what the call of the codec does. -/
theorem call?_eq (codec : Codec) (call : Codec.Call) :
    codec.staged.call? call = some ((codec.call call).1, (codec.call call).2.staged) := by
  cases call with
  | write data =>
    obtain ⟨⟨ring, announced, policy, last, stats⟩, encoder⟩ := codec
    simp only [call?, Codec.call, Codec.staged, Decoder.write]
    cases ring.append data <;> rfl
  | step =>
    have hneeds : codec.staged.stage.needs ≤ codec.staged.ring.length := by
      simp [Codec.staged]
    rw [call?, answer?_eq hneeds (Stage.turns_le _), rest_staged]
    rfl
  | reset => rfl
  | encodeFrame content sequence => rfl
  | encodeResponse response sequence => rfl
  | encodeReport response =>
    simp only [call?, Codec.call, Codec.staged]
    cases codec.encoder.encodeReport response <;> rfl

/-- No call of a run fails, and the run does what that of the codec does. -/
theorem behind?_eq (codec : Codec) (calls : List Codec.Call) :
    codec.staged.behind? calls = some (codec.behind calls).staged := by
  induction calls generalizing codec with
  | nil => rfl
  | cons call calls ih =>
    rw [behind?, call?_eq]
    exact ih _

/-- The stage between two calls.  Take any capacity and any calls: writes,
also refused ones, steps, resets and encodings.  No turn of them fails, so
no byte is missing that a turn reads or drops, and every call answers what
that of the codec does.  The stored stage is the first one, or the one that
waits for the frame of a header; then the header stands at the front of the
ring, and its frame fits the ring.  If a step from there waits, then the
bytes of the shortest frame, or of the announced one, are not all there, and
the ring has room for one more. -/
theorem stage_between_calls (capacity : Nat) (policy : DuplicatePolicy) (legacyMarker : Bool)
    (calls : List Codec.Call) :
    let start := Codec.fresh capacity policy legacyMarker
    let codec := start.behind calls
    ∃ reached, start.staged.behind? calls = some reached ∧ reached = codec.staged ∧
      (reached.stage = .idle ∨ ∃ header, reached.stage = .checkComplete header ∧
        reached.ring.toList.take headerSize = header.encode ∧
        header.frameLength ≤ reached.ring.capacity) ∧
      (∀ call, reached.call? call = some ((codec.call call).1, (codec.call call).2.staged)) ∧
      ∀ after, reached.call? .step = some (.told .incomplete, after) →
        0 < after.ring.available ∧
          (after.stage = .idle ∧ after.ring.length < minLength ∨
            ∃ header, after.stage = .checkComplete header ∧
              after.ring.length < header.frameLength) := by
  intro start codec
  have hsound : codec.decoder.Sound := (Codec.sound_behind (Decoder.fresh_sound _ _) calls).1
  refine ⟨codec.staged, behind?_eq start calls, rfl, ?_, call?_eq codec, ?_⟩
  · cases hannounced : codec.decoder.announced with
    | none => exact .inl (congrArg Stage.stored hannounced)
    | some header =>
      obtain ⟨hheader, hfits⟩ := hsound.announced header hannounced
      exact .inr ⟨header, congrArg Stage.stored hannounced, (Header.encode_of_decode hheader).symm,
        hfits⟩
  · intro after hcall
    rw [call?_eq] at hcall
    obtain ⟨htold, rfl⟩ := Prod.mk.inj (Option.some.inj hcall)
    have hmove := Decoder.step_move hsound
    rw [show codec.decoder.step = (.incomplete, codec.decoder.step.2) from
      Prod.ext (Codec.Answer.told.inj htold) rfl] at hmove
    obtain ⟨hwaiting, hafter, -⟩ := hmove.waits
    refine ⟨Nat.sub_pos_of_lt (hwaiting.room hafter), ?_⟩
    unfold Decoder.Waiting at hwaiting
    cases hannounced : codec.decoder.step.2.announced with
    | none =>
      rw [hannounced] at hwaiting
      exact .inl ⟨congrArg Stage.stored hannounced, hwaiting⟩
    | some header =>
      rw [hannounced] at hwaiting
      exact .inr ⟨header, congrArg Stage.stored hannounced, hwaiting⟩

/-- Eleven bytes are there of a frame with sixteen. -/
example : ((Codec.fresh 64 .accept false).staged.behind?
    [.write [0x3A, 0x3B, 0, 7, 0, 8, 1, 2, 3, 4, 5], .step]).map (·.stage) =
      some (.checkComplete ⟨7, 8⟩) :=
  rfl

end StagedCodec

end TestRig
