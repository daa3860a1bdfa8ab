import TestRig.Decoder.Basic
import TestRig.Proofs.Ring.View

/-!
# The one-pass scanner

The scanner has the whole stream before it.  It looks for the next marker,
judges what stands there, and goes on behind it.  It has no ring, waits
for nothing and remembers no header, so it says in a few lines what the
decoder is for.

* `fromMarker` is the stream from its first marker on.  `fromMarker_drop`
  says that bytes without a marker can be dropped without harm.
* `Scanner.next?` is the first sighting in a stream and `Scanner.scan` all
  of them, in order.
* `next?_append` is the fact that decoding in pieces rests on: a sighting
  does not depend on the bytes behind it.
-/

namespace TestRig

open Frame (Header)

namespace Frame

/-! ## Markers in a byte string -/

/-- The marker stands at a place of a byte string. -/
def MarkerAt (data : Bytes) (index : Nat) : Prop :=
  data[index]? = some markerHigh ∧ data[index + 1]? = some markerLow

/-- A byte string from its first marker on; nothing if there is none. -/
def fromMarker : Bytes → Bytes
  | hi :: lo :: rest => if isMarker hi lo then hi :: lo :: rest else fromMarker (lo :: rest)
  | _ => []

theorem isMarker_iff {hi lo : UInt8} : isMarker hi lo = true ↔ hi = markerHigh ∧ lo = markerLow := by
  simp [isMarker]

theorem fromMarker_of_markerAt {data : Bytes} (h : MarkerAt data 0) : fromMarker data = data := by
  obtain ⟨hhi, hlo⟩ := h
  rcases data with _ | ⟨hi, _ | ⟨lo, rest⟩⟩
  · simp at hhi
  · simp at hlo
  · simp only [List.getElem?_cons_zero, List.getElem?_cons_succ, Option.some.injEq] at hhi hlo
    rw [fromMarker, if_pos (isMarker_iff.mpr ⟨hhi, hlo⟩)]

/-- Bytes at which no marker starts do not matter to the search. -/
theorem fromMarker_drop {data : Bytes} {count : Nat} (h : ∀ i, i < count → ¬ MarkerAt data i) :
    fromMarker (data.drop count) = fromMarker data := by
  induction count generalizing data with
  | zero => rfl
  | succ count ih =>
    rcases data with _ | ⟨hi, _ | ⟨lo, rest⟩⟩
    · rfl
    · simp [fromMarker]
    · have hnone : isMarker hi lo = false := by
        rw [Bool.eq_false_iff]
        intro hmarker
        obtain ⟨rfl, rfl⟩ := isMarker_iff.mp hmarker
        exact h 0 (by omega) ⟨rfl, rfl⟩
      rw [List.drop_succ_cons, fromMarker, hnone, if_neg Bool.false_ne_true]
      apply ih
      intro i hi hmarker
      exact h (i + 1) (by omega) hmarker

theorem markerAt_of_append {data later : Bytes} {index : Nat}
    (h : MarkerAt (data ++ later) index) (hindex : index + 1 < data.length) :
    MarkerAt data index := by
  rw [MarkerAt, List.getElem?_append_left (by omega), List.getElem?_append_left hindex] at h
  exact h

theorem length_fromMarker_le (data : Bytes) : (fromMarker data).length ≤ data.length := by
  fun_induction fromMarker data with
  | case1 => exact Nat.le_refl _
  | case2 hi lo rest _ ih => exact Nat.le_succ_of_le ih
  | case3 => exact Nat.zero_le _

/-! ## Headers in a byte string -/

/-- A marker with four bytes behind it opens a header. -/
theorem decode_of_markerAt {data : Bytes} (hmarker : MarkerAt data 0)
    (hlength : headerSize ≤ data.length) :
    ∃ header, Header.decode data = some header ∧ Word.at? data 2 = some header.sequence ∧
      Word.at? data 4 = some header.contentLength := by
  obtain ⟨hhi, hlo⟩ := hmarker
  rcases data with _ | ⟨hi, _ | ⟨lo, _ | ⟨s1, _ | ⟨s0, _ | ⟨l1, _ | ⟨l0, rest⟩⟩⟩⟩⟩⟩
  case cons.cons.cons.cons.cons.cons =>
    simp only [List.getElem?_cons_zero, List.getElem?_cons_succ, Option.some.injEq] at hhi hlo
    refine ⟨⟨Word.ofBytes s1 s0, Word.ofBytes l1 l0⟩, ?_, rfl, rfl⟩
    rw [Header.decode, if_pos (isMarker_iff.mpr ⟨hhi, hlo⟩)]
  all_goals
    simp [headerSize] at hlength

theorem markerAt_of_decode {data : Bytes} {header : Header} (h : Header.decode data = some header) :
    MarkerAt data 0 := by
  unfold Header.decode at h
  split at h
  · split at h
    · rename_i hmarker
      obtain ⟨rfl, rfl⟩ := isMarker_iff.mp hmarker
      exact ⟨rfl, rfl⟩
    · cases h
  · cases h

/-- A header does not depend on the bytes behind it. -/
theorem decode_append {data : Bytes} {header : Header} (h : Header.decode data = some header)
    (later : Bytes) : Header.decode (data ++ later) = some header := by
  have hencode := Header.encode_of_decode h
  have hdata : data = header.encode ++ data.drop headerSize := by
    rw [hencode, List.take_append_drop]
  rw [hdata, List.append_assoc, Header.decode_encode]

/-! ## A complete frame at the front of a byte string -/

theorem minLength_le_frameLength (header : Header) : minLength ≤ header.frameLength :=
  Nat.le_add_right _ _

/-- Header and content of the frame at the front, the part that its
checksum covers. -/
def covered (header : Header) (data : Bytes) : Bytes :=
  data.take (header.frameLength - checksumSize)

/-- The content of the frame at the front. -/
def contentIn (header : Header) (data : Bytes) : Bytes :=
  (data.drop headerSize).take header.contentLength.toNat

/-- The checksum that the frame at the front carries. -/
def trailer (header : Header) (data : Bytes) : UInt16 :=
  (Word.at? data (header.frameLength - checksumSize)).getD 0

/-- The command in the content of the frame at the front. -/
def commandIn? (header : Header) (data : Bytes) : Option Command :=
  (document? (contentIn header data)).bind fun document =>
    (Command.ofDocument header.sequence document).toOption

/-- The word at a place does not depend on the bytes behind it. -/
theorem at?_append {data : Bytes} {index : Nat} (h : index + 1 < data.length) (later : Bytes) :
    Word.at? (data ++ later) index = Word.at? data index := by
  simp only [Word.at?]
  rw [List.getElem?_append_left (by omega), List.getElem?_append_left h]

section Append

variable {header : Header} {data : Bytes} (h : header.frameLength ≤ data.length) (later : Bytes)
include h

theorem covered_append : covered header (data ++ later) = covered header data := by
  rw [covered, covered, List.take_append_of_le_length (by omega)]

theorem contentIn_append : contentIn header (data ++ later) = contentIn header data := by
  have hlength : headerSize + header.contentLength.toNat ≤ data.length := by
    simp only [Header.frameLength, minLength] at h
    omega
  rw [contentIn, contentIn, List.drop_append_of_le_length (by omega),
    List.take_append_of_le_length (by rw [List.length_drop]; omega)]

theorem trailer_append : trailer header (data ++ later) = trailer header data := by
  have hmin := minLength_le_frameLength header
  simp only [minLength, checksumSize] at hmin
  rw [trailer, trailer, at?_append (by simp only [checksumSize]; omega)]

theorem commandIn?_append : commandIn? header (data ++ later) = commandIn? header data := by
  rw [commandIn?, commandIn?, contentIn_append h]

end Append

end Frame

open Frame

/-! ## Outcomes -/

/-- Only bytes without a marker were dropped. -/
def Outcome.isGap : Outcome → Bool
  | retry (.skippedGarbage _) => true
  | fault (.noHeader _) => true
  | _ => false

/-- The sequence number of the last command, after one more outcome. -/
def Outcome.lastAfter (last : Option UInt16) : Outcome → Option UInt16
  | success command => some command.sequence
  | _ => last

/-- A command carries the sequence number of its frame. -/
theorem sequence_of_commandIn? {header : Header} {data : Bytes} {command : Command}
    (h : commandIn? header data = some command) : command.sequence = header.sequence := by
  obtain ⟨document, _, hcommand⟩ := Option.bind_eq_some_iff.mp h
  unfold Command.ofDocument at hcommand
  split at hcommand
  · cases hcommand
    rfl
  · split at hcommand
    · cases hcommand
      rfl
    · cases hcommand

/-! ## The scanner -/

/-- An outcome and the number of bytes that are given up or consumed
with it. -/
structure Sighting where
  outcome : Outcome
  /-- Number of bytes taken. -/
  span : Nat

/-- The scanner for frames up to a length. -/
structure Scanner where
  /-- The longest frame that is read. -/
  capacity : Nat
  /-- What happens to a repeated sequence number. -/
  policy : DuplicatePolicy

namespace Scanner

/-- What becomes of a complete frame whose checksum is right. -/
def settle (scanner : Scanner) (last : Option UInt16) (header : Header) (data : Bytes) : Outcome :=
  if scanner.policy = .reject ∧ last = some header.sequence then
    .retry (.duplicate header.sequence)
  else
    match commandIn? header data with
    | some command => .success command
    | none => .retry .undecodableContent

/-- What becomes of a complete frame. -/
def judge (scanner : Scanner) (last : Option UInt16) (header : Header) (data : Bytes) : Sighting :=
  let computed := Checksum.ofBytes (covered header data)
  let received := trailer header data
  if computed = received then ⟨scanner.settle last header data, header.frameLength⟩
  else ⟨.retry (.checksumMismatch computed received), 2⟩

/-- What is seen at the first marker of a stream.  Nothing is seen if there
is no marker, if the stream ends within the shortest frame, or if it ends
within the announced frame. -/
def next? (scanner : Scanner) (last : Option UInt16) (stream : Bytes) : Option Sighting :=
  let data := fromMarker stream
  if data.length < minLength then none
  else
    match Header.decode data with
    | none => none
    | some header =>
      if scanner.capacity < header.frameLength then
        some ⟨.fault (.oversized header.contentLength), 1⟩
      else if data.length < header.frameLength then none
      else some (scanner.judge last header data)

theorem span_judge (scanner : Scanner) (last : Option UInt16) (header : Header) (data : Bytes) :
    0 < (scanner.judge last header data).span ∧
      (scanner.judge last header data).span ≤ header.frameLength := by
  have hmin := minLength_le_frameLength header
  simp only [minLength, headerSize, checksumSize] at hmin
  simp only [judge]
  split_ifs
  · exact ⟨Nat.lt_of_lt_of_le (by decide) hmin, Nat.le_refl _⟩
  · show 0 < 2 ∧ 2 ≤ header.frameLength
    omega

/-- A sighting takes a byte, and no more bytes than there are. -/
theorem span_next? {scanner : Scanner} {last : Option UInt16} {stream : Bytes} {sighting : Sighting}
    (h : scanner.next? last stream = some sighting) :
    0 < sighting.span ∧ sighting.span ≤ (fromMarker stream).length := by
  simp only [next?] at h
  split at h
  · cases h
  · rename_i hlong
    have hpos : 0 < (fromMarker stream).length := by
      simp only [minLength, headerSize, checksumSize] at hlong
      omega
    split at h
    · cases h
    · rename_i header _
      split_ifs at h
      · cases h
        exact ⟨Nat.one_pos, hpos⟩
      · cases h
        have hspan := scanner.span_judge last header (fromMarker stream)
        exact ⟨hspan.1, by omega⟩

theorem isGap_settle (scanner : Scanner) (last : Option UInt16) (header : Header) (data : Bytes) :
    (scanner.settle last header data).isGap = false ∧
      (scanner.settle last header data).isIncomplete = false := by
  unfold settle
  split_ifs
  · exact ⟨rfl, rfl⟩
  · split <;> exact ⟨rfl, rfl⟩

/-- The scanner tells nothing about gaps, and it never waits. -/
theorem isGap_next? {scanner : Scanner} {last : Option UInt16} {stream : Bytes}
    {sighting : Sighting} (h : scanner.next? last stream = some sighting) :
    sighting.outcome.isGap = false ∧ sighting.outcome.isIncomplete = false := by
  simp only [next?] at h
  split at h
  · cases h
  · split at h
    · cases h
    · split_ifs at h
      · cases h
        exact ⟨rfl, rfl⟩
      · cases h
        simp only [judge]
        split_ifs
        · exact isGap_settle _ _ _ _
        · exact ⟨rfl, rfl⟩

/-- All sightings in a stream, in order.  The next search starts behind the
bytes that the last sighting took. -/
def scan (scanner : Scanner) (last : Option UInt16) (stream : Bytes) : List Sighting :=
  match _hnext : scanner.next? last stream with
  | none => []
  | some sighting =>
    sighting ::
      scanner.scan (sighting.outcome.lastAfter last) ((fromMarker stream).drop sighting.span)
termination_by stream.length
decreasing_by
  have hspan := span_next? _hnext
  have hle := length_fromMarker_le stream
  rw [List.length_drop]
  omega

theorem scan_of_none {scanner : Scanner} {last : Option UInt16} {stream : Bytes}
    (h : scanner.next? last stream = none) : scanner.scan last stream = [] := by
  rw [scan]
  split
  · rfl
  · rename_i hsome
    rw [h] at hsome
    cases hsome

theorem scan_of_some {scanner : Scanner} {last : Option UInt16} {stream : Bytes}
    {sighting : Sighting} (h : scanner.next? last stream = some sighting) :
    scanner.scan last stream = sighting ::
      scanner.scan (sighting.outcome.lastAfter last) ((fromMarker stream).drop sighting.span) := by
  rw [scan]
  split
  · rename_i hnone
    rw [h] at hnone
    cases hnone
  · rename_i hsome
    rw [h] at hsome
    cases hsome
    rfl

/-- Two streams with the same first marker and the same bytes from there on
are scanned alike. -/
theorem scan_congr {scanner : Scanner} {last : Option UInt16} {first second : Bytes}
    (h : fromMarker first = fromMarker second) :
    scanner.scan last first = scanner.scan last second := by
  have hnext : scanner.next? last first = scanner.next? last second := by
    simp only [next?, h]
  cases hsecond : scanner.next? last second with
  | none => rw [scan_of_none hsecond, scan_of_none (hnext.trans hsecond)]
  | some sighting => rw [scan_of_some hsecond, scan_of_some (hnext.trans hsecond), h]

/-! ## Locality -/

theorem judge_append {header : Header} {data : Bytes} (h : header.frameLength ≤ data.length)
    (scanner : Scanner) (last : Option UInt16) (later : Bytes) :
    scanner.judge last header (data ++ later) = scanner.judge last header data := by
  simp only [judge, settle, covered_append h, trailer_append h, commandIn?_append h]

/-- A sighting does not depend on the bytes behind the first marker's
frame. -/
theorem next?_append {scanner : Scanner} {last : Option UInt16} {data : Bytes}
    {sighting : Sighting} (hmarker : MarkerAt data 0)
    (h : scanner.next? last data = some sighting) (later : Bytes) :
    scanner.next? last (data ++ later) = some sighting := by
  have hfront : fromMarker data = data := fromMarker_of_markerAt hmarker
  simp only [next?, hfront] at h
  split at h
  · cases h
  · rename_i hlong
    cases hheader : Header.decode data with
    | none =>
      rw [hheader] at h
      cases h
    | some header =>
      rw [hheader] at h
      have happend := decode_append hheader later
      simp only [next?, fromMarker_of_markerAt (markerAt_of_decode happend), happend,
        List.length_append]
      rw [if_neg (by omega)]
      simp only at h ⊢
      split_ifs at h with hlarge hshort
      · rw [if_pos hlarge, h]
      · rw [if_neg hlarge, if_neg (by omega), judge_append (by omega), h]

end Scanner

end TestRig
