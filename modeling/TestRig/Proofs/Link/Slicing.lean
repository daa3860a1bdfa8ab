import TestRig.Transport.Reader
import TestRig.Proofs.Link.Feeding

/-!
# Slices of the inbound stream

The stream reaches a link in slices: the transport reads as much as its
buffer holds or as there is, and a feed takes as much at a time as the ring
has room for.  `feed_append` says that the slices are of no consequence.

* `inbound` is what a scripted source delivers before it ends or fails, and
  `contents` the same for the reads that it gives.
* `readLoop_follows` ties the read loop to one run of the decoder.
* `SameInbound` is what two ways of feeding a stream agree on.
-/

namespace TestRig

open Decoder

namespace Transport

/-! ## What a source delivers -/

/-- The bytes of scripted pieces up to the end or the failure of the source. -/
def inbound : List Piece → Bytes
  | [] => []
  | .bytes data :: rest => if data.isEmpty then [] else data ++ inbound rest
  | .failure _ :: _ => []
  | .hold _ :: rest => inbound rest

/-- The bytes of reads up to the end or the failure of the source. -/
def contents : List Read → Bytes
  | [] => []
  | .data bytes :: rest => bytes ++ contents rest
  | .ended :: _ => []
  | .failed _ :: _ => []
  | .held _ :: rest => contents rest

theorem flatten_cut {size : Nat} (hsize : 0 < size) {fuel : Nat} {data : Bytes}
    (hfuel : data.length ≤ fuel) : (cut size fuel data).flatten = data := by
  induction fuel generalizing data with
  | zero => rw [List.eq_nil_of_length_eq_zero (show data.length = 0 by omega), cut, List.flatten_nil]
  | succ fuel ih =>
    rw [cut]
    split_ifs with hempty
    · rw [List.isEmpty_iff.mp hempty, List.flatten_nil]
    · have hpos : 0 < data.length := List.length_pos_iff.mpr (fun h => hempty (by rw [h]; rfl))
      rw [List.flatten_cons, ih (by rw [List.length_drop]; omega), List.take_append_drop]

theorem contents_data (pieces : List Bytes) (rest : List Read) :
    contents (pieces.map .data ++ rest) = pieces.flatten ++ contents rest := by
  induction pieces with
  | nil => rfl
  | cons piece pieces ih =>
    rw [List.map_cons, List.cons_append, contents, ih, List.flatten_cons, List.append_assoc]

/-- The size of the read buffer does not matter to what is read. -/
theorem contents_reads (size : Nat) (pieces : List Piece) :
    contents (reads size pieces) = inbound pieces := by
  induction pieces with
  | nil => rfl
  | cons piece rest ih =>
    cases piece with
    | bytes data =>
      rw [reads, inbound]
      split_ifs
      · rfl
      · have hsize : 0 < max size 1 := Nat.lt_of_lt_of_le Nat.one_pos (Nat.le_max_right ..)
        rw [contents_data, flatten_cut hsize (Nat.le_refl _), ih]
    | failure text => rfl
    | hold writes => exact ih

/-- The read loop is one feed of all that the source delivers. -/
theorem readLoop_follows {link : Link} {queue : CommandQueue} (hwaiting : link.Waiting)
    (hready : queue.Ready) (reads : List Read) (count : Nat) :
    ∃ trace after,
      (readLoop feedLink (fun _ state => state) reads count (link, queue)).2.2 =
        (link.withDecoder after, (queue.enter (Link.commandsIn trace)).2) ∧
      link.codec.decoder.Follows after (contents reads) trace ∧ after.Waiting := by
  have hstays : ∃ trace after,
      (link, queue) = (link.withDecoder after, (queue.enter (Link.commandsIn trace)).2) ∧
        link.codec.decoder.Follows after [] trace ∧ after.Waiting :=
    ⟨[], link.codec.decoder, rfl, .refl hwaiting.1, hwaiting.2⟩
  induction reads generalizing link queue count with
  | nil => exact hstays
  | cons read rest ih =>
    cases read with
    | ended => exact hstays
    | failed text => exact hstays
    | held writes => exact ih hwaiting hready count hstays
    | data bytes =>
      obtain ⟨trace, after, hfeed, _, hfollows, hafter⟩ :=
        Link.feed_follows hwaiting.1 hwaiting.2 hready bytes
      have hnext : (link.withDecoder after).Waiting := ⟨hfollows.sound, hafter⟩
      obtain ⟨trace', last, hloop, hrest, hlast⟩ :=
        ih hnext (hready.enter (Link.commandsIn trace)) (count + 1)
          ⟨[], after, rfl, .refl hnext.1, hnext.2⟩
      refine ⟨trace ++ trace', last, ?_, hfollows.trans hrest, hlast⟩
      simp only [readLoop, feedLink, hfeed]
      rw [hloop, Link.commandsIn_append, Queue.enter_append]
      rfl

end Transport

namespace Link

/-! ## Agreement -/

/-- Two links that have taken the same stream.  The number of dropped bytes
may differ by bytes that the other link still holds. -/
structure SameInbound (first second : Link) : Prop where
  last : second.codec.decoder.lastSequence = first.codec.decoder.lastSequence
  verdicts : second.stats.verdicts = first.stats.verdicts
  account : second.codec.decoder.buffered + second.stats.bytesDiscarded =
    first.codec.decoder.buffered + first.stats.bytesDiscarded

/-- Two runs of the decoder over one stream find the same commands and leave
links that agree. -/
theorem sameInbound_of_follows {link : Link} {after after' : Decoder} {stream : Bytes}
    {trace trace' : List Sighting} (h : link.codec.decoder.Follows after stream trace)
    (h' : link.codec.decoder.Follows after' stream trace') (hwaiting : after.Waiting)
    (hwaiting' : after'.Waiting) :
    commandsIn trace' = commandsIn trace ∧
      SameInbound (link.withDecoder after) (link.withDecoder after') := by
  obtain ⟨hcommands, hlast, hverdicts, haccount⟩ := h.agree h' hwaiting hwaiting'
  exact ⟨hcommands, hlast, hverdicts, haccount⟩

/-- A feed loses nothing, and how the bytes are sliced does not matter: two
feeds in a row and one feed of both byte strings come to an end without
ever running out of room, push the same commands and agree on the counters.
So do two read loops over sources that deliver the same bytes, whatever
the sizes of their read buffers and reads. -/
theorem feed_append {config : Config} {link : Link} {queue : CommandQueue}
    (hlink : Reachable config link) (hready : queue.Ready) :
    (∀ a b : Bytes, ∃ n m behindA queueA behindB queueB behindAB,
      link.feed a queue = (.finished n, behindA, queueA) ∧
      Turns a 0 link queue n behindA queueA ∧
      behindA.feed b queueA = (.finished m, behindB, queueB) ∧
      Turns b 0 behindA queueA m behindB queueB ∧
      link.feed (a ++ b) queue = (.finished (n + m), behindAB, queueB) ∧
      Turns (a ++ b) 0 link queue (n + m) behindAB queueB ∧
      SameInbound behindB behindAB) ∧
    ∀ (size size' : Nat) (pieces pieces' : List Transport.Piece),
      Transport.inbound pieces' = Transport.inbound pieces →
      ∃ behind behind' queue',
        (Transport.readLink size pieces link queue).2.2 = (behind, queue') ∧
        (Transport.readLink size' pieces' link queue).2.2 = (behind', queue') ∧
        SameInbound behind behind' := by
  have hwaiting := hlink.waiting
  constructor
  · intro a b
    obtain ⟨traceA, afterA, hfeedA, hturnsA, hfollowsA, hwaitingA⟩ :=
      feed_follows hwaiting.1 hwaiting.2 hready a
    obtain ⟨traceB, afterB, hfeedB, hturnsB, hfollowsB, hwaitingB⟩ :=
      @feed_follows (link.withDecoder afterA) _ hfollowsA.sound hwaitingA
        (hready.enter (commandsIn traceA)) b
    obtain ⟨trace, after, hfeed, hturns, hfollows, hafter⟩ :=
      feed_follows hwaiting.1 hwaiting.2 hready (a ++ b)
    obtain ⟨hcommands, hsame⟩ :=
      sameInbound_of_follows (hfollowsA.trans hfollowsB) hfollows hwaitingB hafter
    rw [hcommands, commandsIn_append, Queue.enter_append] at hfeed hturns
    exact ⟨_, _, _, _, _, _, _, hfeedA, hturnsA, hfeedB, hturnsB, hfeed, hturns, hsame⟩
  · intro size size' pieces pieces' hstream
    obtain ⟨trace, after, hloop, hfollows, hafter⟩ :=
      Transport.readLoop_follows hwaiting hready (Transport.reads size pieces) 0
    obtain ⟨trace', after', hloop', hfollows', hafter'⟩ :=
      Transport.readLoop_follows hwaiting hready (Transport.reads size' pieces') 0
    rw [Transport.contents_reads] at hfollows hfollows'
    rw [hstream] at hfollows'
    obtain ⟨hcommands, hsame⟩ := sameInbound_of_follows hfollows hfollows' hafter hafter'
    rw [hcommands] at hloop'
    exact ⟨_, _, _, hloop, hloop', hsame⟩

/-- A ring of the least size that already holds half a marker, and more
bytes than it has room for. -/
theorem feed_append_small_ring :
    ∃ link : Link, ∃ queue : CommandQueue,
      Reachable { ringCapacity := 8 } link ∧ queue.Ready ∧
      (∃ n m behindA queueA behindB queueB behindAB,
        link.feed [0x3B, 0, 1, 0, 0, 0xA9, 0x4A, 7, 7] queue = (.finished n, behindA, queueA) ∧
        Turns [0x3B, 0, 1, 0, 0, 0xA9, 0x4A, 7, 7] 0 link queue n behindA queueA ∧
        behindA.feed [7, 0x3A] queueA = (.finished m, behindB, queueB) ∧
        Turns [7, 0x3A] 0 behindA queueA m behindB queueB ∧
        link.feed [0x3B, 0, 1, 0, 0, 0xA9, 0x4A, 7, 7, 7, 0x3A] queue =
          (.finished (n + m), behindAB, queueB) ∧
        Turns [0x3B, 0, 1, 0, 0, 0xA9, 0x4A, 7, 7, 7, 0x3A] 0 link queue (n + m) behindAB queueB ∧
        SameInbound behindB behindAB) ∧
      ∃ behind behind' queue',
        (Transport.readLink 0 [.bytes [0x3B, 0], .bytes [1]] link queue).2.2 = (behind, queue') ∧
        (Transport.readLink 9 [.bytes [0x3B, 0, 1]] link queue).2.2 = (behind', queue') ∧
        SameInbound behind behind' := by
  have hlink : Reachable { ringCapacity := 8 }
      ((Link.ofConfig { ringCapacity := 8 }).feed [0x3A] (.empty 1 .dropOldest)).2.1 :=
    .feed .start _ _
  have hready : (Queue.empty 1 .dropOldest : CommandQueue).Ready := ⟨rfl, by decide⟩
  have hagree := feed_append hlink hready
  exact ⟨_, _, hlink, hready, hagree.1 [0x3B, 0, 1, 0, 0, 0xA9, 0x4A, 7, 7] [7, 0x3A],
    hagree.2 0 9 _ _ rfl⟩

end Link

end TestRig
