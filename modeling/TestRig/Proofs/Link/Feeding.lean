import TestRig.Proofs.Decoder.Chunking
import TestRig.Proofs.Link.Outbound

/-!
# Feeding a link

A feed takes the inbound bytes in turns, each as long as the ring has room.
The decoder between two turns waits, and a waiting decoder has room, so
every turn takes a byte and nothing is ever given up.

* `Queue.Ready` is a queue on which no push waits, and `Queue.enter` is
  what becomes of it when items are pushed one after the other.
* `Turns` is the loop of a feed without a bound on the number of turns, and
  without the two branches for a ring that has no room.
* `feed_follows` ties a feed to a run of the decoder over the same bytes.
* `Reachable` is a link in use, and `Reachable.waiting` the invariant that
  every use keeps.
-/

namespace TestRig

open Decoder

/-! ## Queues on which no push waits -/

namespace Queue

variable {α : Type}

/-- The queue is open, and a push that finds it full does not wait. -/
structure Ready (queue : Queue α) : Prop where
  opened : queue.closed = false
  policy : queue.policy ≠ .block

/-- Items are pushed one after the other: the number of those accepted, and
the queue behind them. -/
def enter (queue : Queue α) : List α → Nat × Queue α
  | [] => (0, queue)
  | a :: rest =>
    match queue.push a with
    | (.accepted _, queue) => ((queue.enter rest).1 + 1, (queue.enter rest).2)
    | (_, queue) => queue.enter rest

/-- The two ends of a push on such a queue. -/
theorem Ready.push {queue : Queue α} (h : queue.Ready) (a : α) :
    (∃ evicted after, queue.push a = (.accepted evicted, after) ∧ after.Ready) ∨
      queue.push a = (.refused (.queueFull queue.capacity), queue) := by
  have hopened := h.opened
  have hpolicy := h.policy
  unfold Queue.push
  rw [hopened, if_neg Bool.false_ne_true]
  split_ifs with hroom
  · exact .inl ⟨none, _, rfl, hopened, hpolicy⟩
  · split
    · exact .inr rfl
    · unfold replaceOldest
      split
      · exact .inl ⟨none, _, rfl, hopened, hpolicy⟩
      · exact .inl ⟨_, _, rfl, hopened, hpolicy⟩
    · rename_i hblock
      exact absurd hblock hpolicy

theorem Ready.enter {queue : Queue α} (h : queue.Ready) (items : List α) :
    (queue.enter items).2.Ready := by
  induction items generalizing queue with
  | nil => exact h
  | cons a rest ih =>
    rw [Queue.enter]
    rcases h.push a with ⟨evicted, after, hpush, hafter⟩ | hpush
    · rw [hpush]
      exact ih hafter
    · rw [hpush]
      exact ih h

theorem enter_append (queue : Queue α) (first second : List α) :
    queue.enter (first ++ second) =
      ((queue.enter first).1 + ((queue.enter first).2.enter second).1,
        ((queue.enter first).2.enter second).2) := by
  induction first generalizing queue with
  | nil => simp [enter]
  | cons a rest ih =>
    rw [List.cons_append, enter, enter]
    generalize queue.push a = result
    obtain ⟨pushed, after⟩ := result
    cases pushed with
    | accepted evicted =>
      simp only [ih]
      rw [Nat.add_right_comm]
    | refused failure => exact ih after
    | waiting => exact ih after

end Queue

namespace Link

/-- On such a queue all commands are pushed. -/
theorem queueCommands_eq {queue : CommandQueue} (h : queue.Ready) (bytes : Bytes)
    (commands : List Command) (queued : Nat) :
    queueCommands bytes commands queued queue =
      (.finished (queued + (queue.enter commands).1), (queue.enter commands).2) := by
  induction commands generalizing queued queue with
  | nil => rfl
  | cons command rest ih =>
    rw [queueCommands, Queue.enter]
    rcases h.push command with ⟨evicted, after, hpush, hafter⟩ | hpush
    · simp only [hpush, ih hafter]
      rw [Nat.add_assoc, Nat.add_comm 1]
    · simp only [hpush, ih h]

/-! ## Turns -/

/-- The link with another decoder. -/
def withDecoder (link : Link) (decoder : Decoder) : Link :=
  { link with codec := { link.codec with decoder } }

theorem feedLoop_withDecoder (fuel : Nat) (bytes : Bytes) (queued : Nat) (link : Link)
    (queue : CommandQueue) :
    ∃ decoder, (feedLoop fuel bytes queued link queue).2.1 = link.withDecoder decoder := by
  induction fuel generalizing bytes queued link queue with
  | zero => exact ⟨link.codec.decoder, rfl⟩
  | succ fuel ih =>
    rw [feedLoop]
    split_ifs
    · exact ⟨link.codec.decoder, rfl⟩
    · split
      · exact ⟨_, rfl⟩
      · dsimp only
        split
        · exact ih _ _ _ _
        · exact ⟨_, rfl⟩

/-- A feed changes the decoder of a link, and nothing else. -/
theorem resume_withDecoder (feeding : Feeding) (link : Link) (queue : CommandQueue) :
    ∃ decoder, (link.resume feeding queue).2.1 = link.withDecoder decoder := by
  unfold resume
  split
  · exact feedLoop_withDecoder _ _ _ _ _
  · exact ⟨link.codec.decoder, rfl⟩

/-- The turns of a feed.  In each of them the ring has room, takes as many
bytes as it has room for, and the commands decoded are pushed. -/
inductive Turns : Bytes → Nat → Link → CommandQueue → Nat → Link → CommandQueue → Prop where
  /-- There are no bytes left. -/
  | done (queued : Nat) (link : Link) (queue : CommandQueue) :
      Turns [] queued link queue queued link queue
  /-- A turn and the turns behind it. -/
  | turn {bytes : Bytes} {queued queued' total : Nat} {link last : Link}
      {queue queue' queue'' : CommandQueue} {outcomes : List Outcome} {decoder : Decoder}
      (hbytes : bytes ≠ []) (hroom : 0 < link.codec.decoder.available)
      (hreceive : link.codec.decoder.receive (bytes.take link.codec.decoder.available) =
        .ok (outcomes, decoder))
      (hqueue : queueCommands (bytes.drop link.codec.decoder.available)
        (outcomes.filterMap Outcome.command?) queued queue = (.finished queued', queue'))
      (hrest : Turns (bytes.drop link.codec.decoder.available) queued' (link.withDecoder decoder)
        queue' total last queue'') :
      Turns bytes queued link queue total last queue''

/-- The commands of a trace. -/
def commandsIn (trace : List Sighting) : List Command :=
  (trace.map Sighting.outcome).filterMap Outcome.command?

theorem commandsIn_append (first second : List Sighting) :
    commandsIn (first ++ second) = commandsIn first ++ commandsIn second := by
  rw [commandsIn, List.map_append, List.filterMap_append]
  rfl

/-- A ring with room is not given up. -/
theorem makeRoom_eq_self {decoder : Decoder} (h : 0 < decoder.available) :
    makeRoom decoder = decoder :=
  if_neg (Nat.pos_iff_ne_zero.mp h)

/-- A turn on a waiting decoder: there is room, the bytes that fit are
received, and the decoder waits again. -/
theorem decodeSome_follows {decoder : Decoder} (hsound : decoder.Sound)
    (hwaiting : decoder.Waiting) (bytes : Bytes) :
    0 < decoder.available ∧ ∃ trace after,
      decoder.receive (bytes.take decoder.available) =
        .ok (trace.map Sighting.outcome, after) ∧
      decodeSome decoder bytes =
        (.ok (commandsIn trace, bytes.drop decoder.available), after) ∧
      decoder.Follows after (bytes.take decoder.available) trace ∧ after.Waiting := by
  have hroom : 0 < decoder.available := Nat.sub_pos_of_lt (hwaiting.room hsound)
  refine ⟨hroom, ?_⟩
  obtain ⟨outcomes, after, hreceive⟩ := receive_eq_ok_iff.mpr
    (show (bytes.take decoder.available).length ≤ decoder.available from List.length_take_le ..)
  obtain ⟨trace, rfl, hfollows, hlast⟩ := receive_follows hsound hreceive
  refine ⟨trace, after, hreceive, ?_, hfollows, hlast⟩
  have hmake : makeRoom decoder = decoder := makeRoom_eq_self hroom
  have htake : bytes.take (min decoder.available bytes.length) = bytes.take decoder.available :=
    List.take_eq_take_min.symm
  have hdrop : bytes.drop (min decoder.available bytes.length) = bytes.drop decoder.available :=
    List.drop_eq_drop_min.symm
  simp only [decodeSome, hmake, htake, hdrop, hreceive]
  rfl

/-- With as much fuel as there are bytes the loop comes to its end: every
turn takes a byte. -/
theorem feedLoop_follows {link : Link} {queue : CommandQueue}
    (hsound : link.codec.decoder.Sound) (hwaiting : link.codec.decoder.Waiting)
    (hready : queue.Ready) {fuel : Nat} {bytes : Bytes} (hfuel : bytes.length ≤ fuel)
    (queued : Nat) :
    ∃ trace after,
      feedLoop fuel bytes queued link queue =
        (.finished (queued + (queue.enter (commandsIn trace)).1), link.withDecoder after,
          (queue.enter (commandsIn trace)).2) ∧
      Turns bytes queued link queue (queued + (queue.enter (commandsIn trace)).1)
        (link.withDecoder after) (queue.enter (commandsIn trace)).2 ∧
      link.codec.decoder.Follows after bytes trace ∧ after.Waiting := by
  induction fuel generalizing link queue bytes queued with
  | zero =>
    have hnil : bytes = [] := List.eq_nil_of_length_eq_zero (by omega)
    subst hnil
    exact ⟨[], link.codec.decoder, rfl, .done queued link queue, .refl hsound, hwaiting⟩
  | succ fuel ih =>
    rcases bytes with _ | ⟨byte, rest⟩
    · exact ⟨[], link.codec.decoder, rfl, .done queued link queue, .refl hsound, hwaiting⟩
    · generalize hbytes : byte :: rest = bytes at hfuel ⊢
      have hne : bytes ≠ [] := by
        rw [← hbytes]
        exact List.cons_ne_nil byte rest
      have hisEmpty : bytes.isEmpty = false := List.isEmpty_eq_false_iff.mpr hne
      obtain ⟨hroom, trace, after, hreceive, hdecode, hfollows, hafter⟩ :=
        decodeSome_follows hsound hwaiting bytes
      have hshort : (bytes.drop link.codec.decoder.available).length ≤ fuel := by
        have hpos := List.length_pos_iff.mpr hne
        rw [List.length_drop]
        omega
      have hqueue := queueCommands_eq hready (bytes.drop link.codec.decoder.available)
        (commandsIn trace) queued
      obtain ⟨trace', last, hloop, hturns, hrest, hlast⟩ :=
        @ih (link.withDecoder after) (queue.enter (commandsIn trace)).2 hfollows.sound hafter
          (hready.enter _) (bytes.drop link.codec.decoder.available) hshort
          (queued + (queue.enter (commandsIn trace)).1)
      refine ⟨trace ++ trace', last, ?_, ?_, ?_, hlast⟩
      · rw [feedLoop, hisEmpty, if_neg Bool.false_ne_true, hdecode]
        simp only [hqueue]
        rw [commandsIn_append, Queue.enter_append, ← Nat.add_assoc]
        exact hloop
      · rw [commandsIn_append, Queue.enter_append, ← Nat.add_assoc]
        exact .turn hne hroom hreceive hqueue hturns
      · have htrans := hfollows.trans hrest
        rwa [List.take_append_drop] at htrans

/-- A feed on a queue that is ready takes all of the bytes. -/
theorem feed_follows {link : Link} {queue : CommandQueue} (hsound : link.codec.decoder.Sound)
    (hwaiting : link.codec.decoder.Waiting) (hready : queue.Ready) (bytes : Bytes) :
    ∃ trace after,
      link.feed bytes queue =
        (.finished (queue.enter (commandsIn trace)).1, link.withDecoder after,
          (queue.enter (commandsIn trace)).2) ∧
      Turns bytes 0 link queue (queue.enter (commandsIn trace)).1 (link.withDecoder after)
        (queue.enter (commandsIn trace)).2 ∧
      link.codec.decoder.Follows after bytes trace ∧ after.Waiting := by
  have hloop := feedLoop_follows hsound hwaiting hready (Nat.le_refl bytes.length) 0
  simp only [Nat.zero_add] at hloop
  exact hloop

/-! ## Links in use -/

/-- A link in use: made from a configuration, and then fed, with any queue
behind it, asked to send, emptied or closed, in any order. -/
inductive Reachable (config : Config) : Link → Prop where
  | start : Reachable config (.ofConfig config)
  | feed {link : Link} (h : Reachable config link) (bytes : Bytes) (queue : CommandQueue) :
      Reachable config (link.feed bytes queue).2.1
  | resume {link : Link} (h : Reachable config link) (feeding : Feeding) (queue : CommandQueue) :
      Reachable config (link.resume feeding queue).2.1
  | sendAck {link : Link} (h : Reachable config link) (response : Response) (sequence : UInt16) :
      Reachable config (link.sendAck response sequence).2
  | sendReport {link : Link} (h : Reachable config link) (response : Response) :
      Reachable config (link.sendReport response).2
  | sendRaw {link : Link} (h : Reachable config link) (content : Bytes) (sequence : UInt16) :
      Reachable config (link.sendRaw content sequence).2
  | drain {link : Link} (h : Reachable config link) : Reachable config link.drain.2
  | nextOutbound {link : Link} (h : Reachable config link) : Reachable config link.nextOutbound.2
  | close {link : Link} (h : Reachable config link) : Reachable config link.close

/-- The decoder is sound and waits for bytes, as it does between two feeds. -/
def Waiting (link : Link) : Prop :=
  link.codec.decoder.Sound ∧ link.codec.decoder.Waiting

/-- A feed leaves a waiting decoder, also if it stops for want of room in
the queue or because the queue is closed. -/
theorem Waiting.feedLoop {link : Link} (h : link.Waiting) (fuel : Nat) (bytes : Bytes)
    (queued : Nat) (queue : CommandQueue) :
    (Link.feedLoop fuel bytes queued link queue).2.1.Waiting := by
  induction fuel generalizing link bytes queued queue with
  | zero => exact h
  | succ fuel ih =>
    obtain ⟨_, trace, after, _, hdecode, hfollows, hafter⟩ := decodeSome_follows h.1 h.2 bytes
    rw [Link.feedLoop]
    split_ifs
    · exact h
    · simp only [hdecode]
      split
      · exact ih ⟨hfollows.sound, hafter⟩ _ _ _
      · exact ⟨hfollows.sound, hafter⟩

theorem Waiting.resume {link : Link} (h : link.Waiting) (feeding : Feeding)
    (queue : CommandQueue) : (link.resume feeding queue).2.1.Waiting := by
  unfold Link.resume
  split
  · exact h.feedLoop _ _ _ _
  · exact h

theorem Reachable.waiting {config : Config} {link : Link} (h : Reachable config link) :
    link.Waiting := by
  induction h with
  | start => exact ⟨fresh_sound _ _, fresh_waiting _ _⟩
  | feed _ bytes queue ih => exact ih.resume _ _
  | resume _ feeding queue ih => exact ih.resume _ _
  | sendAck _ response sequence ih =>
    unfold Link.sendAck
    split
    · rwa [Waiting, decoder_enqueue]
    · exact ih
  | sendReport _ response ih => rwa [Waiting, decoder_sendReport]
  | sendRaw _ content sequence ih =>
    unfold Link.sendRaw
    split
    · rwa [Waiting, decoder_enqueue]
    · exact ih
  | drain _ ih => exact ih
  | nextOutbound _ ih => rwa [nextOutbound_snd]
  | close _ ih => exact ih

end Link

end TestRig
