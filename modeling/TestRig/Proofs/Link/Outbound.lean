import TestRig.Link
import Mathlib.Tactic.SplitIfs

/-!
# Frames that go out

A link frames what it is asked to send, and queues the frame for the
transport.  Framing fails if the content is too long, and the outbound
queue, which drops its oldest frame for a new one, refuses a frame only if
it is closed.

* `Encoder.content` is the content of the frame of a response, and
  `Encoder.encodeResponse_eq_ok_iff` says when there is such a frame.
* `Link.queued?` is the frame that is queued when a response is sent;
  `Link.queued?_eq_some_iff` says when there is one, and
  `outbound_sendAck` and `outbound_sendReport` what becomes of the queue.
* `encoder_sendReport` says what becomes of the report number.
* `Link.drained` is the link behind frames that the transport has taken;
  they leave in order (`takeFrames_eq`).
-/

namespace TestRig

open Frame (maxContent assemble)

/-! ## Frames of responses -/

/-- The content of the frame of a response. -/
def Encoder.content (encoder : Encoder) (response : Response) : Bytes :=
  (if encoder.legacyMarker then [Frame.legacyMarker] else []) ++ response.document.bytes

theorem Encoder.encodeResponse_eq_ok_iff {encoder : Encoder} {response : Response}
    {sequence : UInt16} {frame : Bytes} :
    encoder.encodeResponse response sequence = .ok frame ↔
      (encoder.content response).length ≤ maxContent ∧
        frame = assemble sequence (encoder.content response) := by
  unfold encodeResponse Encoder.frame content Frame.buildAfter
  split_ifs
  · exact Frame.build_eq_ok_iff
  · exact Frame.build_eq_ok_iff

/-! ## Pushes to the outbound queue -/

theorem Queue.push_refused {α : Type} {queue after : Queue α} {a : α} {failure : Failure}
    (h : queue.push a = (.refused failure, after)) : after = queue := by
  unfold Queue.push at h
  split_ifs at h
  · cases h
    rfl
  · cases h
  · split at h
    · cases h
      rfl
    · unfold Queue.replaceOldest at h
      split at h <;> cases h
    · cases h

/-- A push to a queue that drops its oldest item is refused only by a closed
one. -/
theorem Queue.push_of_dropOldest {α : Type} {queue : Queue α} (hpolicy : queue.policy = .dropOldest)
    (a : α) :
    queue.closed = true ∧ (queue.push a).1 = .refused .queueClosed ∨
      queue.closed = false ∧ ∃ evicted, (queue.push a).1 = .accepted evicted := by
  unfold Queue.push
  cases queue.closed with
  | true => exact .inl ⟨rfl, rfl⟩
  | false =>
    rw [if_neg Bool.false_ne_true]
    refine .inr ⟨rfl, ?_⟩
    split_ifs
    · exact ⟨none, rfl⟩
    · rw [hpolicy]
      show ∃ evicted, (queue.replaceOldest a).1 = .accepted evicted
      unfold Queue.replaceOldest
      cases queue.items with
      | nil => exact ⟨none, rfl⟩
      | cons oldest rest => exact ⟨some oldest, rfl⟩

theorem Queue.policy_push {α : Type} (queue : Queue α) (a : α) :
    (queue.push a).2.policy = queue.policy := by
  unfold push
  split_ifs
  · rfl
  · rfl
  · split
    · rfl
    · unfold replaceOldest
      split <;> rfl
    · rfl

/-! ## Pops from the outbound queue -/

theorem Queue.tryPop_eq {α : Type} (queue : Queue α) :
    queue.tryPop = (queue.items.head?, { queue with items := queue.items.drop 1 }) := by
  obtain ⟨capacity, policy, items, closed⟩ := queue
  cases items <;> rfl

namespace Link

/-- The link behind frames that the transport has taken. -/
def drained (link : Link) (count : Nat) : Link :=
  { link with outbound := { link.outbound with items := link.outbound.items.drop count } }

theorem drained_drained (link : Link) (first second : Nat) :
    (link.drained first).drained second = link.drained (first + second) := by
  rw [drained, drained, drained]
  dsimp only
  rw [List.drop_drop]

theorem drained_of_nil {link : Link} (h : link.outbound.items = []) (count : Nat) :
    link.drained count = link := by
  obtain ⟨codec, capacity, policy, items, closed⟩ := link
  obtain rfl : items = [] := h
  rw [drained, List.drop_nil]

theorem drain_eq (link : Link) : link.drain = (link.outbound.items.head?, link.drained 1) := by
  rw [drain, Queue.tryPop_eq]
  rfl

theorem nextOutbound_snd (link : Link) : link.nextOutbound.2 = link.drain.2 := by
  unfold nextOutbound
  split <;> rename_i heq <;> rw [heq]

/-- Frames are taken in order, as long as there are any. -/
theorem takeFrames_eq (link : Link) (count : Nat) :
    link.takeFrames count = (link.outbound.items.take count, link.drained count) := by
  induction count generalizing link with
  | zero => rfl
  | succ count ih =>
    rw [takeFrames, drain_eq]
    cases hitems : link.outbound.items with
    | nil =>
      show ([], link.drained 1) = _
      rw [drained, drained, hitems, List.drop_nil, List.drop_nil]
      rfl
    | cons frame rest =>
      show (frame :: ((link.drained 1).takeFrames count).1,
        ((link.drained 1).takeFrames count).2) = _
      rw [ih, drained_drained, Nat.add_comm 1 count, List.take_succ_cons, drained, hitems]
      rfl

theorem decoder_enqueue (link : Link) (frame : Bytes) :
    (link.enqueue frame).2.codec = link.codec := by
  unfold enqueue
  split <;> rfl

theorem decoder_sendReport (link : Link) (response : Response) :
    (link.sendReport response).2.codec.decoder = link.codec.decoder := by
  unfold sendReport
  split
  · rw [decoder_enqueue]
  · rfl

/-- The frame that is queued for the transport when a response is sent
under a number; none if it cannot be framed, or if the queue refuses it. -/
def queued? (link : Link) (response : Response) (sequence : UInt16) : Option Bytes :=
  match link.codec.encoder.encodeResponse response sequence with
  | .error _ => none
  | .ok frame =>
    match (link.outbound.push frame).1 with
    | .refused _ => none
    | _ => some frame

/-- The outbound queue behind an attempt to queue a frame. -/
def pushed (link : Link) : Option Bytes → Queue Bytes
  | some frame => (link.outbound.push frame).2
  | none => link.outbound

theorem outbound_enqueue (link : Link) (frame : Bytes) :
    (link.enqueue frame).2.outbound = (link.outbound.push frame).2 := by
  unfold enqueue
  split
  · rename_i hpush
    rw [hpush]
  · rename_i hpush
    rw [hpush]

theorem pushed_queued? (link : Link) (response : Response) (sequence : UInt16) :
    link.pushed (link.queued? response sequence) =
      match link.codec.encoder.encodeResponse response sequence with
      | .ok frame => (link.outbound.push frame).2
      | .error _ => link.outbound := by
  unfold queued?
  cases link.codec.encoder.encodeResponse response sequence with
  | error failure => rfl
  | ok frame =>
    show link.pushed (match (link.outbound.push frame).1 with
      | .refused _ => none
      | _ => some frame) = (link.outbound.push frame).2
    cases hpush : (link.outbound.push frame).1 with
    | accepted evicted => rfl
    | waiting => rfl
    | refused failure => exact (Queue.push_refused (Prod.ext hpush rfl)).symm

theorem outbound_sendAck (link : Link) (response : Response) (sequence : UInt16) :
    (link.sendAck response sequence).2.outbound =
      link.pushed (link.queued? response sequence) := by
  rw [pushed_queued?]
  unfold sendAck
  cases link.codec.encoder.encodeResponse response sequence with
  | error failure => rfl
  | ok frame => exact outbound_enqueue link frame

theorem outbound_sendReport (link : Link) (response : Response) :
    (link.sendReport response).2.outbound =
      link.pushed (link.queued? response link.codec.encoder.reportSequence) := by
  rw [pushed_queued?]
  unfold sendReport Encoder.encodeReport
  cases link.codec.encoder.encodeResponse response link.codec.encoder.reportSequence with
  | error failure => rfl
  | ok frame => exact outbound_enqueue _ frame

/-- A response is queued if it fits a frame and the link is open. -/
theorem queued?_eq_some_iff {link : Link} (hpolicy : link.outbound.policy = .dropOldest)
    {response : Response} {sequence : UInt16} {frame : Bytes} :
    link.queued? response sequence = some frame ↔
      (link.codec.encoder.content response).length ≤ maxContent ∧
        link.outbound.closed = false ∧
        frame = assemble sequence (link.codec.encoder.content response) := by
  unfold queued?
  cases hencode : link.codec.encoder.encodeResponse response sequence with
  | error failure =>
    constructor
    · intro h
      cases h
    · rintro ⟨hfits, _, hframe⟩
      rw [Encoder.encodeResponse_eq_ok_iff.mpr ⟨hfits, hframe⟩] at hencode
      cases hencode
  | ok built =>
    obtain ⟨hfits, rfl⟩ := Encoder.encodeResponse_eq_ok_iff.mp hencode
    dsimp only
    rcases Queue.push_of_dropOldest hpolicy
      (assemble sequence (link.codec.encoder.content response)) with
      ⟨hclosed, hpush⟩ | ⟨hopen, evicted, hpush⟩
    · rw [hpush]
      constructor
      · intro h
        cases h
      · rintro ⟨_, hopen, _⟩
        rw [hclosed] at hopen
        cases hopen
    · rw [hpush]
      constructor
      · intro h
        cases h
        exact ⟨hfits, hopen, rfl⟩
      · rintro ⟨_, _, rfl⟩
        rfl

theorem codec_sendAck (link : Link) (response : Response) (sequence : UInt16) :
    (link.sendAck response sequence).2.codec = link.codec := by
  unfold sendAck
  cases link.codec.encoder.encodeResponse response sequence with
  | error failure => rfl
  | ok frame => exact decoder_enqueue link frame

/-- A report takes a number if it fits a frame, also when the link is
closed. -/
theorem encoder_sendReport (link : Link) (response : Response) :
    (link.sendReport response).2.codec.encoder =
      if (link.codec.encoder.content response).length ≤ maxContent then
        { link.codec.encoder with
          reportSequence := link.codec.encoder.reportSequence + 1 }
      else link.codec.encoder := by
  unfold sendReport Encoder.encodeReport
  split_ifs with hfits
  · rw [Encoder.encodeResponse_eq_ok_iff.mpr ⟨hfits, rfl⟩]
    show (Link.enqueue _ _).2.codec.encoder = _
    rw [decoder_enqueue]
  · cases hencode : link.codec.encoder.encodeResponse response
      link.codec.encoder.reportSequence with
    | error failure => rfl
    | ok frame => exact absurd (Encoder.encodeResponse_eq_ok_iff.mp hencode).1 hfits

end Link

end TestRig
