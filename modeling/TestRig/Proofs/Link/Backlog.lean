import TestRig.Proofs.Link.Numbering

/-!
# The backlog of a link

The frames that wait for the transport are a queue that drops its oldest
item.  Sends put frames into it, and the transport takes them out.  The
frames that left it and those that wait are the frames that it accepted, in
the order of acceptance.

* `Message` is what can be sent, and `sent` what a send tells of frames;
  `send_cases` are the two ends of a send.
* `fates` is what became of the frames that left the backlog, and `kept`
  the frames that the transport took.
* `History` is the account of a backlog.  `History.left` and
  `History.accepted` are the two ways in which it changes, and
  `History.send` is a send.
-/

namespace TestRig.Link

open Queue (Event accepted removed)

/-! ## Messages -/

/-- What can be queued for the transport. -/
inductive Message where
  | ack (response : Response) (sequence : UInt16)
  | report (response : Response)
  | raw (content : Bytes) (sequence : UInt16)

/-- Queues a message. -/
def send (link : Link) : Message → Except Failure Unit × Link
  | .ack response sequence => link.sendAck response sequence
  | .report response => link.sendReport response
  | .raw content sequence => link.sendRaw content sequence

/-- The frame of a message. -/
def frame (link : Link) : Message → Except Failure Bytes
  | .ack response sequence => link.codec.encoder.encodeResponse response sequence
  | .report response => (link.codec.encoder.encodeReport response).map Prod.fst
  | .raw content sequence => link.codec.encoder.encodeFrame content sequence

/-- What a send tells: nothing if it fails, else that the frame of the
message was accepted, perhaps in place of the oldest one. -/
def sent (link : Link) (message : Message) : List (Event Bytes) :=
  match (link.send message).1, link.frame message with
  | .ok (), .ok frame => Event.ofPushed frame (link.outbound.push frame).1
  | _, _ => []

/-- A send queues the frame of the message, if there is one. -/
theorem send_eq (link : Link) (message : Message) :
    (∃ failure, link.send message = (.error failure, link)) ∨
    ∃ (frame : Bytes) (queuing : Link), link.frame message = .ok frame ∧
      queuing.outbound = link.outbound ∧ link.send message = queuing.enqueue frame := by
  cases message with
  | ack response sequence =>
    simp only [send, Link.frame, sendAck]
    cases link.codec.encoder.encodeResponse response sequence with
    | error failure => exact .inl ⟨failure, rfl⟩
    | ok frame => exact .inr ⟨frame, link, rfl, rfl, rfl⟩
  | report response =>
    simp only [send, Link.frame, sendReport]
    cases link.codec.encoder.encodeReport response with
    | error failure => exact .inl ⟨failure, rfl⟩
    | ok built =>
      exact .inr ⟨built.1, { link with codec := { link.codec with encoder := built.2 } }, rfl, rfl,
        rfl⟩
  | raw content sequence =>
    simp only [send, Link.frame, sendRaw]
    cases link.codec.encoder.encodeFrame content sequence with
    | error failure => exact .inl ⟨failure, rfl⟩
    | ok frame => exact .inr ⟨frame, link, rfl, rfl, rfl⟩

/-- The two ends of a send: it fails and leaves the backlog as it is, or the
frame of the message is accepted by an open queue. -/
theorem send_cases {link : Link} (h : link.outbound.Rolls) (message : Message) :
    (∃ failure, (link.send message).1 = .error failure ∧
      (link.send message).2.outbound = link.outbound) ∨
    (link.outbound.closed = false ∧ ∃ frame evicted after,
      link.frame message = .ok frame ∧ link.outbound.push frame = (.accepted evicted, after) ∧
      (link.send message).1 = .ok () ∧ (link.send message).2.outbound = after) := by
  rcases link.send_eq message with ⟨failure, hsend⟩ | ⟨frame, queuing, hframe, houtbound, hsend⟩
  · rw [hsend]
    exact .inl ⟨failure, rfl, rfl⟩
  · rw [← houtbound] at h ⊢
    rw [hsend]
    rcases enqueue_cases h frame with ⟨_, henqueue⟩ | ⟨hopen, evicted, after, hpush, henqueue, _⟩
    · rw [henqueue]
      exact .inl ⟨_, rfl, rfl⟩
    · rw [henqueue]
      exact .inr ⟨hopen, frame, evicted, after, hframe, hpush, rfl, rfl⟩

/-! ## Fates -/

/-- A frame that left the backlog, and whether the transport took it. -/
def fate? : Event Bytes → Option (Bytes × Bool)
  | .popped frame => some (frame, true)
  | .evicted frame => some (frame, false)
  | .cleared frame => some (frame, false)
  | .accepted _ | .refused _ _ | .nothing | .idle => none

/-- What became of the frames that left the backlog, in the order in which
they left. -/
def fates (told : List (Event Bytes)) : List (Bytes × Bool) :=
  told.filterMap fate?

/-- The frames that the transport took. -/
def kept (told : List (Event Bytes)) : List Bytes :=
  ((fates told).filter Prod.snd).map Prod.fst

theorem fst_fates (told : List (Event Bytes)) : (fates told).map Prod.fst = removed told := by
  rw [fates, removed, List.map_filterMap]
  congr 1
  funext event
  cases event <;> rfl

@[simp] theorem kept_append (first second : List (Event Bytes)) :
    kept (first ++ second) = kept first ++ kept second := by
  rw [kept, fates, List.filterMap_append, List.filter_append, List.map_append]
  rfl

/-! ## The history of the backlog -/

/-- The backlog against what was told of it: what left it and what waits in
it are what it accepted, in order, and each evicted frame was the oldest
one in it. -/
structure History (size : Nat) (told : List (Event Bytes)) (backlog : Queue Bytes) : Prop where
  rolls : backlog.Rolls
  capacity : backlog.capacity = size
  conserves : removed told ++ backlog.items = accepted told
  oldest : ∀ earlier later frame, told = earlier ++ .evicted frame :: later →
    ∃ waiting, accepted earlier = removed earlier ++ frame :: waiting

namespace History

variable {size : Nat} {told : List (Event Bytes)} {backlog : Queue Bytes}

theorem start (capacity : Nat) :
    History (max capacity 1) [] (Queue.empty capacity .dropOldest) where
  rolls := Queue.rolls_empty capacity
  capacity := rfl
  conserves := rfl
  oldest earlier later frame h := absurd h.symm (by simp)

/-- One more event: a frame that it evicts is at the front. -/
theorem oldest_append (h : History size told backlog) {event : Event Bytes}
    (hevent : ∀ frame, event = .evicted frame → ∃ waiting, backlog.items = frame :: waiting) :
    ∀ earlier later frame, told ++ [event] = earlier ++ .evicted frame :: later →
      ∃ waiting, accepted earlier = removed earlier ++ frame :: waiting := by
  intro earlier later frame heq
  rcases List.append_eq_append_iff.mp heq with ⟨between, rfl, hrest⟩ | ⟨between, rfl, hrest⟩
  · rcases between with _ | ⟨first, between⟩
    · obtain ⟨rfl, -⟩ := List.cons.inj hrest
      obtain ⟨waiting, hitems⟩ := hevent frame rfl
      refine ⟨waiting, ?_⟩
      rw [List.append_nil, ← h.conserves, hitems]
    · obtain ⟨-, hnil⟩ := List.cons.inj hrest
      exact absurd hnil.symm (by simp)
  · rcases between with _ | ⟨first, between⟩
    · obtain ⟨hfirst, -⟩ := List.cons.inj hrest
      obtain ⟨waiting, hitems⟩ := hevent frame hfirst.symm
      refine ⟨waiting, ?_⟩
      have hconserves := h.conserves
      rw [List.append_nil] at hconserves
      rw [← hconserves, hitems]
    · obtain ⟨rfl, -⟩ := List.cons.inj hrest
      exact h.oldest earlier between frame rfl

/-- The frame at the front leaves: the transport takes it, or it is evicted. -/
theorem left (h : History size told backlog) {frame : Bytes} {rest : List Bytes}
    (hitems : backlog.items = frame :: rest) {event : Event Bytes}
    (hevent : event = .popped frame ∨ event = .evicted frame) :
    History size (told ++ [event]) { backlog with items := rest } where
  rolls := ⟨Queue.Shared.bounded_of_popped h.rolls.bounded hitems, h.rolls.policy⟩
  capacity := h.capacity
  conserves := by
    have hconserves := h.conserves
    rw [hitems] at hconserves
    rw [Queue.removed_append, Queue.accepted_append, ← hconserves]
    rcases hevent with rfl | rfl <;> simp [removed, accepted, Event.taken?, Event.put?]
  oldest := h.oldest_append fun other hother => by
    rcases hevent with rfl | rfl
    · cases hother
    · cases hother
      exact ⟨rest, hitems⟩

/-- A frame is put at the back of a backlog that has room. -/
theorem accepted (h : History size told backlog) (frame : Bytes)
    (hroom : backlog.items.length < backlog.capacity) :
    History size (told ++ [.accepted frame]) { backlog with items := backlog.items ++ [frame] } where
  rolls := by
    refine ⟨⟨h.rolls.bounded.capacity_pos, ?_⟩, h.rolls.policy⟩
    rw [List.length_append, List.length_singleton]
    exact hroom
  capacity := h.capacity
  conserves := by
    rw [Queue.removed_append, Queue.accepted_append, ← h.conserves]
    simp [removed, Queue.accepted, Event.taken?, Event.put?]
  oldest := h.oldest_append (by simp)

/-- A send.  It hands no frame to the transport, and a closed backlog accepts
none. -/
theorem send {link : Link} (h : History size told link.outbound) (message : Message) :
    History size (told ++ link.sent message) (link.send message).2.outbound ∧
      kept (link.sent message) = [] ∧
      (link.outbound.closed = true →
        link.sent message = [] ∧ (link.send message).2.outbound = link.outbound) := by
  unfold Link.sent
  rcases Link.send_cases h.rolls message with
    ⟨failure, hanswer, houtbound⟩ |
    ⟨hopen, frame, evicted, after, hframe, hpush, hanswer, houtbound⟩
  · rw [hanswer, houtbound]
    dsimp only
    rw [List.append_nil]
    exact ⟨h, rfl, fun _ => ⟨rfl, rfl⟩⟩
  · rw [hanswer, hframe, houtbound]
    dsimp only
    rw [hpush]
    have hanswered := h.rolls.bounded.answered frame
    rw [hpush] at hanswered
    have hclosed : link.outbound.closed ≠ true := Bool.eq_false_iff.mp hopen
    cases hanswered with
    | room _ hroom => exact ⟨h.accepted frame hroom, rfl, fun hclose => absurd hclose hclosed⟩
    | evicts _ hfull hpolicy oldest rest hitems =>
      -- the oldest frame leaves, and then there is room
      have hroom : rest.length < link.outbound.capacity := by
        rw [← hfull, hitems]
        exact Nat.lt_succ_self _
      have hboth := (h.left hitems (.inr rfl)).accepted frame hroom
      rw [List.append_assoc] at hboth
      exact ⟨hboth, rfl, fun hclose => absurd hclose hclosed⟩

theorem close (h : History size told backlog) : History size told backlog.close where
  rolls := ⟨⟨h.rolls.bounded.capacity_pos, h.rolls.bounded.length_le⟩, h.rolls.policy⟩
  capacity := h.capacity
  conserves := h.conserves
  oldest := h.oldest

end History

end TestRig.Link
