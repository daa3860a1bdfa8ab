import TestRig.Proofs.Codec.Directions
import TestRig.Proofs.Link.Feeding
import TestRig.Proofs.Queue.Conservation

/-!
# Numbers of the reports that are queued

A link is fed, asked to send, emptied and closed in any order.  The reports
that get into its outbound queue carry the numbers from zero on, modulo
`2 ^ 16`.  A report can take a number and still be refused, but only by a
closed queue, and a closed queue takes no report any more.

* `Link.Use` is a use of a link, and `Link.Made` the record of one: its
  answer, and the outbound queue before and behind it.
* `Counted` is the invariant: while the queue is open, the next number is
  the number of reports that were queued.
* `reports_numbered` is the result, for the calls of a codec and for the
  uses of a link.
-/

namespace TestRig

namespace Queue

variable {α : Type}

/-- A queue that drops its oldest item if there is no room. -/
structure Rolls (queue : Queue α) : Prop where
  bounded : queue.Bounded
  policy : queue.policy = .dropOldest

theorem rolls_empty (capacity : Nat) : (empty capacity .dropOldest : Queue α).Rolls :=
  ⟨bounded_empty capacity _, rfl⟩

/-- The two ends of a push on such a queue.  What is accepted is the newest
item behind it. -/
theorem Rolls.push {queue : Queue α} (h : queue.Rolls) (a : α) :
    (queue.closed = true ∧ queue.push a = (.refused .queueClosed, queue)) ∨
    (queue.closed = false ∧ ∃ evicted after, queue.push a = (.accepted evicted, after) ∧
      after.Rolls ∧ after.closed = false ∧ after.items.getLast? = some a) := by
  have hanswered := h.bounded.answered a
  have hkept : ∀ {pushed after}, queue.push a = (pushed, after) → after.Rolls := by
    intro pushed after hpush
    rw [hpush] at hanswered
    refine ⟨hanswered.bounded h.bounded, ?_⟩
    rw [← h.policy, ← queue.policy_push a, hpush]
  generalize hpush : queue.push a = result at hanswered
  cases hanswered with
  | closed hclosed => exact .inl ⟨hclosed, rfl⟩
  | room hopen hroom =>
    exact .inr ⟨hopen, _, _, rfl, hkept hpush, hopen, List.getLast?_concat⟩
  | evicts hopen hfull hpolicy oldest rest hitems =>
    exact .inr ⟨hopen, _, _, rfl, hkept hpush, hopen, List.getLast?_concat⟩
  | full hopen hfull hpolicy =>
    rw [h.policy] at hpolicy
    cases hpolicy
  | waits hopen hfull hpolicy =>
    rw [h.policy] at hpolicy
    cases hpolicy

/-- A pop keeps the bounds of a queue, and neither closes nor opens it. -/
theorem Rolls.tryPop {queue : Queue α} (h : queue.Rolls) :
    queue.tryPop.2.Rolls ∧ queue.tryPop.2.closed = queue.closed := by
  unfold Queue.tryPop
  have hbounded := h.bounded
  split
  · exact ⟨h, rfl⟩
  · rename_i a rest hitems
    refine ⟨⟨⟨hbounded.capacity_pos, ?_⟩, h.policy⟩, rfl⟩
    have hle := hbounded.length_le
    rw [hitems, List.length_cons] at hle
    show rest.length ≤ queue.capacity
    omega

end Queue

namespace Link

/-! ## Uses of a link -/

/-- A use of a link.  A feed, and what is left to do of one, may find any
command queue. -/
inductive Use where
  | feed (bytes : Bytes) (queue : CommandQueue)
  | resume (feeding : Feeding) (queue : CommandQueue)
  | sendAck (response : Response) (sequence : UInt16)
  | sendReport (response : Response)
  | sendRaw (content : Bytes) (sequence : UInt16)
  | drain
  | nextOutbound
  | close

/-- One use: what a send answers, and the link behind the use. -/
def use (link : Link) : Use → Option (Except Failure Unit) × Link
  | .feed bytes queue => (none, (link.feed bytes queue).2.1)
  | .resume feeding queue => (none, (link.resume feeding queue).2.1)
  | .sendAck response sequence =>
    (some (link.sendAck response sequence).1, (link.sendAck response sequence).2)
  | .sendReport response => (some (link.sendReport response).1, (link.sendReport response).2)
  | .sendRaw content sequence =>
    (some (link.sendRaw content sequence).1, (link.sendRaw content sequence).2)
  | .drain => (none, link.drain.2)
  | .nextOutbound => (none, link.nextOutbound.2)
  | .close => (none, link.close)

/-- A use that was made. -/
structure Made where
  use : Use
  /-- The answer of a send. -/
  answer : Option (Except Failure Unit)
  /-- The outbound queue before the use. -/
  before : Queue Bytes
  /-- The outbound queue behind the use. -/
  after : Queue Bytes

/-- The record of a use. -/
def made (link : Link) (use : Use) : Made :=
  ⟨use, (link.use use).1, link.outbound, (link.use use).2.outbound⟩

/-- Several uses one after the other. -/
def uses (link : Link) : List Use → List Made
  | [] => []
  | use :: rest => link.made use :: (link.use use).2.uses rest

/-- The frame that a report was queued as: it is the newest one behind a
send that succeeded. -/
def Made.report? : Made → Option Bytes
  | ⟨.sendReport _, some (.ok ()), _, after⟩ => after.items.getLast?
  | _ => none

/-- What a send does to the outbound queue: it pushes a frame and the queue
accepts it, or it fails and the queue stays as it is. -/
def Made.Faithful (made : Made) : Prop :=
  (made.answer = some (.ok ()) →
    ∃ frame evicted, made.before.push frame = (.accepted evicted, made.after)) ∧
  ∀ failure, made.answer = some (.error failure) → made.after = made.before

/-! ## Counting reports -/

/-- The two ends of queueing a frame. -/
theorem enqueue_cases {link : Link} (h : link.outbound.Rolls) (frame : Bytes) :
    (link.outbound.closed = true ∧ link.enqueue frame = (.error .queueClosed, link)) ∨
    (link.outbound.closed = false ∧ ∃ evicted after,
      link.outbound.push frame = (.accepted evicted, after) ∧
      link.enqueue frame = (.ok (), { link with outbound := after }) ∧
      after.Rolls ∧ after.closed = false ∧ after.items.getLast? = some frame) := by
  unfold enqueue
  rcases h.push frame with ⟨hclosed, hpush⟩ | ⟨hopen, evicted, after, hpush, hafter⟩
  · rw [hpush]
    exact .inl ⟨hclosed, rfl⟩
  · rw [hpush]
    exact .inr ⟨hopen, evicted, after, rfl, rfl, hafter⟩

/-- While the outbound queue is open, the number of the next report counts
the reports that were queued. -/
structure Counted (link : Link) (count : Nat) : Prop where
  rolls : link.outbound.Rolls
  next : link.outbound.closed = false →
    link.codec.encoder.reportSequence.toNat = count % 65536

/-- A frame that is queued tells the truth about the outbound queue. -/
theorem faithful_enqueue {link : Link} (h : link.outbound.Rolls) (use : Use) (frame : Bytes) :
    (Made.mk use (some (link.enqueue frame).1) link.outbound
      (link.enqueue frame).2.outbound).Faithful := by
  rcases enqueue_cases h frame with ⟨_, henqueue⟩ | ⟨_, evicted, after, hpush, henqueue, _⟩
  · rw [henqueue]
    exact ⟨nofun, fun _ _ => rfl⟩
  · rw [henqueue]
    exact ⟨fun _ => ⟨frame, evicted, hpush⟩, nofun⟩

/-- A frame that is no report does not count. -/
theorem Counted.enqueue {link : Link} {count : Nat} (h : link.Counted count) (frame : Bytes) :
    (link.enqueue frame).2.Counted count := by
  rcases enqueue_cases h.rolls frame with
    ⟨_, henqueue⟩ | ⟨hopen, _, after, _, henqueue, hrolls, _, _⟩
  · rw [henqueue]
    exact h
  · rw [henqueue]
    exact ⟨hrolls, fun _ => h.next hopen⟩

theorem Counted.sendReport {link : Link} {count : Nat} (h : link.Counted count)
    (response : Response) :
    (link.made (.sendReport response)).Faithful ∧
    ((∃ frame, (link.made (.sendReport response)).report? = some frame ∧
      Frame.number? frame = some (count % 65536) ∧
      (link.sendReport response).2.Counted (count + 1)) ∨
    (link.made (.sendReport response)).report? = none ∧
      (link.sendReport response).2.Counted count) := by
  simp only [made, use, Link.sendReport]
  rcases link.codec.encoder.encodeReport_cases response with
    ⟨frame, hframe, hreport⟩ | ⟨failure, hreport⟩
  · simp only [hreport]
    generalize hnumbered : ({ link with codec := { link.codec with encoder :=
      { link.codec.encoder with
        reportSequence := link.codec.encoder.reportSequence + 1 } } } : Link) = numbered
    have houtbound : numbered.outbound = link.outbound := by
      rw [← hnumbered]
    have hrolls : numbered.outbound.Rolls := houtbound ▸ h.rolls
    refine ⟨houtbound ▸ faithful_enqueue hrolls (.sendReport response) frame, ?_⟩
    rcases enqueue_cases hrolls frame with
      ⟨hclosed, henqueue⟩ | ⟨hopen, _, after, _, henqueue, hafter, _, hlast⟩
    · -- the number is lost, but the queue takes no report any more
      rw [henqueue]
      refine .inr ⟨rfl, hrolls, ?_⟩
      intro hopen
      rw [hclosed] at hopen
      cases hopen
    · rw [henqueue]
      refine .inl ⟨frame, hlast, ?_, hafter, ?_⟩
      · rw [Encoder.number?_of_encodeResponse hframe, h.next (houtbound ▸ hopen)]
      · intro _
        rw [← hnumbered]
        show (link.codec.encoder.reportSequence + 1).toNat = (count + 1) % 65536
        rw [UInt16.toNat_add, h.next (houtbound ▸ hopen)]
        show (count % 65536 + 1) % 65536 = (count + 1) % 65536
        omega
  · simp only [hreport]
    exact ⟨⟨nofun, fun _ _ => rfl⟩, .inr ⟨rfl, h⟩⟩

/-- What a use does: either it queues a report, under the next number, or it
queues none.  A send that fails leaves the outbound queue as it is. -/
theorem Counted.use {link : Link} {count : Nat} (h : link.Counted count) (use : Use) :
    (link.made use).Faithful ∧
    ((∃ frame, (link.made use).report? = some frame ∧
      Frame.number? frame = some (count % 65536) ∧ (link.use use).2.Counted (count + 1)) ∨
    (link.made use).report? = none ∧ (link.use use).2.Counted count) := by
  cases use with
  | feed bytes queue =>
    obtain ⟨decoder, hfed⟩ := resume_withDecoder { bytes } link queue
    refine ⟨⟨nofun, nofun⟩, .inr ⟨rfl, ?_⟩⟩
    show (link.resume { bytes } queue).2.1.Counted count
    rw [hfed]
    exact ⟨h.rolls, h.next⟩
  | resume feeding queue =>
    obtain ⟨decoder, hfed⟩ := resume_withDecoder feeding link queue
    refine ⟨⟨nofun, nofun⟩, .inr ⟨rfl, ?_⟩⟩
    show (link.resume feeding queue).2.1.Counted count
    rw [hfed]
    exact ⟨h.rolls, h.next⟩
  | sendAck response sequence =>
    simp only [made, Link.use, Link.sendAck]
    cases link.codec.encoder.encodeResponse response sequence with
    | ok frame => exact ⟨faithful_enqueue h.rolls _ frame, .inr ⟨rfl, h.enqueue frame⟩⟩
    | error failure => exact ⟨⟨nofun, fun _ _ => rfl⟩, .inr ⟨rfl, h⟩⟩
  | sendReport response => exact h.sendReport response
  | sendRaw content sequence =>
    simp only [made, Link.use, Link.sendRaw]
    cases link.codec.encoder.encodeFrame content sequence with
    | ok frame => exact ⟨faithful_enqueue h.rolls _ frame, .inr ⟨rfl, h.enqueue frame⟩⟩
    | error failure => exact ⟨⟨nofun, fun _ _ => rfl⟩, .inr ⟨rfl, h⟩⟩
  | drain =>
    obtain ⟨hrolls, hclosed⟩ := h.rolls.tryPop
    exact ⟨⟨nofun, nofun⟩, .inr ⟨rfl, hrolls, fun hopen => h.next (hclosed ▸ hopen)⟩⟩
  | nextOutbound =>
    obtain ⟨hrolls, hclosed⟩ := h.rolls.tryPop
    refine ⟨⟨nofun, nofun⟩, .inr ⟨rfl, ?_⟩⟩
    simp only [Link.use, nextOutbound_snd]
    exact ⟨hrolls, fun hopen => h.next (hclosed ▸ hopen)⟩
  | close =>
    have hbounded := h.rolls.bounded
    refine ⟨⟨nofun, nofun⟩, .inr ⟨rfl, ⟨⟨hbounded.1, hbounded.2⟩, h.rolls.policy⟩, nofun⟩⟩

/-- The reports that were queued, in order. -/
def reportsIn (record : List Made) : List Bytes :=
  record.filterMap Made.report?

theorem Counted.uses {link : Link} {count : Nat} (h : link.Counted count) (uses : List Use) :
    (reportsIn (link.uses uses)).map Frame.number? =
      numbersFrom count (reportsIn (link.uses uses)).length ∧
    ∀ made ∈ link.uses uses, made.Faithful := by
  induction uses generalizing link count with
  | nil =>
    refine ⟨rfl, ?_⟩
    intro made hmade
    cases hmade
  | cons use rest ih =>
    obtain ⟨hfaithful, hmade⟩ := h.use use
    rw [Link.uses, reportsIn, List.filterMap_cons]
    rcases hmade with ⟨frame, hreport, hnumber, hnext⟩ | ⟨hreport, hnext⟩
    · obtain ⟨hnumbers, hall⟩ := ih hnext
      rw [hreport]
      refine ⟨?_, List.forall_mem_cons.mpr ⟨hfaithful, hall⟩⟩
      show Frame.number? frame :: (reportsIn _).map Frame.number? =
        numbersFrom count ((reportsIn _).length + 1)
      rw [hnumber, hnumbers, numbersFrom_succ]
    · obtain ⟨hnumbers, hall⟩ := ih hnext
      rw [hreport]
      exact ⟨hnumbers, List.forall_mem_cons.mpr ⟨hfaithful, hall⟩⟩

theorem counted_ofConfig (config : Config) : (ofConfig config).Counted 0 where
  rolls := Queue.rolls_empty _
  next _ := rfl

end Link

/-- The reports of a codec carry the numbers from zero on, modulo `2 ^ 16`,
whatever else is called and whichever calls fail, and the calls of either
direction answer as if those of the other had not been made.  The reports
that get into the outbound queue of a link carry these numbers in the order
in which they are queued.  A send that succeeds pushes one frame, and one
that fails leaves the queue as it is. -/
theorem reports_numbered (capacity : Nat) (policy : DuplicatePolicy) (legacyMarker : Bool)
    (calls : List Codec.Call) (config : Config) (uses : List Link.Use) :
    let told := (Codec.fresh capacity policy legacyMarker).run calls
    let record := (Link.ofConfig config).uses uses
    (Codec.reportsIn told).map Frame.number? =
        numbersFrom 0 (Codec.reportsIn told).length ∧
      told.filter (fun answered => answered.1.isInbound) =
        (Codec.fresh capacity policy legacyMarker).run (calls.filter Codec.Call.isInbound) ∧
      told.filter (fun answered => !answered.1.isInbound) =
        (Codec.fresh capacity policy legacyMarker).run
          (calls.filter fun call => !call.isInbound) ∧
      (Link.reportsIn record).map Frame.number? =
        numbersFrom 0 (Link.reportsIn record).length ∧
      ∀ made ∈ record, made.Faithful := by
  obtain ⟨hnumbers, hfaithful⟩ := (Link.counted_ofConfig config).uses uses
  exact ⟨Codec.numbers_reports rfl calls, Codec.inbound_run rfl calls,
    Codec.outbound_run rfl calls, hnumbers, hfaithful⟩

end TestRig
