import TestRig.Proofs.Decoder.RoundTrip
import TestRig.Proofs.Link.Journal
import Mathlib.Data.List.Chain
import Mathlib.Data.List.Induction

/-!
# Repeats and the command queue

A decoder that rejects repeats drops a frame with the sequence number of the
last command that it decoded.  It does not know what became of that command:
the queue may have been full, and have refused it.

* `Heed` is what the decoder owes the sequence numbers: a repeat has the last
  number, and a command another one.
* `Session.Kept` is the invariant of a session.  Commands are pushed in the
  order in which they were decoded, so a place in that order tells what
  became of a command.
* `repeated_only_of_last` is the account of all sessions;
  `repeated_without_delivery` is a session in which a command is never
  delivered.
-/

namespace TestRig

open Decoder Frame

namespace Link

/-! ## What the decoder owes the sequence numbers -/

/-- What a note says of a frame is right if `last` is the sequence number of
the last command before it. -/
def Note.Heeds (last : Option UInt16) : Note → Prop
  | .decoded command => last ≠ some command.sequence
  | .repeated sequence => last = some sequence
  | .queue _ => True

/-- The sequence number of the last command, after one more note. -/
def Note.lastAfter (last : Option UInt16) : Note → Option UInt16
  | .decoded command => some command.sequence
  | _ => last

/-- The sequence number of the last command behind a journal. -/
def lastNoted (last : Option UInt16) (told : List Note) : Option UInt16 :=
  told.foldl Note.lastAfter last

/-- Every note of a journal is right. -/
def Heed (last : Option UInt16) : List Note → Prop
  | [] => True
  | note :: rest => note.Heeds last ∧ Heed (note.lastAfter last) rest

theorem lastNoted_append (last : Option UInt16) (first second : List Note) :
    lastNoted last (first ++ second) = lastNoted (lastNoted last first) second :=
  List.foldl_append ..

theorem heed_append {last : Option UInt16} {first second : List Note} :
    Heed last (first ++ second) ↔ Heed last first ∧ Heed (lastNoted last first) second := by
  induction first generalizing last with
  | nil => exact (and_iff_right trivial).symm
  | cons note rest ih =>
    rw [List.cons_append, Heed, Heed, ih, and_assoc]
    rfl

/-- The last number behind a journal belongs to the last command in it. -/
theorem lastNoted_cases (last : Option UInt16) (told : List Note) :
    decodedIn told = [] ∧ lastNoted last told = last ∨
      ∃ before command, decodedIn told = before ++ [command] ∧
        lastNoted last told = some command.sequence := by
  induction told using List.reverseRecOn with
  | nil => exact .inl ⟨rfl, rfl⟩
  | append_singleton told note ih =>
    rw [decodedIn_append, lastNoted_append]
    cases note with
    | decoded command => exact .inr ⟨decodedIn told, command, rfl, rfl⟩
    | repeated sequence =>
      rw [show decodedIn [Note.repeated sequence] = [] from rfl, List.append_nil]
      exact ih
    | queue event =>
      rw [show decodedIn [Note.queue event] = [] from rfl, List.append_nil]
      exact ih

/-- Two commands in a row have different numbers. -/
theorem Heed.isChain {last : Option UInt16} {told : List Note} (h : Heed last told) :
    (∀ first ∈ (decodedIn told).head?, last ≠ some first.sequence) ∧
      (decodedIn told).IsChain fun first second => first.sequence ≠ second.sequence := by
  induction told generalizing last with
  | nil =>
    refine ⟨?_, .nil⟩
    intro first hfirst
    cases hfirst
  | cons note rest ih =>
    obtain ⟨hnote, hrest⟩ := h
    cases note with
    | decoded command =>
      obtain ⟨hnext, hchain⟩ := ih hrest
      refine ⟨?_, List.isChain_cons.mpr ⟨?_, hchain⟩⟩
      · intro first hfirst
        cases hfirst
        exact hnote
      · intro second hsecond hequal
        exact hnext second hsecond (congrArg some hequal)
    | repeated sequence => exact ih hrest
    | queue event => exact ih hrest

/-! ## The notes of a decoder that rejects repeats -/

/-- A journal keeps the last number as the decoder does. -/
theorem lastNoted_notesOf (last : Option UInt16) (trace : List Sighting) :
    lastNoted last (notesOf trace) = lastBehind last trace := by
  induction trace generalizing last with
  | nil => rfl
  | cons sighting rest ih =>
    rw [notesOf_cons, lastNoted_append, ih, lastBehind, lastBehind, List.foldl_cons]
    obtain ⟨outcome, span⟩ := sighting
    rcases outcome with _ | _ | ⟨_ | _ | _ | _⟩ | _ <;> rfl

/-- Gaps are not in the journal. -/
theorem notesOf_notable (trace : List Sighting) : notesOf (notable trace) = notesOf trace := by
  induction trace with
  | nil => rfl
  | cons sighting rest ih =>
    rw [notable] at ih ⊢
    cases hgap : sighting.outcome.isGap with
    | false =>
      rw [List.filter_cons_of_pos (by rw [hgap]; rfl), notesOf_cons, notesOf_cons, ih]
    | true =>
      rw [List.filter_cons_of_neg (by rw [hgap]; exact Bool.false_ne_true), notesOf_cons, ih]
      obtain ⟨outcome, span⟩ := sighting
      rcases outcome with _ | _ | ⟨_ | _ | _ | _⟩ | _ <;> first | rfl | cases hgap

theorem heed_settle {scanner : Scanner} (hreject : scanner.policy = .reject)
    (last : Option UInt16) (header : Header) (data : Bytes) :
    Heed last (Note.ofOutcome? (scanner.settle last header data)).toList := by
  unfold Scanner.settle
  split_ifs with hrepeat
  · exact ⟨hrepeat.2, trivial⟩
  · cases hcommand : commandIn? header data with
    | none => trivial
    | some command =>
      refine ⟨?_, trivial⟩
      intro hlast
      rw [sequence_of_commandIn? hcommand] at hlast
      exact hrepeat ⟨hreject, hlast⟩

theorem heed_next? {scanner : Scanner} (hreject : scanner.policy = .reject)
    {last : Option UInt16} {stream : Bytes} {sighting : Sighting}
    (h : scanner.next? last stream = some sighting) :
    Heed last (Note.ofOutcome? sighting.outcome).toList := by
  simp only [Scanner.next?] at h
  split at h
  · cases h
  · split at h
    · cases h
    · split_ifs at h
      · cases h
        trivial
      · cases h
        simp only [Scanner.judge]
        split_ifs
        · exact heed_settle hreject last _ _
        · trivial

theorem heed_scan {scanner : Scanner} (hreject : scanner.policy = .reject)
    (last : Option UInt16) (stream : Bytes) : Heed last (notesOf (scanner.scan last stream)) := by
  induction last, stream using Scanner.scan.induct scanner with
  | case1 last stream hnone =>
    rw [Scanner.scan_of_none hnone]
    trivial
  | case2 last stream sighting hsome ih =>
    rw [Scanner.scan_of_some hsome, notesOf_cons, heed_append]
    refine ⟨heed_next? hreject hsome, ?_⟩
    have hlast : lastNoted last (Note.ofOutcome? sighting.outcome).toList =
        sighting.outcome.lastAfter last := by
      have hone := lastNoted_notesOf last [sighting]
      rwa [notesOf_cons, lastNoted_append] at hone
    rw [hlast]
    exact ih

theorem heed_of_follows {before after : Decoder} {stream : Bytes} {trace : List Sighting}
    (hreject : before.scanner.policy = .reject) (h : before.Follows after stream trace)
    (hwaiting : after.Waiting) : Heed before.lastSequence (notesOf trace) := by
  rw [← notesOf_notable, h.notable_eq hwaiting]
  exact heed_scan hreject _ _

/-- The counters of the decoder count the notes. -/
theorem foldl_tally_notesOf (stats : DecoderStats) (trace : List Sighting) :
    (trace.foldl DecoderStats.tally stats).duplicatesDropped =
        stats.duplicatesDropped + (repeatsIn (notesOf trace)).length ∧
      (trace.foldl DecoderStats.tally stats).framesDecoded =
        stats.framesDecoded + (decodedIn (notesOf trace)).length := by
  induction trace generalizing stats with
  | nil => exact ⟨rfl, rfl⟩
  | cons sighting rest ih =>
    obtain ⟨hrepeats, hdecoded⟩ := ih (stats.tally sighting)
    rw [List.foldl_cons, hrepeats, hdecoded, notesOf_cons, repeatsIn_append, decodedIn_append,
      List.length_append, List.length_append, ← Nat.add_assoc, ← Nat.add_assoc]
    obtain ⟨outcome, span⟩ := sighting
    rcases outcome with _ | _ | ⟨_ | _ | _ | _⟩ | _ <;> exact ⟨rfl, rfl⟩

/-! ## The decoder behind a journal -/

/-- The decoder has told the journal, and knows the last command in it. -/
structure Heard (config : Config) (told : List Note) (link : Link) : Prop where
  waiting : link.Waiting
  scanner : link.codec.decoder.scanner = (ofConfig config).codec.decoder.scanner
  heeds : Heed none told
  last : link.codec.decoder.lastSequence = lastNoted none told
  repeats : link.stats.duplicatesDropped = (repeatsIn told).length
  decoded : link.stats.framesDecoded = (decodedIn told).length

theorem heard_start (config : Config) : Heard config [] (ofConfig config) where
  waiting := Reachable.start.waiting
  scanner := rfl
  heeds := trivial
  last := rfl
  repeats := rfl
  decoded := rfl

/-- The notes on a queue say nothing of frames. -/
theorem queue_notes (events : List (Queue.Event Command)) :
    decodedIn (events.map .queue) = [] ∧ repeatsIn (events.map .queue) = [] ∧
      eventsIn (events.map .queue) = events ∧
      ∀ last, Heed last (events.map .queue) ∧ lastNoted last (events.map .queue) = last := by
  induction events with
  | nil => exact ⟨rfl, rfl, rfl, fun last => ⟨trivial, rfl⟩⟩
  | cons event rest ih =>
    obtain ⟨hdecoded, hrepeats, hevents, hlast⟩ := ih
    refine ⟨hdecoded, hrepeats, congrArg (event :: ·) hevents, ?_⟩
    intro last
    exact ⟨⟨trivial, (hlast last).1⟩, (hlast last).2⟩

theorem Heard.append_events {config : Config} {told : List Note} {link : Link}
    (h : Heard config told link) (events : List (Queue.Event Command)) :
    Heard config (told ++ events.map .queue) link := by
  obtain ⟨hdecoded, hrepeats, _, hlast⟩ := queue_notes events
  refine ⟨h.waiting, h.scanner, ?_, ?_, ?_, ?_⟩
  · exact heed_append.mpr ⟨h.heeds, (hlast _).1⟩
  · rw [lastNoted_append, (hlast _).2, h.last]
  · rw [repeatsIn_append, hrepeats, List.append_nil, h.repeats]
  · rw [decodedIn_append, hdecoded, List.append_nil, h.decoded]

/-- A turn of a feed: what the decoder finds is noted, and the commands are
handed on. -/
theorem Heard.decode {config : Config} {told : List Note} {link : Link}
    (hreject : config.duplicatePolicy = .reject) (h : Heard config told link) (bytes : Bytes) :
    ∃ trace after,
      decodeSome link.codec.decoder bytes =
        (.ok (commandsIn trace, bytes.drop link.codec.decoder.available), after) ∧
      decodeNotes link.codec.decoder bytes = notesOf trace ∧
      Heard config (told ++ notesOf trace) (link.withDecoder after) := by
  obtain ⟨hroom, trace, after, hreceive, hdecode, hfollows, hafter⟩ :=
    decodeSome_follows h.waiting.1 h.waiting.2 bytes
  have hpolicy : link.codec.decoder.scanner.policy = .reject := by
    rw [h.scanner]
    exact hreject
  have hheed := heed_of_follows hpolicy hfollows hafter
  obtain ⟨hrepeats, hdecoded⟩ := foldl_tally_notesOf link.stats trace
  have hstats : (link.withDecoder after).stats = trace.foldl DecoderStats.tally link.stats :=
    hfollows.stats
  refine ⟨trace, after, hdecode, decodeNotes_eq hroom hreceive, ?_⟩
  refine ⟨⟨hfollows.sound, hafter⟩, hfollows.scanner.trans h.scanner, ?_, ?_, ?_, ?_⟩
  · rw [h.last] at hheed
    exact heed_append.mpr ⟨h.heeds, hheed⟩
  · rw [lastNoted_append, lastNoted_notesOf, ← h.last]
    exact hfollows.last
  · rw [hstats, hrepeats, h.repeats, repeatsIn_append, List.length_append]
  · rw [hstats, hdecoded, h.decoded, decodedIn_append, List.length_append]

/-! ## The queue behind a journal -/

/-- A push is refused only by a full queue, under the policy that refuses. -/
structure Full (config : Config) (before : List (Queue.Event Command)) (failure : Failure) :
    Prop where
  policy : config.overflowPolicy = .reject
  failure : failure = .queueFull (max config.queueCapacity 1)
  /-- As many items were in the queue as there was room for. -/
  full : (Queue.accepted before).length =
    (Queue.removed before).length + max config.queueCapacity 1

/-- The queue has told these events. -/
structure Stored (config : Config) (events : List (Queue.Event Command)) (queue : CommandQueue) :
    Prop where
  bounded : queue.Bounded
  opened : queue.closed = false
  used : ∃ offered, (Queue.Shared.fresh config.queueCapacity config.overflowPolicy).Used offered
    events ⟨queue, []⟩
  refusals : ∀ before command failure after, events = before ++ .refused command failure :: after →
    Full config before failure

theorem stored_start (config : Config) :
    Stored config [] (.empty config.queueCapacity config.overflowPolicy) where
  bounded := Queue.bounded_empty _ _
  opened := rfl
  used := ⟨[], .refl _⟩
  refusals := by
    intro before command failure after h
    exact absurd h.symm (List.append_ne_nil_of_right_ne_nil _ (List.cons_ne_nil _ _))

theorem Stored.conserves {config : Config} {events : List (Queue.Event Command)}
    {queue : CommandQueue} (h : Stored config events queue) :
    Queue.removed events ++ queue.items = Queue.accepted events := by
  obtain ⟨offered, hused⟩ := h.used
  exact hused.conserves

theorem Stored.capacity {config : Config} {events : List (Queue.Event Command)}
    {queue : CommandQueue} (h : Stored config events queue) :
    queue.capacity = max config.queueCapacity 1 ∧ queue.policy = config.overflowPolicy := by
  obtain ⟨offered, hused⟩ := h.used
  exact ⟨hused.capacity, hused.policy⟩

/-- More events, of which the refusals are for want of room. -/
theorem Stored.append {config : Config} {events more : List (Queue.Event Command)}
    {queue after : CommandQueue} (h : Stored config events queue) (hbounded : after.Bounded)
    (hopened : after.closed = false) {offered : List Command}
    (hused : Queue.Shared.Used ⟨queue, []⟩ offered more ⟨after, []⟩)
    (hrefusals : ∀ before command failure later,
      more = before ++ .refused command failure :: later →
        Full config (events ++ before) failure) : Stored config (events ++ more) after where
  bounded := hbounded
  opened := hopened
  used := by
    obtain ⟨earlier, hearlier⟩ := h.used
    exact ⟨earlier ++ offered, hearlier.trans hused⟩
  refusals := by
    intro before command failure later heq
    rcases List.append_eq_append_iff.mp heq with ⟨between, rfl, hmore⟩ | ⟨between, rfl, hrest⟩
    · exact hrefusals between command failure later hmore
    · rcases between with _ | ⟨event, between⟩
      · rw [List.append_nil] at hrefusals
        have hfull := hrefusals [] command failure later hrest.symm
        rwa [List.append_nil] at hfull
      · obtain ⟨rfl, _⟩ := List.cons.inj hrest
        exact h.refusals before command failure between rfl

theorem refusals_of_notMem {config : Config} {events more : List (Queue.Event Command)}
    (h : ∀ command failure, .refused command failure ∉ more) :
    ∀ before command failure later, more = before ++ .refused command failure :: later →
      Full config (events ++ before) failure := by
  rintro before command failure later rfl
  exact absurd (List.mem_append_right before List.mem_cons_self) (h command failure)

/-- The three ends of a push. -/
theorem Stored.push {config : Config} {events : List (Queue.Event Command)}
    {queue : CommandQueue} (h : Stored config events queue) (command : Command) :
    (∃ evicted after, queue.push command = (.accepted evicted, after) ∧
      Stored config (events ++ Queue.Event.ofPushed command (.accepted evicted)) after) ∨
    (queue.push command = (.refused (.queueFull queue.capacity), queue) ∧
      Stored config (events ++ [.refused command (.queueFull queue.capacity)]) queue) ∨
    queue.push command = (.waiting, queue) := by
  obtain ⟨hcapacity, hpolicy⟩ := h.capacity
  have hanswered := h.bounded.answered command
  generalize hpush : queue.push command = result at hanswered
  obtain ⟨pushed, after⟩ := result
  have hbounded := hanswered.bounded h.bounded
  have hused : pushed ≠ .waiting → Queue.Shared.Used ⟨queue, []⟩ [command]
      (Queue.Event.ofPushed command pushed) ⟨after, []⟩ := fun hends =>
    Queue.Shared.used_of_answered hanswered hends (List.Perm.refl _)
  cases hanswered with
  | closed hclosed =>
    rw [h.opened] at hclosed
    cases hclosed
  | room hopen hroom =>
    refine .inl ⟨none, _, rfl, h.append hbounded hopen (hused (by simp)) ?_⟩
    exact refusals_of_notMem (by simp [Queue.Event.ofPushed])
  | evicts hopen hfull hdrop oldest rest hitems =>
    refine .inl ⟨some oldest, _, rfl, h.append hbounded hopen (hused (by simp)) ?_⟩
    exact refusals_of_notMem (by simp [Queue.Event.ofPushed])
  | full hopen hfull hreject =>
    refine .inr (.inl ⟨rfl, h.append hbounded hopen (hused (by simp)) ?_⟩)
    intro before other failure later heq
    rcases List.singleton_eq_append_iff.mp heq with ⟨rfl, hcons⟩ | ⟨_, hnil⟩
    · cases hcons
      have hconserves := congrArg List.length h.conserves
      rw [List.length_append, hfull, hcapacity] at hconserves
      rw [List.append_nil, hcapacity]
      exact ⟨hpolicy.symm.trans hreject, rfl, hconserves.symm⟩
    · cases hnil
  | waits hopen hfull hblock => exact .inr (.inr rfl)

/-- A pop takes the oldest command, or finds none. -/
theorem Stored.pop {config : Config} {events : List (Queue.Event Command)}
    {queue : CommandQueue} (h : Stored config events queue) :
    (∃ command after, queue.tryPop = (some command, after) ∧
      Stored config (events ++ [.popped command]) after) ∨
    (queue.tryPop = (none, queue) ∧ Stored config (events ++ [.nothing]) queue) := by
  rw [Queue.tryPop]
  cases hitems : queue.items with
  | nil =>
    refine .inr ⟨rfl, h.append h.bounded h.opened
      (Queue.Shared.used_unpopped queue [] hitems (.inl rfl)) ?_⟩
    exact refusals_of_notMem (by simp)
  | cons command rest =>
    refine .inl ⟨command, _, rfl, h.append (Queue.Shared.bounded_of_popped h.bounded hitems)
      h.opened (Queue.Shared.used_popped queue [] hitems) ?_⟩
    exact refusals_of_notMem (by simp)

/-! ## Sessions -/

/-- What an event says of the push of a command: it was accepted, or why it
was not. -/
def pushOf? : Queue.Event Command → Option (Command × Option Failure)
  | .accepted command => some (command, none)
  | .refused command failure => some (command, some failure)
  | _ => none

/-- The pushes that came to an end, in order. -/
def pushesIn (told : List Note) : List (Command × Option Failure) :=
  (eventsIn told).filterMap pushOf?

theorem pushesIn_append (first second : List Note) :
    pushesIn (first ++ second) = pushesIn first ++ pushesIn second := by
  rw [pushesIn, eventsIn_append, List.filterMap_append]
  rfl

namespace Session

/-- The commands of a session are pushed in the order in which they were
decoded. -/
structure Kept (config : Config) (told : List Note) (session : Session) : Prop where
  heard : Heard config told session.link
  stored : Stored config (eventsIn told) session.queue
  order : decodedIn told = (pushesIn told).map Prod.fst ++ session.pending
  alive : ∀ failure, session.fed ≠ .failed failure

theorem kept_start (config : Config) : Kept config [] (start config) where
  heard := heard_start config
  stored := stored_start config
  order := rfl
  alive := by
    intro failure h
    cases h

section Steps

variable {config : Config} {told : List Note} {session : Session}

/-- Events of the queue, with the pushes that came to their end taken from
those that are pending. -/
theorem Kept.append_events {link : Link} {queue after : CommandQueue} {fed fed' : Fed}
    (h : Kept config told ⟨link, queue, fed⟩) {events : List (Queue.Event Command)}
    (hstored : Stored config (eventsIn told ++ events) after)
    (horder : pending ⟨link, queue, fed⟩ =
      (events.filterMap pushOf?).map Prod.fst ++ pending ⟨link, after, fed'⟩)
    (halive : ∀ failure, fed' ≠ .failed failure) :
    Kept config (told ++ events.map .queue) ⟨link, after, fed'⟩ := by
  obtain ⟨hdecoded, _, hevents, _⟩ := queue_notes events
  refine ⟨h.heard.append_events events, ?_, ?_, halive⟩
  · rw [eventsIn_append, hevents]
    exact hstored
  · have hbefore := h.order
    rw [horder] at hbefore
    rw [decodedIn_append, hdecoded, List.append_nil, hbefore, pushesIn_append, pushesIn, pushesIn,
      hevents, List.map_append, List.append_assoc]

theorem Kept.push {link : Link} {queue : CommandQueue} {command : Command} {rest : List Command}
    {bytes : Bytes} {queued : Nat}
    (h : Kept config told ⟨link, queue, .blocked ⟨command :: rest, bytes, queued⟩⟩) :
    Kept config
      (told ++ (Session.push ⟨link, queue, .blocked ⟨command :: rest, bytes, queued⟩⟩ command rest
        bytes queued).1)
      (Session.push ⟨link, queue, .blocked ⟨command :: rest, bytes, queued⟩⟩ command rest bytes
        queued).2 := by
  unfold Session.push
  rcases h.stored.push command with ⟨evicted, after, hpush, hstored⟩ | ⟨hpush, hstored⟩ | hpush
  · simp only [hpush]
    refine h.append_events hstored ?_ (by simp)
    cases evicted <;> rfl
  · simp only [hpush]
    exact h.append_events hstored rfl (by simp)
  · simp only [hpush]
    rw [List.append_nil]
    exact h

theorem Kept.decode (hreject : config.duplicatePolicy = .reject) {link : Link}
    {queue : CommandQueue} {bytes : Bytes} {queued : Nat}
    (h : Kept config told ⟨link, queue, .blocked ⟨[], bytes, queued⟩⟩) :
    Kept config
      (told ++ (Session.decode ⟨link, queue, .blocked ⟨[], bytes, queued⟩⟩ bytes queued).1)
      (Session.decode ⟨link, queue, .blocked ⟨[], bytes, queued⟩⟩ bytes queued).2 := by
  unfold Session.decode
  split_ifs with hempty
  · rw [List.append_nil]
    exact ⟨h.heard, h.stored, h.order, by simp⟩
  · obtain ⟨trace, after, hdecode, hnotes, hheard⟩ := h.heard.decode hreject bytes
    simp only [hdecode, hnotes]
    refine ⟨hheard, ?_, ?_, by simp⟩
    · rw [eventsIn_append, eventsIn_notesOf, List.append_nil]
      exact h.stored
    · have hbefore := h.order
      rw [show pending ⟨link, queue, .blocked ⟨[], bytes, queued⟩⟩ = [] from rfl,
        List.append_nil] at hbefore
      rw [decodedIn_append, hbefore, decodedIn_notesOf, pushesIn_append, pushesIn, pushesIn,
        eventsIn_notesOf, List.filterMap_nil, List.append_nil]
      rfl

/-- One act. -/
theorem Kept.act (hreject : config.duplicatePolicy = .reject) (h : Kept config told session)
    (act : Act) : Kept config (told ++ (session.act act).1) (session.act act).2 := by
  obtain ⟨link, queue, fed⟩ := session
  cases act with
  | feed bytes =>
    cases fed with
    | finished queued =>
      show Kept config (told ++ []) ⟨link, queue, .blocked { bytes }⟩
      rw [List.append_nil]
      exact ⟨h.heard, h.stored, h.order, by simp⟩
    | failed failure => exact absurd rfl (h.alive failure)
    | blocked feeding =>
      show Kept config (told ++ []) _
      rw [List.append_nil]
      exact h
  | go =>
    show Kept config (told ++ (go ⟨link, queue, fed⟩).1) (go ⟨link, queue, fed⟩).2
    cases fed with
    | finished queued =>
      show Kept config (told ++ []) _
      rw [List.append_nil]
      exact h
    | failed failure => exact absurd rfl (h.alive failure)
    | blocked feeding =>
      obtain ⟨_ | ⟨command, rest⟩, bytes, queued⟩ := feeding
      · exact h.decode hreject
      · exact h.push
  | pop =>
    show Kept config (told ++ (pop ⟨link, queue, fed⟩).1) (pop ⟨link, queue, fed⟩).2
    unfold Session.pop
    rcases h.stored.pop with ⟨command, after, hpop, hstored⟩ | ⟨hpop, hstored⟩
    · simp only [hpop]
      exact h.append_events hstored rfl h.alive
    · simp only [hpop]
      exact h.append_events hstored rfl h.alive

/-- All acts of a session. -/
theorem Kept.run (hreject : config.duplicatePolicy = .reject) (h : Kept config told session)
    (acts : List Act) : Kept config (told ++ (session.run acts).1) (session.run acts).2 := by
  induction acts generalizing told session with
  | nil =>
    rw [Session.run, List.append_nil]
    exact h
  | cons act rest ih =>
    rw [Session.run, ← List.append_assoc]
    exact ih (h.act hreject act)

end Steps

/-! ## Frames that are sent again -/

/-- A frame that comes alone is settled in one turn. -/
theorem decodeSome_assemble {decoder : Decoder} {sequence : UInt16} {content : Bytes}
    (hsound : decoder.Sound) (hwaiting : decoder.Waiting) (hempty : decoder.buffered = 0)
    (h : content.length ≤ maxContent)
    (hfits : (assemble sequence content).length ≤ decoder.ring.capacity) :
    ∃ after, decodeSome decoder (assemble sequence content) =
        (.ok ((decoder.scanner.settle decoder.lastSequence (headerFor sequence content)
          (assemble sequence content)).command?.toList, []), after) ∧
      decodeNotes decoder (assemble sequence content) =
        (Note.ofOutcome? (decoder.scanner.settle decoder.lastSequence
          (headerFor sequence content) (assemble sequence content))).toList := by
  have hroom : decoder.available = decoder.ring.capacity := by
    show decoder.ring.capacity - decoder.ring.length = _
    rw [show decoder.ring.length = 0 from hempty, Nat.sub_zero]
  have hnil : decoder.ring.toList = [] := by
    refine List.eq_nil_of_length_eq_zero ?_
    rw [Ring.length_toList]
    exact hempty
  rw [← hroom] at hfits
  obtain ⟨hpos, trace, after, hreceive, hdecode, hfollows, hafter⟩ :=
    decodeSome_follows hsound hwaiting (assemble sequence content)
  have hscan := hfollows.notable_eq hafter
  rw [hnil, List.nil_append, List.take_of_length_le hfits] at hscan
  have hnext := @Scanner.next?_assemble decoder.scanner sequence content h
    (by rw [← length_assemble sequence content, scanner, ← hroom]; exact hfits)
    decoder.lastSequence []
  rw [List.append_nil] at hnext
  have hfront : fromMarker (assemble sequence content) = assemble sequence content := by
    have hmarker := markerAt_of_decode (decode_assemble sequence content [])
    rw [List.append_nil] at hmarker
    exact fromMarker_of_markerAt hmarker
  rw [Scanner.scan_of_some hnext, hfront, List.drop_length, Scanner.scan_of_none rfl] at hscan
  have hnotes : notesOf trace = (Note.ofOutcome? (decoder.scanner.settle decoder.lastSequence
      (headerFor sequence content) (assemble sequence content))).toList := by
    rw [← notesOf_notable, hscan, notesOf_cons]
    exact List.append_nil _
  refine ⟨after, ?_, ?_⟩
  · rw [hdecode, ← decodedIn_notesOf, hnotes, List.drop_of_length_le hfits]
    cases decoder.scanner.settle decoder.lastSequence (headerFor sequence content)
      (assemble sequence content) with
    | retry reason => cases reason <;> rfl
    | incomplete | success | fault => rfl
  · rw [decodeNotes_eq hpos hreceive, hnotes]

theorem scanner_ofConfig (config : Config) :
    (ofConfig config).codec.decoder.scanner =
      ⟨max config.ringCapacity minLength, config.duplicatePolicy⟩ := by
  show Scanner.mk (Ring.empty (max config.ringCapacity minLength)).capacity _ = _
  rw [Ring.capacity_empty, Nat.max_eq_left (Nat.le_trans (by decide) (Nat.le_max_right ..))]
  rfl

section Resent

variable {config : Config} {told : List Note} {session : Session} {sequence : UInt16}
  {content frame : Bytes}

/-- The first step of a feed of one frame, with nothing buffered before it. -/
theorem go_frame (hreject : config.duplicatePolicy = .reject) (h : Heard config told session.link)
    (hempty : session.link.codec.decoder.buffered = 0)
    (hframe : Frame.build sequence content = .ok frame)
    (hfits : frame.length ≤ max config.ringCapacity minLength) :
    ∃ after, go ⟨session.link, session.queue, .blocked { bytes := frame }⟩ =
      ((Note.ofOutcome? (Scanner.settle ⟨max config.ringCapacity minLength, .reject⟩
          (lastNoted none told) (headerFor sequence content) frame)).toList,
        ⟨session.link.withDecoder after, session.queue,
          .blocked ⟨(Scanner.settle ⟨max config.ringCapacity minLength, .reject⟩
            (lastNoted none told) (headerFor sequence content) frame).command?.toList, [], 0⟩⟩) := by
  obtain ⟨hcontent, rfl⟩ := build_eq_ok_iff.mp hframe
  have hscanner : session.link.codec.decoder.scanner =
      ⟨max config.ringCapacity minLength, .reject⟩ := by
    rw [h.scanner, scanner_ofConfig, hreject]
  have hcapacity : session.link.codec.decoder.ring.capacity =
      max config.ringCapacity minLength := congrArg Scanner.capacity hscanner
  rw [← hcapacity] at hfits
  obtain ⟨after, hdecode, hnotes⟩ := decodeSome_assemble h.waiting.1 h.waiting.2 hempty hcontent
    hfits
  refine ⟨after, ?_⟩
  have hsome : (assemble sequence content).isEmpty = false := by
    rw [List.isEmpty_eq_false_iff, ← List.length_pos_iff, length_assemble]
    exact Nat.add_pos_left (by decide) _
  unfold go Session.decode
  dsimp only
  rw [hsome, if_neg Bool.false_ne_true, hdecode, hnotes, hscanner, h.last]

/-- A frame with the number of the last command is dropped, whatever became
of that command. -/
theorem resent_same (hreject : config.duplicatePolicy = .reject)
    (h : Heard config told session.link) (hidle : ∀ feeding, session.fed ≠ .blocked feeding)
    (hempty : session.link.codec.decoder.buffered = 0)
    (hframe : Frame.build sequence content = .ok frame)
    (hfits : frame.length ≤ max config.ringCapacity minLength)
    (hlast : lastNoted none told = some sequence) :
    (session.run [.feed frame, .go, .go]).1 = [.repeated sequence] ∧
      (session.run [.feed frame, .go, .go]).2.queue = session.queue ∧
      (session.run [.feed frame, .go, .go]).2.fed = .finished 0 := by
  obtain ⟨after, hgo⟩ := go_frame hreject h hempty hframe hfits
  have hsettle : Scanner.settle ⟨max config.ringCapacity minLength, .reject⟩
      (lastNoted none told) (headerFor sequence content) frame =
        .retry (.duplicate sequence) := if_pos ⟨rfl, hlast⟩
  rw [hsettle] at hgo
  rw [run_feed_cons hidle, run, act, hgo]
  exact ⟨rfl, rfl, rfl⟩

/-- A frame with another number is decoded, and its command is accepted if
there is room. -/
theorem resent_other (hreject : config.duplicatePolicy = .reject)
    (h : Heard config told session.link) (hidle : ∀ feeding, session.fed ≠ .blocked feeding)
    (hempty : session.link.codec.decoder.buffered = 0)
    (hframe : Frame.build sequence content = .ok frame)
    (hfits : frame.length ≤ max config.ringCapacity minLength)
    (hlast : lastNoted none told ≠ some sequence) {document : Json.Value} {command : Command}
    (hdocument : document? content = some document)
    (hcommand : Command.ofDocument sequence document = .ok command)
    (hopened : session.queue.closed = false) (hroom : session.queue.hasRoom = true) :
    (session.run [.feed frame, .go, .go, .go]).1 =
        [.decoded command, .queue (.accepted command)] ∧
      (session.run [.feed frame, .go, .go, .go]).2.queue = session.queue.append command ∧
      (session.run [.feed frame, .go, .go, .go]).2.fed = .finished 1 := by
  obtain ⟨after, hgo⟩ := go_frame hreject h hempty hframe hfits
  obtain ⟨hcontent, rfl⟩ := build_eq_ok_iff.mp hframe
  have hread : commandIn? (headerFor sequence content) (assemble sequence content) =
      some command := commandIn?_assemble hcontent hdocument hcommand
  have hsettle : Scanner.settle ⟨max config.ringCapacity minLength, .reject⟩
      (lastNoted none told) (headerFor sequence content) (assemble sequence content) =
        .success command := by
    rw [Scanner.settle, if_neg fun hrepeat => hlast hrepeat.2, hread]
  have hpush : session.queue.push command = (.accepted none, session.queue.append command) := by
    rw [Queue.push, hopened, if_neg Bool.false_ne_true, if_pos hroom]
  rw [hsettle] at hgo
  rw [run_feed_cons hidle, run, act, hgo]
  dsimp only [Outcome.command?, Option.toList]
  rw [run, act, go]
  dsimp only
  unfold Session.push
  simp only [hpush]
  exact ⟨rfl, rfl, rfl⟩

end Resent

/-! ## What a repeat says of the command before it -/

/-- What has become of a command that was decoded after `index` others. -/
inductive Handed (config : Config) (told : List Note) (reached : Session) (index : Nat)
    (command : Command) : Prop where
  | accepted (hpush : (pushesIn told)[index]? = some (command, none))
  | refused (hpolicy : config.overflowPolicy = .reject)
      (hpush : (pushesIn told)[index]? =
        some (command, some (.queueFull (max config.queueCapacity 1))))
  /-- The feed has not come to it yet. -/
  | pending (feeding : Feeding) (hfed : reached.fed = .blocked feeding)
      (hpushes : (pushesIn told).length ≤ index)
      (hnext : feeding.commands[index - (pushesIn told).length]? = some command)

theorem mem_events_of_push {told : List Note} {command : Command} {failure : Failure}
    (h : (command, some failure) ∈ pushesIn told) :
    .refused command failure ∈ eventsIn told := by
  obtain ⟨event, hevent, hpush⟩ := List.mem_filterMap.mp h
  cases event with
  | refused other failure' =>
    cases hpush
    exact hevent
  | accepted | evicted | popped | cleared | nothing | idle => cases hpush

theorem Kept.handed {config : Config} {told : List Note} {session : Session}
    (h : Kept config told session) {index : Nat} {command : Command}
    (hdecoded : (decodedIn told)[index]? = some command) :
    Handed config told session index command := by
  rw [h.order] at hdecoded
  rcases Nat.lt_or_ge index (pushesIn told).length with hbefore | hbehind
  · rw [List.getElem?_append_left (by rwa [List.length_map]), List.getElem?_map,
      Option.map_eq_some_iff] at hdecoded
    obtain ⟨⟨pushed, ending⟩, hpush, rfl⟩ := hdecoded
    cases ending with
    | none => exact .accepted hpush
    | some failure =>
      obtain ⟨before, after, hsplit⟩ :=
        List.append_of_mem (mem_events_of_push (List.mem_of_getElem? hpush))
      have hfull := h.stored.refusals before pushed failure after hsplit
      rw [hfull.failure] at hpush
      exact .refused hfull.policy hpush
  · rw [List.getElem?_append_right (by rwa [List.length_map]), List.length_map] at hdecoded
    unfold Session.pending at hdecoded
    cases hfed : session.fed with
    | blocked feeding =>
      rw [hfed] at hdecoded
      exact .pending feeding hfed hbehind hdecoded
    | finished queued =>
      rw [hfed] at hdecoded
      cases hdecoded
    | failed failure =>
      rw [hfed] at hdecoded
      cases hdecoded

/-- The last number is that of the last command. -/
theorem lastNoted_eq (told : List Note) :
    lastNoted none told = (decodedIn told).getLast?.map Command.sequence := by
  rcases lastNoted_cases none told with ⟨hnone, hlast⟩ | ⟨before, command, hdecoded, hlast⟩
  · rw [hlast, hnone]
    rfl
  · rw [hlast, hdecoded, List.getLast?_concat]
    rfl

end Session

open Session

/-- A session of a link that rejects repeats.  A frame dropped as a repeat
has the number of the last command decoded, and that command was handed to
the queue in its turn: it was accepted, or the queue was full and its policy
is to refuse, or the feed that decoded it still has to push it.  A command
that was refused is not decoded again before one with another number; then it
is accepted once there is room. -/
theorem repeated_only_of_last {config : Config} (hreject : config.duplicatePolicy = .reject)
    (acts : List Act) :
    let told := ((start config).run acts).1
    let reached := ((start config).run acts).2
    (∀ earlier sequence later, told = earlier ++ .repeated sequence :: later →
      ∃ before command, decodedIn earlier = before ++ [command] ∧
        command.sequence = sequence ∧ Handed config told reached before.length command) ∧
    (∀ before command failure later,
      eventsIn told = before ++ .refused command failure :: later → Full config before failure) ∧
    Queue.removed (eventsIn told) ++ reached.queue.items = Queue.accepted (eventsIn told) ∧
    (decodedIn told).IsChain (fun first second => first.sequence ≠ second.sequence) ∧
    (reached.link.stats.duplicatesDropped = (repeatsIn told).length ∧
      reached.link.stats.framesDecoded = (decodedIn told).length) ∧
    ((∀ feeding, reached.fed ≠ .blocked feeding) →
      (∀ bytes, ∃ count, (reached.run (.feed bytes :: List.replicate count .go)).2 =
        ofFed (reached.link.feed bytes reached.queue)) ∧
      ∀ sequence content frame, Frame.build sequence content = .ok frame →
        frame.length ≤ max config.ringCapacity minLength →
        reached.link.codec.decoder.buffered = 0 →
        ((decodedIn told).getLast?.map Command.sequence = some sequence →
          (reached.run [.feed frame, .go, .go]).1 = [.repeated sequence] ∧
          (reached.run [.feed frame, .go, .go]).2.queue = reached.queue ∧
          (reached.run [.feed frame, .go, .go]).2.fed = .finished 0) ∧
        ∀ document command, document? content = some document →
          Command.ofDocument sequence document = .ok command →
          (decodedIn told).getLast?.map Command.sequence ≠ some sequence →
          reached.queue.hasRoom = true →
          (reached.run [.feed frame, .go, .go, .go]).1 =
            [.decoded command, .queue (.accepted command)] ∧
          (reached.run [.feed frame, .go, .go, .go]).2.queue = reached.queue.append command ∧
          (reached.run [.feed frame, .go, .go, .go]).2.fed = .finished 1) := by
  intro told reached
  have hkept : Kept config told reached := (kept_start config).run hreject acts
  refine ⟨?_, hkept.stored.refusals, hkept.stored.conserves, hkept.heard.heeds.isChain.2,
    ⟨hkept.heard.repeats, hkept.heard.decoded⟩, ?_⟩
  · intro earlier sequence later htold
    have hheeds := hkept.heard.heeds
    rw [htold] at hheeds
    have hlast : lastNoted none earlier = some sequence := (heed_append.mp hheeds).2.1
    rcases lastNoted_cases none earlier with ⟨_, hnone⟩ | ⟨before, command, hearlier, hsome⟩
    · rw [hnone] at hlast
      cases hlast
    · rw [hsome] at hlast
      refine ⟨before, command, hearlier, Option.some.inj hlast, hkept.handed ?_⟩
      rw [htold, decodedIn_append, hearlier, List.append_assoc,
        List.getElem?_append_right (Nat.le_refl _), Nat.sub_self]
      rfl
  · intro hidle
    refine ⟨run_feed hkept.heard.waiting hidle, ?_⟩
    intro sequence content frame hframe hfits hempty
    rw [← lastNoted_eq]
    refine ⟨resent_same hreject hkept.heard hidle hempty hframe hfits, ?_⟩
    intro document command hdocument hcommand hlast hroom
    exact resent_other hreject hkept.heard hidle hempty hframe hfits hlast hdocument hcommand
      hkept.stored.opened hroom

/-- The frame around a request for the first kind of command. -/
def handshakeFrame (sequence : UInt16) : Bytes :=
  assemble sequence
    [123, 34, 115, 117, 98, 67, 111, 109, 109, 97, 110, 100, 34, 58, 49, 125]

/-- A command queue with room for one, which refuses what it has no room for. -/
def narrow : Config :=
  { queueCapacity := 1, overflowPolicy := .reject, duplicatePolicy := .reject }

/-- The second command is refused, and its frame is sent again when there is
room. -/
def refusedAndResent : List Act :=
  [.feed (handshakeFrame 1), .go, .go, .go, .feed (handshakeFrame 2), .go, .go, .go, .pop,
    .feed (handshakeFrame 2), .go, .go, .pop]

/-- That frame is dropped as a repeat although no command with its number
was ever accepted and the queue is empty. -/
theorem repeated_without_delivery :
    narrow.duplicatePolicy = .reject ∧
      ∃ told reached, (start narrow).run refusedAndResent = (told, reached) ∧
        repeatsIn told = [2] ∧
        (pushesIn told).map (fun push => (push.1.sequence, push.2)) =
          [(1, none), (2, some (.queueFull 1))] ∧
        (Queue.accepted (eventsIn told)).map Command.sequence = [1] ∧
        reached.queue.items.length = 0 ∧ reached.queue.hasRoom = true := by
  refine ⟨rfl, _, _, rfl, ?_, ?_, ?_, ?_, ?_⟩
  all_goals decide +kernel

/-- The command before that repeat is the one that the queue refused. -/
theorem repeated_only_of_last_refused :
    narrow.duplicatePolicy = .reject ∧
      ∃ told reached, (start narrow).run refusedAndResent = (told, reached) ∧
        ∃ earlier later, told = earlier ++ .repeated 2 :: later ∧
          ∃ before command, decodedIn earlier = before ++ [command] ∧ command.sequence = 2 ∧
            Handed narrow told reached before.length command := by
  refine ⟨rfl, ((start narrow).run refusedAndResent).1, ((start narrow).run refusedAndResent).2,
    (Prod.eta _).symm, ?_⟩
  have hrepeats : (repeatsIn ((start narrow).run refusedAndResent).1).contains 2 = true := by
    decide +kernel
  obtain ⟨note, hnote, hrepeated⟩ := List.mem_filterMap.mp (List.contains_iff_mem.mp hrepeats)
  obtain ⟨earlier, later, hsplit⟩ := List.append_of_mem hnote
  cases note with
  | repeated sequence =>
    cases hrepeated
    have hlast := (@repeated_only_of_last narrow rfl refusedAndResent).1
    exact ⟨earlier, later, hsplit, hlast earlier 2 later hsplit⟩
  | decoded command => cases hrepeated
  | queue event => cases hrepeated

end Link

end TestRig
