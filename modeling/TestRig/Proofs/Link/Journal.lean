import TestRig.Proofs.Link.Feeding
import TestRig.Proofs.Queue.Conservation

/-!
# The journal of a link

A feed decodes some of its bytes, pushes the commands found in them one by
one, and goes on with the bytes that are left.  Others pop from the command
queue meanwhile, between any two of these steps.

* `Session` is a link with its command queue and a feed that is under way.
* `Session.go` is one step of the feed, `Session.act` also starts a feed or
  pops, and `Session.run` is a list of such acts.  What they tell is the
  journal: what the decoder found, what became of each push, and what left
  the queue.
* `leads_resume` and `run_feed` say that the feeds of a link are made of these
  steps.
-/

namespace TestRig

namespace Link

/-- An entry of the journal. -/
inductive Note where
  /-- A frame became a command. -/
  | decoded (command : Command)
  /-- A frame was dropped because it repeats a sequence number. -/
  | repeated (sequence : UInt16)
  | queue (event : Queue.Event Command)

namespace Note

/-- What the journal says of an outcome of the decoder. -/
def ofOutcome? : Outcome → Option Note
  | .success command => some (.decoded command)
  | .retry (.duplicate sequence) => some (.repeated sequence)
  | _ => none

/-- The command of a frame. -/
def decoded? : Note → Option Command
  | decoded command => some command
  | _ => none

/-- The sequence number of a frame that was dropped as a repeat. -/
def repeated? : Note → Option UInt16
  | repeated sequence => some sequence
  | _ => none

/-- What happened to the command queue. -/
def event? : Note → Option (Queue.Event Command)
  | queue event => some event
  | _ => none

end Note

/-- The commands decoded, in order. -/
def decodedIn (told : List Note) : List Command :=
  told.filterMap Note.decoded?

/-- The sequence numbers of the repeats, in order. -/
def repeatsIn (told : List Note) : List UInt16 :=
  told.filterMap Note.repeated?

/-- What happened to the command queue, in order. -/
def eventsIn (told : List Note) : List (Queue.Event Command) :=
  told.filterMap Note.event?

@[simp] theorem decodedIn_append (first second : List Note) :
    decodedIn (first ++ second) = decodedIn first ++ decodedIn second :=
  List.filterMap_append ..

@[simp] theorem repeatsIn_append (first second : List Note) :
    repeatsIn (first ++ second) = repeatsIn first ++ repeatsIn second :=
  List.filterMap_append ..

@[simp] theorem eventsIn_append (first second : List Note) :
    eventsIn (first ++ second) = eventsIn first ++ eventsIn second :=
  List.filterMap_append ..

/-! ## Sessions -/

/-- What the decoder finds in a turn of a feed. -/
def decodeNotes (decoder : Decoder) (bytes : Bytes) : List Note :=
  let decoder := makeRoom decoder
  match decoder.receive (bytes.take (min decoder.available bytes.length)) with
  | .ok (outcomes, _) => outcomes.filterMap Note.ofOutcome?
  | .error _ => []

/-- What the journal says of the sightings of a turn. -/
def notesOf (trace : List Sighting) : List Note :=
  (trace.map Sighting.outcome).filterMap Note.ofOutcome?

theorem notesOf_cons (sighting : Sighting) (trace : List Sighting) :
    notesOf (sighting :: trace) =
      (Note.ofOutcome? sighting.outcome).toList ++ notesOf trace := by
  rw [notesOf, List.map_cons, List.filterMap_cons]
  cases Note.ofOutcome? sighting.outcome <;> rfl

/-- The decoder finds commands and repeats only. -/
theorem eventsIn_notesOf (trace : List Sighting) : eventsIn (notesOf trace) = [] := by
  induction trace with
  | nil => rfl
  | cons sighting rest ih =>
    rw [notesOf_cons, eventsIn_append, ih, List.append_nil]
    obtain ⟨outcome, span⟩ := sighting
    rcases outcome with _ | _ | ⟨_ | _ | _ | _⟩ | _ <;> rfl

/-- The commands in the journal are those that the turn hands on. -/
theorem decodedIn_notesOf (trace : List Sighting) :
    decodedIn (notesOf trace) = commandsIn trace := by
  induction trace with
  | nil => rfl
  | cons sighting rest ih =>
    rw [notesOf_cons, decodedIn_append, ih, commandsIn, commandsIn, List.map_cons,
      List.filterMap_cons]
    obtain ⟨outcome, span⟩ := sighting
    rcases outcome with _ | _ | ⟨_ | _ | _ | _⟩ | _ <;> rfl

/-- The journal is written of the same bytes that the turn decodes. -/
theorem decodeNotes_eq {decoder after : Decoder} {bytes : Bytes} {trace : List Sighting}
    (hroom : 0 < decoder.available)
    (hreceive : decoder.receive (bytes.take decoder.available) =
      .ok (trace.map Sighting.outcome, after)) :
    decodeNotes decoder bytes = notesOf trace := by
  unfold decodeNotes
  dsimp only
  rw [makeRoom_eq_self hroom, ← List.take_eq_take_min, hreceive]
  rfl

/-- A link, the queue behind it, and how far its last feed has come. -/
structure Session where
  link : Link
  queue : CommandQueue
  fed : Fed

namespace Session

/-- A link and a queue as the settings ask for them. -/
def start (config : Config) : Session :=
  ⟨.ofConfig config, .empty config.queueCapacity config.overflowPolicy, .finished 0⟩

/-- The feed pushes the next command. -/
def push (session : Session) (command : Command) (rest : List Command) (bytes : Bytes)
    (queued : Nat) : List Note × Session :=
  match session.queue.push command with
  | (.accepted evicted, queue) =>
    ((Queue.Event.ofPushed command (.accepted evicted)).map .queue,
      { session with queue, fed := .blocked ⟨rest, bytes, queued + 1⟩ })
  | (.refused (.queueFull capacity), queue) =>
    ([.queue (.refused command (.queueFull capacity))],
      { session with queue, fed := .blocked ⟨rest, bytes, queued⟩ })
  | (.refused failure, queue) =>
    ([.queue (.refused command failure)], { session with queue, fed := .failed failure })
  | (.waiting, queue) => ([], { session with queue })

/-- The feed decodes as many bytes as the ring has room for, or comes to its
end. -/
def decode (session : Session) (bytes : Bytes) (queued : Nat) : List Note × Session :=
  if bytes.isEmpty then ([], { session with fed := .finished queued })
  else
    match decodeSome session.link.codec.decoder bytes with
    | (.ok (commands, left), decoder) =>
      (decodeNotes session.link.codec.decoder bytes,
        { session with
          link := session.link.withDecoder decoder, fed := .blocked ⟨commands, left, queued⟩ })
    | (.error failure, decoder) =>
      ([], { session with link := session.link.withDecoder decoder, fed := .failed failure })

/-- One step of the feed, if one is under way. -/
def go (session : Session) : List Note × Session :=
  match session.fed with
  | .blocked ⟨command :: rest, bytes, queued⟩ => session.push command rest bytes queued
  | .blocked ⟨[], bytes, queued⟩ => session.decode bytes queued
  | _ => ([], session)

/-- Somebody takes a command from the queue, without waiting for one. -/
def pop (session : Session) : List Note × Session :=
  match session.queue.tryPop with
  | (some command, queue) => ([.queue (.popped command)], { session with queue })
  | (none, queue) => ([.queue .nothing], { session with queue })

/-- What can be done in a session. -/
inductive Act where
  /-- The next feed is called.  While one is under way nobody calls it. -/
  | feed (bytes : Bytes)
  | go
  | pop

/-- What an act tells, and the session behind it. -/
def act (session : Session) : Act → List Note × Session
  | .feed bytes =>
    match session.fed with
    | .blocked _ => ([], session)
    | _ => ([], { session with fed := .blocked { bytes } })
  | .go => session.go
  | .pop => session.pop

/-- The journal of a list of acts, and the session behind them. -/
def run (session : Session) : List Act → List Note × Session
  | [] => ([], session)
  | act :: rest =>
    ((session.act act).1 ++ ((session.act act).2.run rest).1, ((session.act act).2.run rest).2)

theorem run_append (session : Session) (first second : List Act) :
    session.run (first ++ second) =
      ((session.run first).1 ++ ((session.run first).2.run second).1,
        ((session.run first).2.run second).2) := by
  induction first generalizing session with
  | nil => rfl
  | cons act rest ih =>
    rw [List.cons_append, run, run, ih, List.append_assoc]

/-- The commands that the feed has decoded and not yet pushed. -/
def pending (session : Session) : List Command :=
  match session.fed with
  | .blocked feeding => feeding.commands
  | _ => []

/-! ## Feeds are made of steps -/

/-- Some steps of the feed lead from one session to another. -/
def Leads (session last : Session) : Prop :=
  ∃ count, (session.run (List.replicate count .go)).2 = last

theorem Leads.refl (session : Session) : session.Leads session :=
  ⟨0, rfl⟩

theorem Leads.go {session next last : Session} (hgo : session.go.2 = next)
    (h : next.Leads last) : session.Leads last := by
  obtain ⟨count, hrun⟩ := h
  refine ⟨count + 1, ?_⟩
  rw [List.replicate_succ, run, ← hrun, ← hgo]
  rfl

theorem Leads.trans {first middle last : Session} (h : first.Leads middle)
    (h' : middle.Leads last) : first.Leads last := by
  obtain ⟨count, hrun⟩ := h
  obtain ⟨count', hrun'⟩ := h'
  refine ⟨count + count', ?_⟩
  rw [List.replicate_add, run_append, hrun, hrun']

/-- The session that a feed leaves behind. -/
def ofFed (result : Fed × Link × CommandQueue) : Session :=
  ⟨result.2.1, result.2.2, result.1⟩

/-- The step that pushes a command goes on with the rest, or ends the feed or
stops it, as queueing the commands does. -/
theorem go_cases (link : Link) (queue : CommandQueue) (command : Command)
    (rest : List Command) (bytes : Bytes) (queued : Nat) :
    (∃ queue' queued',
      (go ⟨link, queue, .blocked ⟨command :: rest, bytes, queued⟩⟩).2 =
        ⟨link, queue', .blocked ⟨rest, bytes, queued'⟩⟩ ∧
      queueCommands bytes (command :: rest) queued queue =
        queueCommands bytes rest queued' queue') ∨
      ∃ queue' fed,
        (go ⟨link, queue, .blocked ⟨command :: rest, bytes, queued⟩⟩).2 = ⟨link, queue', fed⟩ ∧
        queueCommands bytes (command :: rest) queued queue = (fed, queue') ∧
        ∀ total, fed ≠ .finished total := by
  unfold go push
  rw [queueCommands]
  dsimp only
  generalize queue.push command = result
  obtain ⟨pushed, after⟩ := result
  cases pushed with
  | accepted evicted => exact .inl ⟨after, queued + 1, rfl, rfl⟩
  | refused failure =>
    cases failure with
    | queueFull capacity => exact .inl ⟨after, queued, rfl, rfl⟩
    | _ => exact .inr ⟨after, _, rfl, rfl, fun _ h => by cases h⟩
  | waiting => exact .inr ⟨after, _, rfl, rfl, fun _ h => by cases h⟩

/-- The steps that push what is decoded. -/
theorem leads_queueCommands (link : Link) (queue : CommandQueue) (bytes : Bytes)
    (commands : List Command) (queued : Nat) :
    (∃ queue' queued',
      Leads ⟨link, queue, .blocked ⟨commands, bytes, queued⟩⟩
        ⟨link, queue', .blocked ⟨[], bytes, queued'⟩⟩ ∧
      queueCommands bytes commands queued queue = (.finished queued', queue')) ∨
      ∃ queue' fed,
        Leads ⟨link, queue, .blocked ⟨commands, bytes, queued⟩⟩ ⟨link, queue', fed⟩ ∧
        queueCommands bytes commands queued queue = (fed, queue') ∧
        ∀ total, fed ≠ .finished total := by
  induction commands generalizing queue queued with
  | nil => exact .inl ⟨queue, queued, .refl _, rfl⟩
  | cons command rest ih =>
    rcases go_cases link queue command rest bytes queued with
      ⟨queue', queued', hgo, hqueue⟩ | ⟨queue', fed, hgo, hqueue, hends⟩
    · rw [hqueue]
      rcases ih queue' queued' with ⟨last, total, hleads, hrest⟩ | ⟨last, fed, hleads, hrest, hends⟩
      · exact .inl ⟨last, total, .go hgo hleads, hrest⟩
      · exact .inr ⟨last, fed, .go hgo hleads, hrest, hends⟩
    · exact .inr ⟨queue', fed, .go hgo (.refl _), hqueue, hends⟩

/-- The turns of a feed, from where nothing is left to push. -/
theorem leads_feedLoop {link : Link} (hwaiting : link.Waiting) (queue : CommandQueue)
    {fuel : Nat} {bytes : Bytes} (hfuel : bytes.length ≤ fuel) (queued : Nat) :
    Leads ⟨link, queue, .blocked ⟨[], bytes, queued⟩⟩
      (ofFed (feedLoop fuel bytes queued link queue)) := by
  have hended : ∀ {link : Link} {queue : CommandQueue} {queued : Nat},
      Leads ⟨link, queue, .blocked ⟨[], [], queued⟩⟩ ⟨link, queue, .finished queued⟩ := by
    intro link queue queued
    exact .go rfl (.refl _)
  induction fuel generalizing link queue bytes queued with
  | zero =>
    obtain rfl : bytes = [] := List.eq_nil_of_length_eq_zero (Nat.le_zero.mp hfuel)
    exact hended
  | succ fuel ih =>
    rw [feedLoop]
    rcases bytes with _ | ⟨byte, rest⟩
    · exact hended
    · obtain ⟨hroom, trace, after, _, hdecode, hfollows, hafter⟩ :=
        decodeSome_follows hwaiting.1 hwaiting.2 (byte :: rest)
      have hshorter : ((byte :: rest).drop link.codec.decoder.available).length ≤ fuel := by
        rw [List.length_drop]
        rw [List.length_cons] at hfuel ⊢
        omega
      have hgo : (go ⟨link, queue, .blocked ⟨[], byte :: rest, queued⟩⟩).2 =
          ⟨link.withDecoder after, queue, .blocked ⟨commandsIn trace,
            (byte :: rest).drop link.codec.decoder.available, queued⟩⟩ := by
        unfold go decode
        simp only [hdecode, List.isEmpty_cons, Bool.false_eq_true, if_false]
      rw [List.isEmpty_cons, if_neg Bool.false_ne_true, hdecode]
      refine .go hgo ?_
      dsimp only
      rcases leads_queueCommands (link.withDecoder after) queue
        ((byte :: rest).drop link.codec.decoder.available) (commandsIn trace) queued with
        ⟨queue', queued', hleads, hqueue⟩ | ⟨queue', fed, hleads, hqueue, hends⟩
      · rw [hqueue]
        exact hleads.trans (ih ⟨hfollows.sound, hafter⟩ queue' hshorter queued')
      · rw [hqueue]
        cases fed with
        | finished total => exact absurd rfl (hends total)
        | failed failure => exact hleads
        | blocked feeding => exact hleads

/-- A feed that was stopped goes on by steps. -/
theorem leads_resume {link : Link} (hwaiting : link.Waiting) (queue : CommandQueue)
    (feeding : Feeding) :
    Leads ⟨link, queue, .blocked feeding⟩ (ofFed (link.resume feeding queue)) := by
  obtain ⟨commands, bytes, queued⟩ := feeding
  unfold resume
  rcases leads_queueCommands link queue bytes commands queued with
    ⟨queue', queued', hleads, hqueue⟩ | ⟨queue', fed, hleads, hqueue, hends⟩
  · simp only [hqueue]
    exact hleads.trans (leads_feedLoop hwaiting queue' (Nat.le_refl _) queued')
  · simp only [hqueue]
    cases fed with
    | finished total => exact absurd rfl (hends total)
    | failed failure => exact hleads
    | blocked feeding => exact hleads

/-- The acts of a feed that is called when none is under way. -/
theorem run_feed_cons {session : Session} (hidle : ∀ feeding, session.fed ≠ .blocked feeding)
    (bytes : Bytes) (acts : List Act) :
    session.run (.feed bytes :: acts) =
      run ⟨session.link, session.queue, .blocked { bytes }⟩ acts := by
  have hact : session.act (.feed bytes) =
      ([], ⟨session.link, session.queue, .blocked { bytes }⟩) := by
    unfold act
    cases hfed : session.fed with
    | blocked feeding => exact absurd hfed (hidle feeding)
    | finished queued => rfl
    | failed failure => rfl
  rw [run, hact]
  rfl

/-- A feed of the link is such a list of acts. -/
theorem run_feed {session : Session} (hwaiting : session.link.Waiting)
    (hidle : ∀ feeding, session.fed ≠ .blocked feeding) (bytes : Bytes) :
    ∃ count, (session.run (.feed bytes :: List.replicate count .go)).2 =
      ofFed (session.link.feed bytes session.queue) := by
  obtain ⟨count, hrun⟩ := leads_resume hwaiting session.queue { bytes }
  refine ⟨count, ?_⟩
  rw [run_feed_cons hidle, hrun]
  rfl

end Session

end Link

end TestRig
