import TestRig.Codec
import TestRig.Queue

/-!
# Link

A link joins the protocol to two queues: decoded commands go to the command queue, and encoded
frames wait in an outbound queue for the transport, which drops the oldest one when it is full.

- `Link.feed` takes inbound bytes. A push that has to wait stops it; `Feeding` is what is left to do
  then, and `Link.resume` goes on with it.
- `Link.sendAck`, `Link.sendReport` and `Link.sendRaw` queue outbound frames.
-/

namespace TestRig

/-- The commands that wait for dispatch. -/
abbrev CommandQueue := Queue Command

/-- One connection to the host. -/
structure Link where
  /-- Both directions of the protocol. -/
  codec : Codec
  /-- Encoded frames that wait for the transport. -/
  outbound : Queue Bytes

/-- What is left to do of a feed. -/
structure Feeding where
  /-- Decoded commands that are not yet queued. -/
  commands : List Command := []
  /-- Bytes that are not yet decoded. -/
  bytes : Bytes
  queued : Nat := 0

/-- How a feed comes to a stop. -/
inductive Fed where
  /-- All bytes were taken. -/
  | finished (queued : Nat)
  /-- A failure ended the feed; what was left of it is lost. -/
  | failed (failure : Failure)
  /-- A push has to wait. -/
  | blocked (feeding : Feeding)

namespace Link

/-- A link as the settings ask for it. -/
def ofConfig (config : Config) : Link :=
  ⟨.ofConfig config, .empty config.outboundCapacity .dropOldest⟩

instance : Inhabited Link := ⟨ofConfig {}⟩

/-- Counters of the decoder. -/
def stats (link : Link) : DecoderStats :=
  link.codec.decoder.stats

/-- Number of frames that wait for the transport. -/
def pendingOutbound (link : Link) : Nat :=
  link.outbound.length

/-! ## Inbound -/

/-- Queues decoded commands in order. One that a full queue refuses is lost; any other failure ends
the feed. -/
def queueCommands (bytes : Bytes) :
    (commands : List Command) → (queued : Nat) → CommandQueue → Fed × CommandQueue
  | [], queued, queue => (.finished queued, queue)
  | command :: rest, queued, queue =>
    match queue.push command with
    | (.accepted _, queue) => queueCommands bytes rest (queued + 1) queue
    | (.refused (.queueFull _), queue) => queueCommands bytes rest queued queue
    | (.refused failure, queue) => (.failed failure, queue)
    | (.waiting, queue) => (.blocked ⟨command :: rest, bytes, queued⟩, queue)

/-- A ring that decoding could not make room in is given up. -/
def makeRoom (decoder : Decoder) : Decoder :=
  if decoder.available = 0 then decoder.reset else decoder

/-- Decodes as many bytes as the ring has room for; the commands found, and the bytes left. -/
def decodeSome (decoder : Decoder) (bytes : Bytes) :
    Except Failure (List Command × Bytes) × Decoder :=
  let decoder := makeRoom decoder
  let count := min decoder.available bytes.length
  match decoder.receive (bytes.take count) with
  | .ok (outcomes, decoder) =>
    (.ok (outcomes.filterMap Outcome.command?, bytes.drop count), decoder)
  | .error failure => (.error failure, decoder)

/-- Decodes and queues in turns until no bytes are left. Each turn takes a byte, so as much fuel as
there are bytes is enough. -/
def feedLoop : (fuel : Nat) → Bytes → (queued : Nat) → Link → CommandQueue →
    Fed × Link × CommandQueue
  | 0, _, queued, link, queue => (.finished queued, link, queue)
  | fuel + 1, bytes, queued, link, queue =>
    if bytes.isEmpty then (.finished queued, link, queue)
    else
      match decodeSome link.codec.decoder bytes with
      | (.error failure, decoder) =>
        (.failed failure, { link with codec := { link.codec with decoder } }, queue)
      | (.ok (commands, bytes), decoder) =>
        let link := { link with codec := { link.codec with decoder } }
        match queueCommands bytes commands queued queue with
        | (.finished queued, queue) => feedLoop fuel bytes queued link queue
        | (fed, queue) => (fed, link, queue)

/-- Goes on with a feed. -/
def resume (feeding : Feeding) (link : Link) (queue : CommandQueue) : Fed × Link × CommandQueue :=
  match queueCommands feeding.bytes feeding.commands feeding.queued queue with
  | (.finished queued, queue) => feedLoop feeding.bytes.length feeding.bytes queued link queue
  | (fed, queue) => (fed, link, queue)

/-- Takes inbound bytes and queues every command that they complete. More bytes than the ring has
room for are taken in slices. -/
def feed (bytes : Bytes) (link : Link) (queue : CommandQueue) : Fed × Link × CommandQueue :=
  resume { bytes } link queue

/-! ## Outbound -/

/-- Queues a frame for the transport. -/
def enqueue (link : Link) (frame : Bytes) : Except Failure Unit × Link :=
  match link.outbound.push frame with
  | (.refused failure, outbound) => (.error failure, { link with outbound })
  | (_, outbound) => (.ok (), { link with outbound })

/-- Queues the acknowledgement of the command with a sequence number. -/
def sendAck (link : Link) (response : Response) (sequence : UInt16) : Except Failure Unit × Link :=
  match link.codec.encoder.encodeResponse response sequence with
  | .ok frame => link.enqueue frame
  | .error failure => (.error failure, link)

/-- Queues a report under the next report number. -/
def sendReport (link : Link) (response : Response) : Except Failure Unit × Link :=
  match link.codec.encoder.encodeReport response with
  | .ok (frame, encoder) => { link with codec := { link.codec with encoder } }.enqueue frame
  | .error failure => (.error failure, link)

/-- Queues content of the caller's own, if it is a document. -/
def sendRaw (link : Link) (content : Bytes) (sequence : UInt16) : Except Failure Unit × Link :=
  match link.codec.encoder.encodeFrame content sequence with
  | .ok frame => link.enqueue frame
  | .error failure => (.error failure, link)

/-- Queues content of the caller's own several times, under sequence numbers that rise from the
given one, up to the first failure. -/
def sendRawTimes (link : Link) (content : Bytes) :
    (times : Nat) → (sequence : UInt16) → Except Failure Link
  | 0, _ => .ok link
  | times + 1, sequence =>
    match link.sendRaw content sequence with
    | (.ok (), link) => link.sendRawTimes content times (sequence + 1)
    | (.error failure, _) => .error failure

/-- Takes the next outbound frame, if there is one. -/
def drain (link : Link) : Option Bytes × Link :=
  let (frame, outbound) := link.outbound.tryPop
  (frame, { link with outbound })

/-- Takes the next outbound frame, or waits for one while the link is open. It looks for a frame
first, and only if there is none it asks whether the link is closed. These are two steps, with no
lock around them; here nothing comes in between. -/
def nextOutbound (link : Link) : Popped Bytes × Link :=
  match link.drain with
  | (some frame, link) => (.item frame, link)
  | (none, link) => (if link.outbound.closed then .ended else .waiting, link)

/-- Takes no more outbound frames. -/
def close (link : Link) : Link :=
  { link with outbound := link.outbound.close }

/-- Takes up to `count` outbound frames. -/
def takeFrames : (count : Nat) → Link → List Bytes × Link
  | 0, link => ([], link)
  | count + 1, link =>
    match link.drain with
    | (none, link) => ([], link)
    | (some frame, link) =>
      let (frames, link) := takeFrames count link
      (frame :: frames, link)

/-- Takes all outbound frames. -/
def takeAll (link : Link) : List Bytes × Link :=
  link.takeFrames link.outbound.length

/-- One line that shows the state of a link. -/
def describe (link : Link) : String :=
  "Link \x7b decoder: " ++ link.codec.describe ++ ", outbound: " ++ link.outbound.describe ++
    " \x7d"

end Link

end TestRig
