import TestRig.Link

/-!
# Writing to the transport

Outbound frames are written in batches. A sink takes what is offered to it piece by piece; after a
partial write the rest of the batch is offered again, so that every byte is written once and in
order.

- `remainingSlices` is what is offered after some bytes were taken.
- `writeBatch` writes one batch, `writeSome` takes one batch from a link and writes it, and
  `writeAll` goes on until nothing waits.
-/

namespace TestRig.Transport

/-- The most frames of one batch. -/
def maxBatch : Nat := 64

/-- What a sink answers to an offer. -/
inductive Reply where
  /-- It took so many bytes from the front of the offer. -/
  | took (count : Nat)
  | failed (text : String)
  deriving Repr, DecidableEq, Inhabited

/-- A place to write to, with a state of its own. -/
structure Sink (σ : Type) where
  /-- Offers slices of bytes. -/
  offer : List Bytes → σ → Reply × σ
  /-- Asks for all bytes taken to be passed on; a failure comes with a text. -/
  flush : σ → Except String Unit × σ

/-- The parts of a batch that lie behind its first `skip` bytes, without empty ones. -/
def remainingSlices : (batch : List Bytes) → (skip : Nat) → List Bytes
  | [], _ => []
  | frame :: rest, skip =>
    if skip < frame.length then frame.drop skip :: remainingSlices rest 0
    else remainingSlices rest (skip - frame.length)

/-- The failure of a sink that takes nothing. -/
def nothingTaken : Failure :=
  .io "write_vectored returned 0"

/-- Number of bytes of a batch. -/
def batchSize : (batch : List Bytes) → Nat
  | [] => 0
  | slice :: rest => slice.length + batchSize rest

variable {σ : Type}

/-- Offers what is left of a batch until all of it is taken. Each offer that does not fail takes a
byte, so as much fuel as there are bytes is enough. -/
def offerAll (sink : Sink σ) (batch : List Bytes) :
    (fuel : Nat) → (written : Nat) → σ → Except Failure Unit × σ
  | 0, _, state => (.ok (), state)
  | fuel + 1, written, state =>
    if batchSize batch ≤ written then (.ok (), state)
    else
      match sink.offer (remainingSlices batch written) state with
      | (.failed text, state) => (.error (.io text), state)
      | (.took 0, state) => (.error nothingTaken, state)
      | (.took (count + 1), state) => offerAll sink batch fuel (written + (count + 1)) state

/-- Writes a batch and flushes the sink; an empty batch is not written at all. -/
def writeBatch (sink : Sink σ) (batch : List Bytes) (state : σ) : Except Failure Unit × σ :=
  if batchSize batch = 0 then (.ok (), state)
  else
    match offerAll sink batch (batchSize batch) 0 state with
    | (.ok (), state) =>
      match sink.flush state with
      | (.ok (), state) => (.ok (), state)
      | (.error text, state) => (.error (.io text), state)
    | (.error failure, state) => (.error failure, state)

/-- Where the writer stands between two batches. -/
inductive Progress where
  | batch
  /-- Nothing waits, and nothing more will come. -/
  | ended
  /-- Nothing waits yet. -/
  | idle
  /-- A failure ended the writer. -/
  | failed (failure : Failure)
  deriving Repr, Inhabited

/-- Takes one batch from a link and writes it. -/
def writeSome (sink : Sink σ) (link : Link) (state : σ) : Progress × Link × σ :=
  match link.nextOutbound with
  | (.ended, link) => (.ended, link, state)
  | (.waiting, link) => (.idle, link, state)
  | (.item first, link) =>
    let (others, link) := link.takeFrames (maxBatch - 1)
    match writeBatch sink (first :: others) state with
    | (.ok (), state) => (.batch, link, state)
    | (.error failure, state) => (.failed failure, link, state)

/-- Writes batches up to the first stop. -/
def writeLoop (sink : Sink σ) : (fuel : Nat) → Link → σ → Progress × Link × σ
  | 0, link, state => (.idle, link, state)
  | fuel + 1, link, state =>
    match writeSome sink link state with
    | (.batch, link, state) => writeLoop sink fuel link state
    | stop => stop

/-- Writes all that waits. Each batch takes a frame, so the number of frames bounds the batches. -/
def writeAll (sink : Sink σ) (link : Link) (state : σ) : Progress × Link × σ :=
  writeLoop sink (link.outbound.length + 1) link state

end TestRig.Transport
