import TestRig.Link

/-!
# Reading from the transport

What a source delivers, read by read, and the loop that feeds it to a link until it ends.

- `reads` cuts scripted pieces to the size of the read buffer.
- `readLoop` works on any state that can be fed; `readLink` is the loop for a link on its own.
-/

namespace TestRig.Transport

/-- A scripted piece of a source. -/
inductive Piece where
  /-- Bytes; none at all are the end of the source. -/
  | bytes (data : Bytes)
  /-- A failure with a text. -/
  | failure (text : String)
  /-- The next read is held back until the sink was asked so many times. -/
  | hold (writes : Nat)
  deriving Repr, Inhabited

/-- What one read brings. -/
inductive Read where
  /-- One byte or more. -/
  | data (bytes : Bytes)
  /-- The end of the source. -/
  | ended
  /-- A failure with a text. -/
  | failed (text : String)
  /-- Nothing until the sink was asked so many times; it is not a read of its own. -/
  | held (writes : Nat)
  deriving Repr, Inhabited

/-- Bytes in pieces of a size; the fuel bounds their number. -/
def cut (size : Nat) : (fuel : Nat) → Bytes → List Bytes
  | 0, _ => []
  | fuel + 1, data =>
    if data.isEmpty then [] else data.take size :: cut size fuel (data.drop size)

/-- The reads that scripted pieces give with a buffer of a size. Behind the last piece the source
ends. -/
def reads (bufferSize : Nat) : List Piece → List Read
  | [] => [.ended]
  | .bytes data :: rest =>
    if data.isEmpty then .ended :: reads bufferSize rest
    else (cut (max bufferSize 1) data.length data).map .data ++ reads bufferSize rest
  | .failure text :: rest => .failed text :: reads bufferSize rest
  | .hold writes :: rest => .held writes :: reads bufferSize rest

variable {σ : Type}

/-- Feeds what is read to a state until the source ends or fails; a command queue that is closed
ends the loop as well. The answer comes with the number of reads made. -/
def readLoop (feed : Bytes → σ → Except Failure Nat × σ) (hold : Nat → σ → σ) :
    List Read → (count : Nat) → σ → Except Failure Unit × Nat × σ
  | [], count, state => (.ok (), count, state)
  | .ended :: _, count, state => (.ok (), count + 1, state)
  | .failed text :: _, count, state => (.error (.io text), count + 1, state)
  | .held writes :: rest, count, state => readLoop feed hold rest count (hold writes state)
  | .data bytes :: rest, count, state =>
    match feed bytes state with
    | (.ok _, state) => readLoop feed hold rest (count + 1) state
    | (.error .queueClosed, state) => (.ok (), count + 1, state)
    | (.error failure, state) => (.error failure, count + 1, state)

/-- Feeds a link and its command queue. A push that has to wait ends the feed; nobody is there to
make room. -/
def feedLink (bytes : Bytes) : Link × CommandQueue → Except Failure Nat × Link × CommandQueue
  | (link, queue) =>
    match link.feed bytes queue with
    | (.finished queued, link, queue) => (.ok queued, link, queue)
    | (.failed failure, link, queue) => (.error failure, link, queue)
    | (.blocked feeding, link, queue) => (.ok feeding.queued, link, queue)

/-- The loop for a link on its own. -/
def readLink (bufferSize : Nat) (pieces : List Piece) (link : Link) (queue : CommandQueue) :
    Except Failure Unit × Nat × Link × CommandQueue :=
  readLoop feedLink (fun _ state => state) (reads bufferSize pieces) 0 (link, queue)

end TestRig.Transport
