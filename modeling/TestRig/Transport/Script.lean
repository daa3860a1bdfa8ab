import TestRig.Transport.Writer

/-!
# Scripted sinks

A sink that takes a limited number of bytes from each offer and a limited number in all, and keeps a
record of what it was asked.
-/

namespace TestRig.Transport

/-- The limits of a scripted sink. -/
structure SinkScript where
  /-- The most bytes taken from one offer. -/
  limit : Option Nat := none
  /-- The most bytes taken in all. -/
  stop : Option Nat := none
  /-- The failure of an offer beyond that; without one such an offer is taken with no bytes. -/
  error : Option String := none
  deriving Repr, DecidableEq, Inhabited

/-- An offer and what was taken of it. -/
structure Call where
  slices : Nat
  offered : Nat
  taken : Nat
  deriving Repr, DecidableEq, Inhabited

/-- What a scripted sink was asked and took. The lists have the latest entry first. -/
structure SinkRecord where
  /-- The bytes taken, by offer. -/
  pieces : List Bytes := []
  size : Nat := 0
  /-- The offers that did not fail. -/
  calls : List Call := []
  /-- Number of offers, failed ones included. -/
  offers : Nat := 0
  flushes : Nat := 0
  deriving Repr, DecidableEq, Inhabited

namespace SinkRecord

/-- All bytes taken, in order. -/
def written (record : SinkRecord) : Bytes :=
  record.pieces.reverse.flatten

/-- A record with one more offer of which some bytes were taken. -/
def take (record : SinkRecord) (slices : List Bytes) (count : Nat) : SinkRecord :=
  { record with
    pieces := slices.flatten.take count :: record.pieces
    size := record.size + count
    calls := ⟨slices.length, batchSize slices, count⟩ :: record.calls
    offers := record.offers + 1 }

end SinkRecord

namespace SinkScript

/-- The number of bytes that a script lets be taken of an offer. -/
def allowance (script : SinkScript) (offered : Nat) (record : SinkRecord) : Nat :=
  let left := (script.stop.map (· - record.size)).getD offered
  min offered (min (script.limit.getD offered) left)

/-- The sink has taken all that it ever will. -/
def isSpent (script : SinkScript) (record : SinkRecord) : Bool :=
  match script.stop with
  | some stop => stop ≤ record.size
  | none => false

/-- The sink of a script. -/
def sink (script : SinkScript) : Sink SinkRecord where
  offer slices record :=
    match script.isSpent record, script.error with
    | true, some text => (.failed text, { record with offers := record.offers + 1 })
    | _, _ =>
      let count := script.allowance (batchSize slices) record
      (.took count, record.take slices count)
  flush record := (.ok (), { record with flushes := record.flushes + 1 })

end SinkScript

end TestRig.Transport
