import TestRig.Station.Basic
import TestRig.Transport.Reader
import TestRig.Transport.Script

/-!
# Serving a transport

A station reads from a source and writes to a sink until the source ends. The link is closed then,
and what still waits is written. If both sides fail, the failure of the source is told.
-/

namespace TestRig

open Transport (Piece SinkRecord SinkScript Progress)

/-- A station at work on a sink. -/
structure Serving where
  station : Station
  record : SinkRecord := {}
  /-- The failure that ended the writer. -/
  failure : Option Failure := none

namespace Serving

/-- Feeds the station. -/
def feed (bytes : Bytes) (serving : Serving) : Except Failure Nat × Serving :=
  let (result, station) := serving.station.feed bytes
  (result, { serving with station })

/-- Writes what waits, unless the writer has failed. -/
def write (script : SinkScript) (serving : Serving) : Serving :=
  match serving.failure with
  | some _ => serving
  | none =>
    match Transport.writeAll script.sink serving.station.link serving.record with
    | (.failed failure, link, record) =>
      { station := serving.station.withLink link, record, failure := some failure }
    | (_, link, record) => { serving with station := serving.station.withLink link, record }

/-- Closes the link and writes the rest. -/
def finish (script : SinkScript) (serving : Serving) : Serving :=
  { serving with station := serving.station.withLink serving.station.link.close }.write script

end Serving

/-- Serves a scripted source and sink. The writer works whenever the source is held back. -/
def Station.serve (station : Station) (pieces : List Piece) (script : SinkScript) :
    Except Failure Unit × Serving :=
  let reads := Transport.reads station.config.readBufferSize pieces
  let (result, _, serving) :=
    Transport.readLoop Serving.feed (fun _ serving => serving.write script) reads 0 { station }
  let serving := serving.finish script
  match result, serving.failure with
  | .error failure, _ => (.error failure, serving)
  | .ok (), some failure => (.error failure, serving)
  | .ok (), none => (.ok (), serving)

end TestRig
