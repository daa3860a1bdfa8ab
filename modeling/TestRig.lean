import TestRig.Drill.Jobs
import TestRig.Executor.Stock
import TestRig.Frame.Parts
import TestRig.Station.Serve
import TestRig.Proofs.Decoder.Scanner
import TestRig.Proofs.Decoder.Step
import TestRig.Proofs.Decoder.Run
import TestRig.Proofs.Decoder.Chunking
import TestRig.Proofs.Json.Edges
import TestRig.Proofs.Decoder.RoundTrip
import TestRig.Proofs.Decoder.Resync
import TestRig.Proofs.Decoder.Repeats
import TestRig.Proofs.Queue.Conservation
import TestRig.Proofs.Link.Feeding
import TestRig.Proofs.Link.Slicing
import TestRig.Proofs.Link.Journal
import TestRig.Proofs.Link.Duplicates
import TestRig.Proofs.Dispatcher.Generations
import TestRig.Proofs.Dispatcher.Registries
import TestRig.Proofs.Dispatcher.Whereabouts
import TestRig.Proofs.Dispatcher.Account
import TestRig.Proofs.Dispatcher.Places
import TestRig.Proofs.Dispatcher.Calls
import TestRig.Proofs.Dispatcher.Bookkeeping
import TestRig.Proofs.Registry.Routes
import TestRig.Proofs.Dispatcher.Acknowledgements
import TestRig.Proofs.Json.Reading
import TestRig.Proofs.Link.Outbound
import TestRig.Proofs.Codec.Responses
import TestRig.Proofs.Link.Numbering
import TestRig.Proofs.Pool.Account
import TestRig.Proofs.Dispatcher.Settling
import TestRig.Proofs.Dispatcher.Stopping
import TestRig.Proofs.Station.Reachable
import TestRig.Proofs.Station.Shutdown
import TestRig.Proofs.Codec.Consumption
import TestRig.Proofs.Decoder.Framed
import TestRig.Proofs.Checksum.Polynomial
import TestRig.Proofs.Decoder.Corruption
import TestRig.Proofs.Transport.Batch
import TestRig.Proofs.Transport.Task
import TestRig.Proofs.Decoder.Stages
import TestRig.Proofs.Ring.Refinement
import TestRig.Proofs.Registry.History
import TestRig.Proofs.Token.Descent
import TestRig.Proofs.Checksum.Remainder
import TestRig.Proofs.Transport.Delivery
