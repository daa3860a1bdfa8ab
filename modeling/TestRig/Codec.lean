import TestRig.Decoder.Basic
import TestRig.Encoder

/-!
# Both directions of the protocol

A decoder for what comes in beside an encoder for what goes out. Neither reads or changes the other.
-/

namespace TestRig

/-- The two directions of one connection. -/
structure Codec where
  decoder : Decoder
  encoder : Encoder

namespace Codec

/-- Both directions before the first byte. -/
def fresh (capacity : Nat) (policy : DuplicatePolicy) (legacyMarker : Bool) : Codec :=
  ⟨.fresh capacity policy, { legacyMarker }⟩

/-- Both directions as the settings ask for them. -/
def ofConfig (config : Config) : Codec :=
  fresh config.ringCapacity config.duplicatePolicy config.legacyContentMarker

instance : Inhabited Codec := ⟨ofConfig {}⟩

/-- One line that shows the state of both directions. -/
def describe (codec : Codec) : String :=
  let last := match codec.decoder.lastSequence with
    | some sequence => s!"Some({sequence})"
    | none => "None"
  s!"FrameDecoder \x7b ring: {codec.decoder.ring.describe}, state: \"" ++
    codec.decoder.stateName ++ "\", last_sequence: " ++ last ++
    s!", report_sequence: {codec.encoder.reportSequence} \x7d"

end Codec

end TestRig
