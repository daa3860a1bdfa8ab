import TestRig.Frame.Header
import TestRig.Json.Meaning

/-!
# Frame content

The content of a frame is the text of one document. Older stations put a marker byte before it, and
some pad it with zero bytes; both are dropped before the text is read.
-/

namespace TestRig.Frame

/-- The content without one leading marker byte. -/
def dropMarker : Bytes → Bytes
  | [] => []
  | byte :: rest => if byte = legacyMarker then rest else byte :: rest

/-- The content without trailing zero bytes. -/
def dropPadding (content : Bytes) : Bytes :=
  (content.reverse.dropWhile (· == 0)).reverse

/-- The document in the content of a frame. -/
def document? (content : Bytes) : Option Json.Value :=
  Json.Value.ofBytes? (dropPadding (dropMarker content))

end TestRig.Frame
