import TestRig.Bytes

/-!
# Frame checksum

The 16-bit cyclic redundancy check with polynomial `x^16 + x^12 + x^5 + 1`, a register that starts
with all bits set, the most significant bit first, and neither reflection nor a final inversion.

- `ofBytes` is the checksum of one byte string and `ofChunks` that of several strings read as one.
- `update_append` and `ofChunks_eq` say that the division into strings does not matter.
-/

namespace TestRig.Checksum

/-- The low sixteen coefficients of the divisor; its leading one is implied. -/
def polynomial : UInt16 := 0x1021

/-- The register before the first byte. -/
def initial : UInt16 := 0xFFFF

/-- Multiplies the register by `x` and reduces it. -/
def shift (register : UInt16) : UInt16 :=
  if register &&& 0x8000 != 0 then (register <<< 1) ^^^ polynomial else register <<< 1

/-- Takes one byte into the register. -/
def absorb (register : UInt16) (byte : UInt8) : UInt16 :=
  Nat.repeat shift 8 (register ^^^ (byte.toUInt16 <<< 8))

/-- Takes a byte string into the register. -/
def update (register : UInt16) (data : Bytes) : UInt16 :=
  data.foldl absorb register

/-- The checksum of a byte string. -/
def ofBytes (data : Bytes) : UInt16 :=
  update initial data

/-- The checksum of several byte strings read as one message. -/
def ofChunks (chunks : List Bytes) : UInt16 :=
  chunks.foldl update initial

@[simp] theorem update_nil (register : UInt16) : update register [] = register := rfl

theorem update_append (register : UInt16) (first second : Bytes) :
    update register (first ++ second) = update (update register first) second := by
  simp [update]

theorem foldl_update (register : UInt16) (chunks : List Bytes) :
    chunks.foldl update register = update register chunks.flatten := by
  induction chunks generalizing register with
  | nil => rfl
  | cons chunk chunks ih => simp [ih, update_append]

theorem ofChunks_eq (chunks : List Bytes) : ofChunks chunks = ofBytes chunks.flatten :=
  foldl_update initial chunks

end TestRig.Checksum
