/-!
# Bytes and big-endian words

A byte string is a list of `UInt8`. This file also holds the two-byte big-endian form of a
16-bit word, which every multi-byte field on the wire uses.

- `Word.toBytes` and `Word.ofBytes` are inverse to each other (`ofBytes_toBytes`,
  `toBytes_ofBytes`).
-/

namespace TestRig

/-- A string of bytes, first byte first. -/
abbrev Bytes := List UInt8

namespace Word

/-- The high byte of a word. -/
def high (word : UInt16) : UInt8 :=
  UInt8.ofNat (word.toNat / 256)

/-- The low byte of a word. -/
def low (word : UInt16) : UInt8 :=
  UInt8.ofNat (word.toNat % 256)

/-- The word whose high and low byte are given. -/
def ofBytes (hi lo : UInt8) : UInt16 :=
  UInt16.ofNat (hi.toNat * 256 + lo.toNat)

/-- A word as two bytes, the high one first. -/
def toBytes (word : UInt16) : Bytes :=
  [high word, low word]

@[simp] theorem length_toBytes (word : UInt16) : (toBytes word).length = 2 := rfl

@[simp] theorem ofBytes_toBytes (word : UInt16) : ofBytes (high word) (low word) = word := by
  have hword := word.toNat_lt
  apply UInt16.toNat.inj
  simp only [ofBytes, high, low, UInt16.toNat_ofNat', UInt8.toNat_ofNat']
  omega

@[simp] theorem high_ofBytes (hi lo : UInt8) : high (ofBytes hi lo) = hi := by
  have hhi := hi.toNat_lt
  have hlo := lo.toNat_lt
  apply UInt8.toNat.inj
  simp only [ofBytes, high, UInt16.toNat_ofNat', UInt8.toNat_ofNat']
  omega

@[simp] theorem low_ofBytes (hi lo : UInt8) : low (ofBytes hi lo) = lo := by
  have hhi := hi.toNat_lt
  have hlo := lo.toNat_lt
  apply UInt8.toNat.inj
  simp only [ofBytes, low, UInt16.toNat_ofNat', UInt8.toNat_ofNat']
  omega

theorem toBytes_ofBytes (hi lo : UInt8) : toBytes (ofBytes hi lo) = [hi, lo] := by
  simp [toBytes]

end Word

end TestRig
