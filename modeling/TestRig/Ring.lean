import TestRig.Bytes
import TestRig.Failure

/-!
# Byte ring

A ring of fixed capacity that collects inbound bytes. It never grows: an append that does not fit is
refused as a whole. The position of the next write is derived from the read position and the length.

- `Ring.toList` is the view of a ring as the list of its buffered bytes.
-/

namespace TestRig

/-- A circular store of bytes, the position of the oldest one and their number. -/
structure Ring where
  /-- The cells; their number is the capacity. -/
  storage : Array UInt8
  /-- Position of the oldest buffered byte. -/
  read : Nat
  /-- Number of buffered bytes. -/
  length : Nat
  read_lt : read < storage.size
  length_le : length ≤ storage.size

namespace Ring

/-- Capacity of a ring for which none is asked. -/
def defaultCapacity : Nat := 4096

/-- The empty ring of a capacity; zero counts as one. -/
def empty (capacity : Nat) : Ring where
  storage := Array.replicate (max capacity 1) 0
  read := 0
  length := 0
  read_lt := by
    rw [Array.size_replicate]
    omega
  length_le := Nat.zero_le _

instance : Inhabited Ring := ⟨empty defaultCapacity⟩

/-- Number of cells. -/
def capacity (ring : Ring) : Nat :=
  ring.storage.size

/-- Number of free cells. -/
def available (ring : Ring) : Nat :=
  ring.capacity - ring.length

/-- The ring holds nothing. -/
def isEmpty (ring : Ring) : Bool :=
  ring.length == 0

theorem capacity_pos (ring : Ring) : 0 < ring.capacity :=
  Nat.lt_of_le_of_lt (Nat.zero_le _) ring.read_lt

/-- Writes bytes into consecutive cells from a position on. -/
def overwrite (storage : Array UInt8) (position : Nat) : Bytes → Array UInt8
  | [] => storage
  | byte :: rest => overwrite (storage.setIfInBounds position byte) (position + 1) rest

@[simp] theorem size_overwrite (storage : Array UInt8) (position : Nat) (data : Bytes) :
    (overwrite storage position data).size = storage.size := by
  induction data generalizing storage position with
  | nil => rfl
  | cons byte rest ih => simp [overwrite, ih]

/-- Appends all of the bytes, or none if they do not fit. They fill the cells up to the end of the
store and go on at its start. -/
def append (ring : Ring) (data : Bytes) : Except Failure Ring :=
  match ring with
  | ⟨storage, read, length, read_lt, length_le⟩ =>
    let count := data.length
    if fits : count ≤ storage.size - length then
      let write := (read + length) % storage.size
      let first := min count (storage.size - write)
      .ok {
        storage := overwrite (overwrite storage write (data.take first)) 0 (data.drop first)
        read := read
        length := length + count
        read_lt := by simpa using read_lt
        length_le := by simp; omega }
    else
      .error (.bufferFull count (storage.size - length))

/-- Empties the ring and starts again at the first cell. -/
def clear (ring : Ring) : Ring where
  storage := ring.storage
  read := 0
  length := 0
  read_lt := ring.capacity_pos
  length_le := Nat.zero_le _

/-- Drops the oldest `n` bytes; dropping all of them or more clears the ring. -/
def consume (ring : Ring) (n : Nat) : Ring :=
  if ring.length ≤ n then
    ring.clear
  else
    { storage := ring.storage
      read := (ring.read + n) % ring.storage.size
      length := ring.length - n
      read_lt := Nat.mod_lt _ ring.capacity_pos
      length_le := Nat.le_trans (Nat.sub_le _ _) ring.length_le }

/-- The byte at an offset from the oldest one. -/
def at? (ring : Ring) (index : Nat) : Option UInt8 :=
  if index < ring.length then
    have inside := Nat.mod_lt (ring.read + index) ring.capacity_pos
    some (getElem ring.storage ((ring.read + index) % ring.capacity) inside)
  else
    none

/-- The big-endian word at an offset from the oldest byte. -/
def word? (ring : Ring) (index : Nat) : Option UInt16 := do
  let hi ← ring.at? index
  let lo ← ring.at? (index + 1)
  return Word.ofBytes hi lo

/-- The oldest `n` bytes, or all if there are fewer, as the part up to the end of the store and the
part from its start. -/
def segments (ring : Ring) (n : Nat) : Bytes × Bytes :=
  let n := min n ring.length
  let first := min n (ring.capacity - ring.read)
  ((ring.storage.extract ring.read (ring.read + first)).toList,
    (ring.storage.extract 0 (n - first)).toList)

/-- The oldest `n` bytes; `none` if there are fewer. -/
def peek? (ring : Ring) (n : Nat) : Option Bytes :=
  if ring.length < n then
    none
  else
    let (head, tail) := ring.segments n
    some (head ++ tail)

/-- All buffered bytes, oldest first. -/
def toList (ring : Ring) : Bytes :=
  (ring.segments ring.length).1 ++ (ring.segments ring.length).2

/-- One line that shows the state of a ring. -/
def describe (ring : Ring) : String :=
  s!"RingBuffer \x7b capacity: {ring.capacity}, read: {ring.read}, len: {ring.length} \x7d"

end Ring

end TestRig
