import TestRig.Checksum
import TestRig.Proofs.Ring.View
import Mathlib.Data.Nat.PSub

/-!
# The ring as a bounded list

Behind any run of appends, consumes and clears, a ring is the list of bytes
that the same run makes of a plain list which may not outgrow the capacity.
The answers of the run are those of the list, and all readers of the ring
read the list.

* `Call` is a call that changes a ring, `Ring.run` a run of calls, and
  `runOnList` the same run on a list.
* `segments?` and `fill?` are the two operations that touch spans of cells,
  with every access checked: they fail on a negative difference, on a span
  that leaves the store, and on a copy between spans of different lengths.
  `segments?_eq` and `fill?_eq` say that they never do.
* `Shows` is all that can be read of a ring, in terms of a list.  One call
  keeps it (`Shows.call`), and so does a run (`run_refines`).
-/

namespace TestRig.Ring

/-! ## Calls -/

/-- A call that changes a ring. -/
inductive Call where
  | append (data : Bytes)
  | consume (n : Nat)
  | clear

/-- One call: its answer and the ring behind it.  A refused append leaves
the ring as it is. -/
def call (ring : Ring) : Call → Except Failure Unit × Ring
  | .append data =>
    match ring.append data with
    | .ok after => (.ok (), after)
    | .error failure => (.error failure, ring)
  | .consume n => (.ok (), ring.consume n)
  | .clear => (.ok (), ring.clear)

/-- Several calls one after the other: their answers and the ring behind
them. -/
def run (ring : Ring) : List Call → List (Except Failure Unit) × Ring
  | [] => ([], ring)
  | call :: calls =>
    let (answer, after) := ring.call call
    let (answers, last) := after.run calls
    (answer :: answers, last)

/-- The same call on a list that may not outgrow a capacity. -/
def Call.onList (capacity : Nat) (bytes : Bytes) : Call → Except Failure Unit × Bytes
  | .append data =>
    if bytes.length + data.length ≤ capacity then (.ok (), bytes ++ data)
    else (.error (.bufferFull data.length (capacity - bytes.length)), bytes)
  | .consume n => (.ok (), bytes.drop n)
  | .clear => (.ok (), [])

/-- Several calls on a list. -/
def runOnList (capacity : Nat) (bytes : Bytes) : List Call → List (Except Failure Unit) × Bytes
  | [] => ([], bytes)
  | call :: calls =>
    let (answer, after) := call.onList capacity bytes
    let (answers, last) := runOnList capacity after calls
    (answer :: answers, last)

/-! ## Checked access -/

/-- The cells from a position up to another one, if there are such cells. -/
def slice? (storage : Array UInt8) (start stop : Nat) : Option Bytes :=
  if start ≤ stop ∧ stop ≤ storage.size then some (storage.extract start stop).toList else none

/-- Bytes are copied into the cells from a position up to another one, if
there are such cells, as many as there are bytes. -/
def copyInto? (storage : Array UInt8) (start stop : Nat) (data : Bytes) : Option (Array UInt8) :=
  if start ≤ stop ∧ stop ≤ storage.size ∧ data.length = stop - start then
    some (overwrite storage start data)
  else none

/-- `segments` with every access checked. -/
def segments? (ring : Ring) (n : Nat) : Option (Bytes × Bytes) := do
  let n := min n ring.length
  let room ← Nat.psub ring.capacity ring.read
  let first := min n room
  let rest ← Nat.psub n first
  let head ← slice? ring.storage ring.read (ring.read + first)
  let tail ← slice? ring.storage 0 rest
  return (head, tail)

/-- The store behind an append, with every access checked. -/
def fill? (ring : Ring) (data : Bytes) : Option (Array UInt8) := do
  let write := (ring.read + ring.length) % ring.capacity
  let room ← Nat.psub ring.capacity write
  let first := min data.length room
  let rest ← Nat.psub data.length first
  let storage ← copyInto? ring.storage write (write + first) (data.take first)
  copyInto? storage 0 rest (data.drop first)

theorem segments?_eq (ring : Ring) (n : Nat) : ring.segments? n = some (ring.segments n) := by
  have hread := ring.read_lt
  have hlength := ring.length_le
  have hroom : Nat.psub ring.capacity ring.read = some (ring.capacity - ring.read) :=
    Nat.psub_eq_sub (Nat.le_of_lt hread)
  have hrest : Nat.psub (min n ring.length) (min (min n ring.length) (ring.capacity - ring.read)) =
      some (min n ring.length - min (min n ring.length) (ring.capacity - ring.read)) :=
    Nat.psub_eq_sub (Nat.min_le_left ..)
  simp only [segments?, hroom, hrest, Option.bind_eq_bind, Option.bind_some, slice?]
  rw [if_pos, if_pos]
  · rfl
  · simp only [capacity]
    omega
  · simp only [capacity]
    omega

theorem fill?_eq {ring after : Ring} {data : Bytes} (h : ring.append data = .ok after) :
    ring.fill? data = some after.storage := by
  obtain ⟨storage, read, length, hread, hlength⟩ := ring
  have hwrite := Nat.mod_lt (read + length) (Nat.zero_lt_of_lt hread)
  have hwrap := cell_of_lt hread hlength
  simp only [append] at h
  split_ifs at h with hfits
  cases h
  have hroom : Nat.psub storage.size ((read + length) % storage.size) =
      some (storage.size - (read + length) % storage.size) :=
    Nat.psub_eq_sub (Nat.le_of_lt hwrite)
  have hrest : Nat.psub data.length
      (min data.length (storage.size - (read + length) % storage.size)) =
        some (data.length - min data.length (storage.size - (read + length) % storage.size)) :=
    Nat.psub_eq_sub (Nat.min_le_left ..)
  simp only [fill?, capacity, hroom, hrest, Option.bind_eq_bind, Option.bind_some, copyInto?,
    List.length_take, List.length_drop]
  rw [if_pos (by omega), Option.bind_some, size_overwrite, if_pos (by omega)]

/-! ## The two runs -/

/-- All that can be read of a ring, in terms of its capacity and of a list
of bytes. -/
structure Shows (ring : Ring) (capacity : Nat) (bytes : Bytes) : Prop where
  capacity_eq : ring.capacity = capacity
  toList : ring.toList = bytes
  length : ring.length = bytes.length
  available : Nat.psub capacity bytes.length = some ring.available
  isEmpty : ring.isEmpty = bytes.isEmpty
  read_lt : ring.read < capacity
  length_le : bytes.length ≤ capacity
  /-- A sum of positions stays below twice the capacity. -/
  sum_lt : ring.read + ring.length < 2 * capacity
  peek : ∀ n, ring.peek? n = if n ≤ bytes.length then some (bytes.take n) else none
  byte : ∀ index, ring.at? index = bytes[index]?
  word : ∀ index, ring.word? index = Word.at? bytes index
  /-- The two segments lie within the store, and are a prefix of the list. -/
  segments : ∀ n, ring.segments? n = some (ring.segments n) ∧
    (ring.segments n).1 ++ (ring.segments n).2 = bytes.take (min n bytes.length)
  checksum : ∀ n, Checksum.ofChunks [(ring.segments n).1, (ring.segments n).2] =
    Checksum.ofBytes (bytes.take (min n bytes.length))
  /-- The spans that an append writes lie within the store. -/
  fill : ∀ data after, ring.append data = .ok after → ring.fill? data = some after.storage

theorem shows_toList (ring : Ring) : ring.Shows ring.capacity ring.toList := by
  have hread := ring.read_lt
  have hlength := ring.length_le
  have hlist := ring.length_toList
  have hprefix : ∀ n, (ring.segments n).1 ++ (ring.segments n).2 =
      ring.toList.take (min n ring.toList.length) := by
    intro n
    rw [segments_append, List.take_eq_take_min]
  exact {
    capacity_eq := rfl
    toList := rfl
    length := hlist.symm
    available := by
      rw [hlist]
      exact Nat.psub_eq_sub hlength
    isEmpty := by
      rw [isEmpty, ← hlist]
      cases ring.toList <;> rfl
    read_lt := hread
    length_le := by
      rw [hlist]
      exact hlength
    sum_lt := by
      simp only [capacity]
      omega
    peek := by
      intro n
      rw [peek?, hlist]
      split_ifs with hshort hle hle
      · omega
      · rfl
      · exact congrArg some (ring.segments_append n)
      · omega
    byte := ring.at?_eq
    word := ring.word?_eq
    segments := fun n => ⟨ring.segments?_eq n, hprefix n⟩
    checksum := by
      intro n
      rw [Checksum.ofChunks_eq, List.flatten_cons, List.flatten_singleton, hprefix]
    fill := fun data after h => fill?_eq h }

/-- An append is refused for want of room only, with both numbers. -/
theorem append_eq_error {ring : Ring} {data : Bytes} {failure : Failure}
    (h : ring.append data = .error failure) :
    ring.available < data.length ∧ failure = .bufferFull data.length ring.available := by
  obtain ⟨storage, read, length, hread, hlength⟩ := ring
  simp only [append] at h
  split_ifs at h with hfits
  cases h
  exact ⟨Nat.lt_of_not_le hfits, rfl⟩

/-- One call does to the ring what it does to the list. -/
theorem Shows.call {ring : Ring} {capacity : Nat} {bytes : Bytes}
    (h : ring.Shows capacity bytes) (call : Call) :
    (ring.call call).1 = (call.onList capacity bytes).1 ∧
      (ring.call call).2.Shows capacity (call.onList capacity bytes).2 := by
  obtain rfl := h.capacity_eq
  obtain rfl := h.toList
  cases call with
  | append data =>
    have hlength : ring.length ≤ ring.capacity := ring.length_le
    simp only [Ring.call, Call.onList, length_toList]
    cases happend : ring.append data with
    | ok after =>
      have hfits := append_eq_ok_iff.mp ⟨after, happend⟩
      simp only [Ring.available] at hfits
      rw [if_pos (by omega), ← toList_append happend, ← capacity_append happend]
      exact ⟨rfl, after.shows_toList⟩
    | error failure =>
      obtain ⟨hlarge, rfl⟩ := append_eq_error happend
      simp only [Ring.available] at hlarge
      rw [if_neg (by omega)]
      exact ⟨rfl, ring.shows_toList⟩
  | consume n =>
    have hshows := (ring.consume n).shows_toList
    rw [capacity_consume, toList_consume] at hshows
    exact ⟨rfl, hshows⟩
  | clear =>
    have hshows := ring.clear.shows_toList
    rw [toList_clear] at hshows
    exact ⟨rfl, hshows⟩

theorem Shows.run {ring : Ring} {capacity : Nat} {bytes : Bytes}
    (h : ring.Shows capacity bytes) (calls : List Call) :
    (ring.run calls).1 = (runOnList capacity bytes calls).1 ∧
      (ring.run calls).2.Shows capacity (runOnList capacity bytes calls).2 := by
  induction calls generalizing ring bytes with
  | nil => exact ⟨rfl, h⟩
  | cons call calls ih =>
    obtain ⟨hanswer, hafter⟩ := h.call call
    obtain ⟨hanswers, hlast⟩ := ih hafter
    refine ⟨?_, hlast⟩
    simp only [Ring.run, runOnList, hanswer, hanswers]

/-- A ring is a bounded list.

Take any capacity, where zero counts as one, and any calls.  An append puts
its bytes behind the others if there is room for all of them; else it is
refused with the number of bytes and the room, and nothing changes.  A
consume drops bytes from the front, and a clear drops all.  Every answer,
and everything that can be read behind the run, is that of the list. -/
theorem run_refines (capacity : Nat) (calls : List Call) :
    ((empty capacity).run calls).1 = (runOnList (max capacity 1) [] calls).1 ∧
      ((empty capacity).run calls).2.Shows (max capacity 1)
        (runOnList (max capacity 1) [] calls).2 := by
  have hempty := (empty capacity).shows_toList
  rw [capacity_empty, toList_empty] at hempty
  exact hempty.run calls

/-- A full ring that wraps: seven bytes in two segments, and no room for two
more. -/
example : ((empty 8).run [.append [1, 2, 3, 4, 5, 6], .consume 5,
    .append [7, 8, 9, 10, 11, 12], .append [13, 14]]).2.segments 7 = ([6, 7, 8], [9, 10, 11, 12]) :=
  rfl

end TestRig.Ring
