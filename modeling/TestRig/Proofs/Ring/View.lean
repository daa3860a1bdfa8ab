import TestRig.Ring
import Mathlib.Tactic.SplitIfs

/-!
# The ring as a list

`Ring.toList` shows a ring as the list of its buffered bytes.  This file
says what every operation of the ring does to that list, so that no later
proof looks at the cells.

* Cells.  `cell_of_lt` removes the wrap from a position, and
  `getElem?_overwrite` says which cell a write reaches.
* Readers.  `getElem?_toList` and `length_toList` pin the list down;
  `at?_eq`, `word?_eq` and `segments_append` read the other readers off it.
* Writers.  `toList_empty`, `toList_clear`, `toList_consume` and
  `toList_append` are the four operations, and `append_eq_ok_iff` says
  when an append succeeds.
-/

namespace TestRig

/-- The big-endian word at a place of a byte string. -/
def Word.at? (data : Bytes) (index : Nat) : Option UInt16 := do
  let hi ← data[index]?
  let lo ← data[index + 1]?
  return Word.ofBytes hi lo

namespace Ring

/-! ## Cells -/

/-- A position at most one revolution behind the read position wraps at
most once. -/
theorem cell_of_lt {read offset size : Nat} (hread : read < size) (hoffset : offset ≤ size) :
    (read + offset) % size =
      if read + offset < size then read + offset else read + offset - size := by
  split_ifs with h
  · exact Nat.mod_eq_of_lt h
  · rw [Nat.mod_eq_sub_mod (by omega), Nat.mod_eq_of_lt (by omega)]

/-- A write reaches the cells from its position on, as many as there are
bytes, and leaves the others alone. -/
theorem getElem?_overwrite (storage : Array UInt8) (position : Nat) (data : Bytes) (i : Nat) :
    (overwrite storage position data)[i]? =
      if position ≤ i ∧ i < position + data.length ∧ i < storage.size then data[i - position]?
      else storage[i]? := by
  induction data generalizing storage position with
  | nil =>
    rw [overwrite, if_neg]
    simp only [List.length_nil]
    omega
  | cons byte rest ih =>
    rw [overwrite, ih, Array.size_setIfInBounds, Array.getElem?_setIfInBounds]
    simp only [List.length_cons]
    by_cases hi : position = i
    · subst hi
      rw [if_neg (by omega), if_pos rfl]
      split_ifs with h1 h2 h2
      · simp
      · omega
      · omega
      · rw [Array.getElem?_eq_none (by omega)]
    · rw [if_neg hi]
      split_ifs with h1 h2 h2
      · rw [show i - position = (i - (position + 1)) + 1 by omega, List.getElem?_cons_succ]
      · omega
      · omega
      · rfl

/-! ## Readers -/

/-- The two segments of the oldest `n` bytes, end to end, cell by cell. -/
theorem getElem?_segments (ring : Ring) (n i : Nat) :
    ((ring.segments n).1 ++ (ring.segments n).2)[i]? =
      if i < min n ring.length then ring.storage[(ring.read + i) % ring.capacity]? else none := by
  have hread := ring.read_lt
  have hlength := ring.length_le
  simp only [segments, capacity]
  rw [List.getElem?_append]
  simp only [Array.length_toList, Array.size_extract, Array.getElem?_toList, Array.getElem?_extract]
  by_cases hi : i < min n ring.length
  · rw [if_pos hi, cell_of_lt hread (by omega)]
    by_cases hwrap : ring.read + i < ring.storage.size
    · rw [if_pos (by omega), if_pos (by omega), if_pos hwrap]
    · rw [if_neg (by omega), if_pos (by omega), if_neg hwrap]
      congr 1
      omega
  · rw [if_neg hi]
    split_ifs with h1 h2
    · omega
    · omega
    · rfl

theorem getElem?_toList (ring : Ring) (i : Nat) :
    ring.toList[i]? =
      if i < ring.length then ring.storage[(ring.read + i) % ring.capacity]? else none := by
  rw [toList, getElem?_segments, Nat.min_self]

@[simp] theorem length_toList (ring : Ring) : ring.toList.length = ring.length := by
  have hread := ring.read_lt
  have hlength := ring.length_le
  simp only [toList, segments, capacity, List.length_append, Array.length_toList,
    Array.size_extract]
  omega

/-- The segments of the oldest `n` bytes are a prefix of the list. -/
theorem segments_append (ring : Ring) (n : Nat) :
    (ring.segments n).1 ++ (ring.segments n).2 = ring.toList.take n := by
  apply List.ext_getElem?
  intro i
  rw [getElem?_segments, List.getElem?_take, getElem?_toList]
  split_ifs with h1 h2 h3 h2 h3
  · rfl
  · omega
  · omega
  · omega
  · rfl
  · rfl

theorem at?_eq (ring : Ring) (index : Nat) : ring.at? index = ring.toList[index]? := by
  rw [at?, getElem?_toList]
  split
  · exact (Array.getElem?_eq_getElem _).symm
  · rfl

theorem word?_eq (ring : Ring) (index : Nat) :
    ring.word? index = Word.at? ring.toList index := by
  simp only [word?, Word.at?, at?_eq]

/-! ## Writers -/

@[simp] theorem toList_empty (n : Nat) : (empty n).toList = [] :=
  List.eq_nil_of_length_eq_zero (length_toList _)

@[simp] theorem capacity_empty (n : Nat) : (empty n).capacity = max n 1 := by
  simp [capacity, empty]

@[simp] theorem toList_clear (ring : Ring) : ring.clear.toList = [] :=
  List.eq_nil_of_length_eq_zero (length_toList _)

@[simp] theorem capacity_consume (ring : Ring) (n : Nat) :
    (ring.consume n).capacity = ring.capacity := by
  unfold consume
  split <;> rfl

theorem toList_consume (ring : Ring) (n : Nat) :
    (ring.consume n).toList = ring.toList.drop n := by
  have hread := ring.read_lt
  have hlength := ring.length_le
  unfold consume
  split
  · rename_i hall
    rw [toList_clear, List.drop_eq_nil_of_le (by rw [length_toList]; exact hall)]
  · rename_i hpart
    apply List.ext_getElem?
    intro i
    rw [List.getElem?_drop, getElem?_toList, getElem?_toList]
    simp only [capacity]
    split_ifs with h1 h2 h2
    · rw [Nat.mod_add_mod, Nat.add_assoc]
    · omega
    · omega
    · rfl

/-- An append succeeds exactly if the bytes fit. -/
theorem append_eq_ok_iff {ring : Ring} {data : Bytes} :
    (∃ after, ring.append data = .ok after) ↔ data.length ≤ ring.available := by
  obtain ⟨storage, read, length, hread, hlength⟩ := ring
  simp only [append, available, capacity]
  split_ifs with h
  · exact ⟨fun _ => h, fun _ => ⟨_, rfl⟩⟩
  · constructor
    · rintro ⟨after, hafter⟩
      cases hafter
    · intro hfits
      exact absurd hfits h

theorem capacity_append {ring after : Ring} {data : Bytes} (h : ring.append data = .ok after) :
    after.capacity = ring.capacity := by
  obtain ⟨storage, read, length, hread, hlength⟩ := ring
  simp only [append] at h
  split_ifs at h with hfits
  cases h
  simp [capacity]

/-- An append puts the bytes behind the buffered ones.  The old bytes stay
where they are, because the two written spans and the buffered span share
no cell. -/
theorem toList_append {ring after : Ring} {data : Bytes} (h : ring.append data = .ok after) :
    after.toList = ring.toList ++ data := by
  obtain ⟨storage, read, length, hread, hlength⟩ := ring
  simp only [append] at h
  split_ifs at h with hfits
  cases h
  apply List.ext_getElem?
  intro i
  rw [List.getElem?_append, length_toList, getElem?_toList, getElem?_toList]
  simp only [capacity, size_overwrite]
  have hwrite := cell_of_lt hread hlength
  by_cases hold : i < length
  · have hcell := cell_of_lt hread (Nat.le_trans (Nat.le_of_lt hold) hlength)
    rw [if_pos (by omega), if_pos hold, if_pos hold, getElem?_overwrite, if_neg,
      getElem?_overwrite, if_neg]
    · rw [hwrite, hcell, List.length_take]
      split_ifs <;> omega
    · rw [hwrite, hcell, List.length_drop]
      split_ifs <;> omega
  · rw [if_neg hold]
    by_cases hnew : i < length + data.length
    · have hcell := cell_of_lt hread (show i ≤ storage.size by omega)
      rw [if_pos hnew, getElem?_overwrite, getElem?_overwrite, size_overwrite, hwrite, hcell,
        List.length_drop, List.length_take, List.getElem?_drop, List.getElem?_take]
      split_ifs <;> first | omega | (congr 1; omega)
    · rw [if_neg hnew, List.getElem?_eq_none (by omega)]

end Ring

end TestRig
