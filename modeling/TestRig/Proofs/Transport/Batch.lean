import TestRig.Transport.Script
import Mathlib.Tactic.SplitIfs

/-!
# Writing a batch

A sink may take less than it is offered.  What is offered next starts
behind the bytes that were taken, so the sink gets the bytes of the batch
one after the other, whatever the cuts between its frames.

* `flatten_remainingSlices` says what is offered after some bytes were
  taken, and `slicesBehind?_eq` that the places at which the frames start
  lead to the same slices.
* `Reliable` is a sink that takes a byte of every offer and never fails.
* `offerAll_reliable` follows the loop, and `writeBatch_reliable` says that
  such a sink gets the whole batch.
-/

namespace TestRig.Transport

/-! ## Slices -/

theorem batchSize_eq (batch : List Bytes) : batchSize batch = batch.flatten.length := by
  induction batch with
  | nil => rfl
  | cons slice rest ih => rw [batchSize, ih, List.flatten_cons, List.length_append]

/-- The slices that are left are the bytes of the batch behind those that
were taken. -/
theorem flatten_remainingSlices (batch : List Bytes) (skip : Nat) :
    (remainingSlices batch skip).flatten = batch.flatten.drop skip := by
  induction batch generalizing skip with
  | nil => rw [remainingSlices, List.flatten_nil, List.drop_nil]
  | cons frame rest ih =>
    rw [remainingSlices, List.flatten_cons, List.drop_append]
    split_ifs with hinside
    · have hnone : skip - frame.length = 0 := by omega
      rw [List.flatten_cons, ih, hnone]
    · rw [ih, List.drop_of_length_le (Nat.le_of_not_lt hinside), List.nil_append]

/-- No slice that is left is empty. -/
theorem ne_nil_of_mem_remainingSlices {batch : List Bytes} {skip : Nat} {slice : Bytes}
    (h : slice ∈ remainingSlices batch skip) : slice ≠ [] := by
  induction batch generalizing skip with
  | nil => cases h
  | cons frame rest ih =>
    rw [remainingSlices] at h
    split_ifs at h with hinside
    · rcases List.mem_cons.mp h with rfl | hrest
      · rw [Ne, List.drop_eq_nil_iff]
        omega
      · exact ih hrest
    · exact ih h

/-- The slices that are left, told by the places in the batch at which its
frames start: a frame that ends behind the bytes that were taken is cut at
the distance of these bytes from its start.  A cut outside its frame is a
failure. -/
def slicesBehind? (skip : Nat) : (start : Nat) → (batch : List Bytes) → Option (List Bytes)
  | _, [] => some []
  | start, frame :: rest =>
    if skip < start + frame.length ∧ ¬ frame.isEmpty then
      if skip - start ≤ frame.length then
        (slicesBehind? skip (start + frame.length) rest).map (frame.drop (skip - start) :: ·)
      else none
    else slicesBehind? skip (start + frame.length) rest

/-- No cut is outside its frame.  What is left of a batch that starts at some
place is what is left behind the bytes taken from that place on. -/
theorem slicesBehind?_eq (skip start : Nat) (batch : List Bytes) :
    slicesBehind? skip start batch = some (remainingSlices batch (skip - start)) := by
  induction batch generalizing start with
  | nil => rfl
  | cons frame rest ih =>
    have hcuts : skip < start + frame.length ∧ ¬ frame.isEmpty ↔ skip - start < frame.length := by
      rw [List.isEmpty_iff, ← List.length_eq_zero_iff]
      omega
    rw [slicesBehind?, remainingSlices, ih]
    simp only [hcuts]
    split_ifs with hinside hrange
    · -- the taken bytes end before the end of this frame, so later ones are whole
      have hnone : skip - (start + frame.length) = 0 := by omega
      rw [hnone]
      rfl
    · omega
    · rw [Nat.sub_sub]

/-! ## Reliable sinks -/

variable {σ : Type}

/-- A sink that takes at least one byte of every offer and never fails.
`taken` is the bytes that it has taken, in order. -/
structure Reliable (sink : Sink σ) (taken : σ → Bytes) : Prop where
  offer : ∀ slices state, slices.flatten ≠ [] →
    ∃ count after, sink.offer slices state = (.took count, after) ∧ 0 < count ∧
      count ≤ batchSize slices ∧ taken after = taken state ++ slices.flatten.take count
  flush : ∀ state, ∃ after, sink.flush state = (.ok (), after) ∧ taken after = taken state

variable {sink : Sink σ} {taken : σ → Bytes}

/-- The loop goes on until the sink has taken the rest of the batch. -/
theorem offerAll_reliable (h : Reliable sink taken) (batch : List Bytes) {fuel written : Nat}
    (hwritten : written ≤ batchSize batch) (hfuel : batchSize batch ≤ written + fuel)
    (state : σ) :
    ∃ after, offerAll sink batch fuel written state = (.ok (), after) ∧
      taken after = taken state ++ batch.flatten.drop written := by
  have hsize := batchSize_eq batch
  have hdone : ∀ {count}, batchSize batch ≤ count → batch.flatten.drop count = [] := by
    intro count hall
    exact List.drop_of_length_le (hsize ▸ hall)
  induction fuel generalizing written state with
  | zero =>
    refine ⟨state, rfl, ?_⟩
    rw [hdone (by omega), List.append_nil]
  | succ fuel ih =>
    rw [offerAll]
    split_ifs with hall
    · refine ⟨state, rfl, ?_⟩
      rw [hdone hall, List.append_nil]
    · have hslices := flatten_remainingSlices batch written
      have hleft : (remainingSlices batch written).flatten ≠ [] := by
        rw [hslices, Ne, List.drop_eq_nil_iff]
        omega
      obtain ⟨count, middle, hoffer, hpos, hle, hmiddle⟩ :=
        h.offer (remainingSlices batch written) state hleft
      rw [batchSize_eq, hslices, List.length_drop] at hle
      obtain ⟨more, rfl⟩ := Nat.exists_eq_succ_of_ne_zero (Nat.ne_of_gt hpos)
      have hnext : written + (more + 1) ≤ batchSize batch := by omega
      obtain ⟨after, hoffers, hafter⟩ := ih hnext (by omega) middle
      refine ⟨after, ?_, ?_⟩
      · rw [hoffer]
        exact hoffers
      · rw [hafter, hmiddle, hslices, List.append_assoc, ← List.drop_drop, List.take_append_drop]

/-- A reliable sink gets the bytes of a batch, all of them and in order. -/
theorem writeBatch_reliable (h : Reliable sink taken) (batch : List Bytes) (state : σ) :
    ∃ after, writeBatch sink batch state = (.ok (), after) ∧
      taken after = taken state ++ batch.flatten := by
  rw [writeBatch]
  split_ifs with hempty
  · rw [batchSize_eq, List.length_eq_zero_iff] at hempty
    refine ⟨state, rfl, ?_⟩
    rw [hempty, List.append_nil]
  · obtain ⟨after, hoffers, hafter⟩ :=
      offerAll_reliable h batch (Nat.zero_le _) (Nat.le_add_left _ 0) state
    obtain ⟨flushed, hflush, hsame⟩ := h.flush after
    refine ⟨flushed, ?_, ?_⟩
    · rw [hoffers]
      dsimp only
      rw [hflush]
    · rw [hsame, hafter, List.drop_zero]

/-- A scripted sink that only limits the bytes of one offer is reliable. -/
theorem SinkScript.reliable {limit : Nat} (hpos : 0 < limit) :
    Reliable (SinkScript.sink { limit := some limit }) SinkRecord.written where
  offer slices record hslices := by
    have hsize : 0 < batchSize slices := by
      rw [batchSize_eq]
      exact List.length_pos_iff.mpr hslices
    refine ⟨min (batchSize slices) (min limit (batchSize slices)), _, rfl, by omega, by omega, ?_⟩
    simp [SinkRecord.written, SinkRecord.take, allowance]
  flush _ := ⟨_, rfl, rfl⟩

end TestRig.Transport
