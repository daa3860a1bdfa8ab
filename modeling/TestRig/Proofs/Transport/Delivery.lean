import TestRig.Proofs.Transport.Batch

/-!
# What a sink gets of a batch

A sink may do anything: take a part of an offer, nothing of it, or fail at
an offer or when it passes on what it took.  The log of a sink is what it
was asked, with its answers, so what it was given of a batch can be read
off the log.

* `Exchange` is one question with its answer, and `Sink.logged` is a sink
  that keeps a log.  `offerAll_logged` and `writeBatch_logged` say that the
  log changes nothing else.
* `Stands` is the log of a loop that goes on, with one lemma for each
  exchange without a failure.
* `Ends` ties the log of a whole batch to the answer of the writer;
  `offerAll_ends` follows the loop, and `writeBatch_ends` adds the end.
* `offerAll_fuel` says that the loop ends by itself.
* `writeBatch_delivers` is the result.
-/

namespace TestRig.Transport

variable {σ : Type}

/-! ## Logs -/

/-- What a sink was asked, and what it answered. -/
inductive Exchange where
  | offer (slices : List Bytes) (reply : Reply)
  | flush (answer : Except String Unit)

namespace Exchange

/-- The bytes that the sink took. -/
def taken : Exchange → Bytes
  | offer slices (.took count) => slices.flatten.take count
  | offer _ (.failed _) => []
  | flush _ => []

/-- The sink does its work: it takes a byte of an offer or more, up to all of
it, or it passes on what it took. -/
def Works : Exchange → Prop
  | offer slices (.took count) => 1 ≤ count ∧ count ≤ batchSize slices
  | offer _ (.failed _) => False
  | flush answer => answer = .ok ()

/-- The failure of a sink that takes nothing of an offer, or that fails. -/
def failure? : Exchange → Option Failure
  | offer _ (.took 0) => some nothingTaken
  | offer _ (.took (_ + 1)) => none
  | offer _ (.failed text) => some (.io text)
  | flush (.ok ()) => none
  | flush (.error text) => some (.io text)

def isOffer : Exchange → Bool
  | offer _ _ => true
  | flush _ => false

theorem Works.failure?_eq {exchange : Exchange} (h : exchange.Works) : exchange.failure? = none := by
  match exchange, h with
  | offer _ (.took (_ + 1)), _ => rfl
  | flush _, rfl => rfl

/-- What fails does so with a text, and takes nothing. -/
theorem of_failure? {exchange : Exchange} {failure : Failure}
    (h : exchange.failure? = some failure) :
    exchange.taken = [] ∧ ∃ text, failure = .io text := by
  match exchange, h with
  | offer _ (.took 0), rfl => exact ⟨rfl, _, rfl⟩
  | offer _ (.failed _), rfl => exact ⟨rfl, _, rfl⟩
  | flush (.error _), rfl => exact ⟨rfl, _, rfl⟩

end Exchange

/-- The bytes that a sink took, in order. -/
def takenIn (log : List Exchange) : Bytes :=
  log.flatMap Exchange.taken

/-- Number of offers, those that failed included. -/
def offersIn (log : List Exchange) : Nat :=
  log.countP Exchange.isOffer

theorem takenIn_concat (log : List Exchange) (exchange : Exchange) :
    takenIn (log ++ [exchange]) = takenIn log ++ exchange.taken := by
  simp [takenIn]

theorem offersIn_concat (log : List Exchange) (exchange : Exchange) :
    offersIn (log ++ [exchange]) = offersIn log + if exchange.isOffer then 1 else 0 := by
  simp [offersIn, List.countP_append, List.countP_singleton]

/-- A sink that keeps a log beside its state. -/
def Sink.logged (sink : Sink σ) : Sink (σ × List Exchange) where
  offer slices := fun (state, log) =>
    let (reply, state) := sink.offer slices state
    (reply, state, log ++ [.offer slices reply])
  flush := fun (state, log) =>
    let (answer, state) := sink.flush state
    (answer, state, log ++ [.flush answer])

section Logged

variable (sink : Sink σ) (batch : List Bytes) (state : σ) (log : List Exchange)

theorem Sink.logged_offer (slices : List Bytes) : sink.logged.offer slices (state, log) =
    ((sink.offer slices state).1, (sink.offer slices state).2,
      log ++ [.offer slices (sink.offer slices state).1]) := rfl

theorem Sink.logged_flush : sink.logged.flush (state, log) =
    ((sink.flush state).1, (sink.flush state).2, log ++ [.flush (sink.flush state).1]) := rfl

/-- The log does not change what a loop does. -/
theorem offerAll_logged (fuel written : Nat) :
    let run := offerAll sink.logged batch fuel written (state, log)
    (run.1, run.2.1) = offerAll sink batch fuel written state := by
  induction fuel generalizing written state log with
  | zero => rfl
  | succ fuel ih =>
    rw [offerAll, offerAll, Sink.logged_offer]
    split_ifs
    · rfl
    · rcases sink.offer (remainingSlices batch written) state with ⟨⟨_ | count⟩ | text, after⟩
      · rfl
      · exact ih _ _ _
      · rfl

/-- The log does not change how a batch is written. -/
theorem writeBatch_logged :
    let run := writeBatch sink.logged batch (state, log)
    (run.1, run.2.1) = writeBatch sink batch state := by
  have hloop := offerAll_logged sink batch state log (batchSize batch) 0
  rw [writeBatch, writeBatch, ← hloop]
  split_ifs
  · rfl
  · rcases offerAll sink.logged batch (batchSize batch) 0 (state, log) with ⟨_ | _, after, told⟩
    · rfl
    · dsimp only
      rw [Sink.logged_flush]
      rcases sink.flush after with ⟨_ | _, flushed⟩
      · rfl
      · rfl

end Logged

/-! ## The loop -/

/-- The loop ends by itself: each offer that it survives takes a byte off the
rest, so fuel beyond the size of the rest is not used. -/
theorem offerAll_fuel (sink : Sink σ) (batch : List Bytes) (state : σ) {fuel written : Nat}
    (hfuel : batchSize batch ≤ written + fuel) (extra : Nat) :
    offerAll sink batch (fuel + extra) written state = offerAll sink batch fuel written state := by
  induction fuel generalizing written state with
  | zero =>
    have hall : batchSize batch ≤ written := hfuel
    cases extra with
    | zero => rfl
    | succ extra => simp only [offerAll, if_pos hall]
  | succ fuel ih =>
    rw [Nat.succ_add, offerAll, offerAll]
    split_ifs
    · rfl
    · rcases sink.offer (remainingSlices batch written) state with ⟨⟨_ | count⟩ | text, after⟩
      · rfl
      · exact ih after (by omega)
      · rfl

/-- The log of a loop that goes on: nothing failed, and the sink took the
bytes that were counted as written, with at most one offer for each. -/
structure Stands (batch : List Bytes) (written : Nat) (log : List Exchange) : Prop where
  unfailing : ∀ exchange ∈ log, exchange.failure? = none
  taken : takenIn log = batch.flatten.take written
  offers : offersIn log ≤ written ∧ offersIn log ≤ batchSize batch

/-- What the log of a batch tells about the answer of the writer. -/
inductive Ends (batch : List Bytes) : List Exchange → Except Failure Unit → Prop where
  /-- The whole batch was taken. -/
  | done {written : Nat} {log : List Exchange} (hstands : Stands batch written log)
      (hall : batchSize batch ≤ written) : Ends batch log (.ok ())
  /-- The last exchange failed. -/
  | stopped {written : Nat} {log : List Exchange} (hstands : Stands batch written log)
      {last : Exchange} {failure : Failure} (hfails : last.failure? = some failure)
      (hoffers : offersIn (log ++ [last]) ≤ batchSize batch) :
      Ends batch (log ++ [last]) (.error failure)

namespace Stands

variable {batch : List Bytes} {written : Nat} {log : List Exchange}

theorem start (batch : List Bytes) : Stands batch 0 [] where
  unfailing := nofun
  taken := rfl
  offers := ⟨Nat.le_refl 0, Nat.zero_le _⟩

/-- As long as bytes are left there is room for one more offer. -/
theorem offers_concat (h : Stands batch written log) (hmore : written < batchSize batch)
    (exchange : Exchange) : offersIn (log ++ [exchange]) ≤ written + 1 ∧
      offersIn (log ++ [exchange]) ≤ batchSize batch := by
  have hoffers := h.offers.1
  rw [offersIn_concat]
  split_ifs
  · omega
  · omega

/-- The sink takes a part of what is left. -/
theorem offer (h : Stands batch written log) (hmore : written < batchSize batch) (count : Nat) :
    Stands batch (written + (count + 1))
      (log ++ [.offer (remainingSlices batch written) (.took (count + 1))]) where
  unfailing := List.forall_mem_append.mpr ⟨h.unfailing, List.forall_mem_singleton.mpr rfl⟩
  taken := by
    rw [takenIn_concat, h.taken, List.take_add, Exchange.taken, flatten_remainingSlices]
  offers := by
    obtain ⟨hwritten, hsize⟩ := h.offers_concat hmore
      (.offer (remainingSlices batch written) (.took (count + 1)))
    exact ⟨by omega, hsize⟩

/-- The sink passes on what it took. -/
theorem flush (h : Stands batch written log) : Stands batch written (log ++ [.flush (.ok ())]) where
  unfailing := List.forall_mem_append.mpr ⟨h.unfailing, List.forall_mem_singleton.mpr rfl⟩
  taken := by
    rw [takenIn_concat, Exchange.taken, List.append_nil, h.taken]
  offers := by
    rw [offersIn_concat]
    exact h.offers

end Stands

/-- The loop, from a log that goes on.  The fuel is enough for one byte at a
time, so it runs out only when all bytes are taken. -/
theorem offerAll_ends (sink : Sink σ) {batch : List Bytes} {fuel written : Nat}
    {log : List Exchange} (h : Stands batch written log)
    (hfuel : batchSize batch ≤ written + fuel) (state : σ) :
    let run := offerAll sink.logged batch fuel written (state, log)
    Ends batch run.2.2 run.1 := by
  induction fuel generalizing written state log with
  | zero => exact .done h hfuel
  | succ fuel ih =>
    rw [offerAll]
    split_ifs with hall
    · exact .done h hall
    · have hmore : written < batchSize batch := Nat.lt_of_not_le hall
      rw [Sink.logged_offer]
      -- the sink takes nothing, takes a part, or fails
      rcases sink.offer (remainingSlices batch written) state with ⟨⟨_ | count⟩ | text, after⟩
      · exact .stopped h rfl (h.offers_concat hmore _).2
      · exact ih (h.offer hmore count) (by omega) after
      · exact .stopped h rfl (h.offers_concat hmore _).2

/-! ## The batch -/

/-- A batch is offered from its start and then passed on. -/
theorem writeBatch_ends (sink : Sink σ) (batch : List Bytes) (state : σ) :
    let run := writeBatch sink.logged batch (state, [])
    Ends batch run.2.2 run.1 := by
  rw [writeBatch]
  split_ifs with hempty
  · exact .done (.start batch) (Nat.le_of_eq hempty)
  · have hloop := offerAll_ends sink (.start batch) (Nat.le_add_left _ 0) state
    generalize offerAll sink.logged batch (batchSize batch) 0 (state, []) = run at hloop ⊢
    obtain ⟨result, after, log⟩ := run
    cases hloop with
    | done hstands hall =>
      -- all that is missing is the flush, which may fail as well
      dsimp only
      rw [Sink.logged_flush]
      have hflush := hstands.flush
      rcases sink.flush after with ⟨text | ⟨⟩, flushed⟩
      · refine .stopped hstands rfl ?_
        rw [offersIn_concat]
        exact hstands.offers.2
      · exact .done hflush hall
    | stopped hstands hfails hoffers => exact .stopped hstands hfails hoffers

namespace Ends

variable {batch : List Bytes} {log : List Exchange} {result : Except Failure Unit}

theorem offers_le (h : Ends batch log result) : offersIn log ≤ batchSize batch := by
  cases h with
  | done hstands => exact hstands.offers.2
  | stopped _ _ hoffers => exact hoffers

/-- Without a failure the sink got the batch. -/
theorem whole (h : Ends batch log result) (hnone : ∀ exchange ∈ log, exchange.failure? = none) :
    result = .ok () ∧ takenIn log = batch.flatten := by
  cases h with
  | done hstands hall =>
    rw [batchSize_eq] at hall
    exact ⟨rfl, hstands.taken.trans (List.take_of_length_le hall)⟩
  | stopped _ hfails =>
    rw [hnone _ List.mem_concat_self] at hfails
    cases hfails

/-- A failure is the answer of the writer, and the sink got the front of the
batch. -/
theorem part (h : Ends batch log result) {exchange : Exchange} {failure : Failure}
    (hmem : exchange ∈ log) (hfails : exchange.failure? = some failure) :
    result = .error failure ∧ takenIn log <+: batch.flatten := by
  cases h with
  | done hstands =>
    rw [hstands.unfailing exchange hmem] at hfails
    cases hfails
  | stopped hstands hlast =>
    rcases List.mem_append.mp hmem with hbefore | hend
    · rw [hstands.unfailing exchange hbefore] at hfails
      cases hfails
    · obtain rfl := List.mem_singleton.mp hend
      obtain rfl : _ = failure := Option.some.inj (hlast.symm.trans hfails)
      rw [takenIn_concat, (Exchange.of_failure? hlast).1, List.append_nil, hstands.taken]
      exact ⟨rfl, List.take_prefix _ _⟩

end Ends

/-- What is left of a batch behind any number of bytes is offered without
empty slices and is the rest of the batch; the places at which the frames
start lead to the same slices.  A sink that keeps a log is treated like the
sink itself, the loop over the batch ends by itself, and there are at most
as many offers as bytes.  If the sink takes a part of every offer, the
writer succeeds and the sink got the frames one after the other, each byte
once.  If it takes nothing of an offer, or fails, the writer fails with the
same failure, and the sink got the front of the batch. -/
theorem writeBatch_delivers (sink : Sink σ) (batch : List Bytes) (state : σ) :
    let run := writeBatch sink.logged batch (state, [])
    let log := run.2.2
    (∀ skip, slicesBehind? skip 0 batch = some (remainingSlices batch skip) ∧
      (∀ slice ∈ remainingSlices batch skip, slice ≠ []) ∧
      (remainingSlices batch skip).flatten = batch.flatten.drop skip) ∧
    (run.1, run.2.1) = writeBatch sink batch state ∧
    (∀ fuel, batchSize batch ≤ fuel →
      offerAll sink batch fuel 0 state = offerAll sink batch (batchSize batch) 0 state) ∧
    offersIn log ≤ batch.flatten.length ∧
    ((∀ exchange ∈ log, exchange.Works) → run.1 = .ok () ∧ takenIn log = batch.flatten) ∧
    (∀ exchange ∈ log, ∀ failure, exchange.failure? = some failure →
      run.1 = .error failure ∧ (∃ text, failure = .io text) ∧ takenIn log <+: batch.flatten) := by
  intro run log
  have hends : Ends batch log run.1 := writeBatch_ends sink batch state
  refine ⟨?_, writeBatch_logged sink batch state [], ?_, ?_, ?_, ?_⟩
  · intro skip
    exact ⟨slicesBehind?_eq skip 0 batch, fun _ => ne_nil_of_mem_remainingSlices,
      flatten_remainingSlices batch skip⟩
  · intro fuel hfuel
    obtain ⟨extra, rfl⟩ := Nat.exists_eq_add_of_le hfuel
    exact offerAll_fuel sink batch state (Nat.le_add_left _ 0) extra
  · rw [← batchSize_eq]
    exact hends.offers_le
  · intro hworks
    exact hends.whole fun exchange hmem => (hworks exchange hmem).failure?_eq
  · intro exchange hmem failure hfails
    obtain ⟨hresult, hfront⟩ := hends.part hmem hfails
    exact ⟨hresult, (Exchange.of_failure? hfails).2, hfront⟩

/-- A sink that takes two bytes of each offer gets three frames, one of them
empty, by three offers.  One that takes nothing behind its third byte got
these three. -/
theorem writeBatch_delivers_in_pieces :
    let batch : List Bytes := [[1, 2, 3], [], [4, 5]]
    let whole := writeBatch (SinkScript.sink { limit := some 2 }).logged batch ({}, [])
    let part := writeBatch (SinkScript.sink { limit := some 2, stop := some 3 }).logged batch
      ({}, [])
    whole.2.2 = [.offer [[1, 2, 3], [4, 5]] (.took 2), .offer [[3], [4, 5]] (.took 2),
      .offer [[5]] (.took 1), .flush (.ok ())] ∧
    whole.1 = .ok () ∧ takenIn whole.2.2 = [1, 2, 3, 4, 5] ∧
    part.2.2 = [.offer [[1, 2, 3], [4, 5]] (.took 2), .offer [[3], [4, 5]] (.took 1),
      .offer [[4, 5]] (.took 0)] ∧
    part.1 = .error nothingTaken ∧ takenIn part.2.2 <+: [1, 2, 3, 4, 5] := by
  intro batch whole part
  have hwhole : whole.2.2 = [.offer [[1, 2, 3], [4, 5]] (.took 2), .offer [[3], [4, 5]] (.took 2),
      .offer [[5]] (.took 1), .flush (.ok ())] := rfl
  have hpart : part.2.2 = [.offer [[1, 2, 3], [4, 5]] (.took 2), .offer [[3], [4, 5]] (.took 1),
      .offer [[4, 5]] (.took 0)] := rfl
  have hworks : ∀ exchange ∈ whole.2.2, exchange.Works := by
    rw [hwhole]
    simp [Exchange.Works, batchSize]
  have hlast : Exchange.offer [[4, 5]] (.took 0) ∈ part.2.2 := by
    rw [hpart]
    simp
  obtain ⟨_, _, _, _, hdone, _⟩ :=
    writeBatch_delivers (SinkScript.sink { limit := some 2 }) batch {}
  obtain ⟨_, _, _, _, _, hstopped⟩ :=
    writeBatch_delivers (SinkScript.sink { limit := some 2, stop := some 3 }) batch {}
  obtain ⟨hok, htaken⟩ := hdone hworks
  obtain ⟨herror, -, hfront⟩ := hstopped _ hlast nothingTaken rfl
  exact ⟨hwhole, hok, htaken, hpart, herror, hfront⟩

end TestRig.Transport
