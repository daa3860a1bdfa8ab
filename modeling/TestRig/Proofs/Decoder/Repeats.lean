import TestRig.Proofs.Decoder.Resync
import Mathlib.Data.List.Chain

/-!
# The two policies for repeats

Two decoders receive the same pieces; one of them accepts repeats, and the
other one rejects them.  They consume the same bytes step by step, and tell
the same but for frames that repeat the last sequence number.

* `withoutRepeats` is a list of commands without those that repeat the
  number of the command just before them.
* `Paired` ties the two decoders to each other.  Each stage of a step keeps
  it, and `Beside` says what the two tell of the step.
* `Lockstep` is two runs step by step; `policies_differ_by_repeats` is read
  off it.
-/

namespace TestRig

open Frame (Header commandIn? assemble)

/-! ## Commands without repeats -/

/-- The commands of a list that do not repeat the sequence number of the
command just before them.  `last` is the number before the list. -/
def withoutRepeats (last : Option UInt16) : List Command → List Command
  | [] => []
  | command :: rest =>
    if last = some command.sequence then withoutRepeats (some command.sequence) rest
    else command :: withoutRepeats (some command.sequence) rest

theorem isChain_withoutRepeats (last : Option UInt16) (commands : List Command) :
    (∀ first ∈ (withoutRepeats last commands).head?, last ≠ some first.sequence) ∧
      (withoutRepeats last commands).IsChain fun first second =>
        first.sequence ≠ second.sequence := by
  induction commands generalizing last with
  | nil =>
    refine ⟨?_, .nil⟩
    intro first hfirst
    cases hfirst
  | cons command rest ih =>
    obtain ⟨hnext, hchain⟩ := ih (some command.sequence)
    rw [withoutRepeats]
    split
    · rename_i hlast
      rw [hlast]
      exact ⟨hnext, hchain⟩
    · rename_i hlast
      refine ⟨?_, List.isChain_cons.mpr ⟨?_, hchain⟩⟩
      · intro first hfirst
        cases hfirst
        exact hlast
      · intro second hsecond hequal
        exact hnext second hsecond (congrArg some hequal)

/-- Frames with the right checksum. -/
def DecoderStats.settled (stats : DecoderStats) : Nat :=
  stats.framesDecoded + stats.undecodableFrames + stats.duplicatesDropped

/-- The outcome is the verdict on a frame with the right checksum. -/
def Outcome.isVerdict : Outcome → Bool
  | success _ | retry (.duplicate _) | retry .undecodableContent => true
  | _ => false

namespace Decoder

/-! ## Two decoders side by side -/

/-- Two decoders with the same bytes, one for each policy. -/
structure Paired (accepting rejecting : Decoder) : Prop where
  ring : rejecting.ring = accepting.ring
  announced : rejecting.announced = accepting.announced
  last : rejecting.lastSequence = accepting.lastSequence
  accepts : accepting.duplicatePolicy = .accept
  rejects : rejecting.duplicatePolicy = .reject
  settled : rejecting.stats.settled = accepting.stats.settled

/-- What the two tell of one step.  `last` is the number of the last command
before it. -/
inductive Tells (last : Option UInt16) : Outcome → Outcome → Prop where
  /-- They agree, and a command does not repeat the last number. -/
  | same (outcome : Outcome)
      (hnew : ∀ command, outcome = .success command → last ≠ some command.sequence) :
      Tells last outcome outcome
  | repeated (command : Command) (hlast : last = some command.sequence) :
      Tells last (.success command) (.retry (.duplicate command.sequence))
  /-- The content of the repeat is not a command, but only one of them has
  looked at it. -/
  | unread (sequence : UInt16) (hlast : last = some sequence) :
      Tells last (.retry .undecodableContent) (.retry (.duplicate sequence))

/-- Two results of a step, side by side. -/
structure Beside (last : Option UInt16) (step step' : Outcome × Decoder) : Prop where
  tells : Tells last step.1 step'.1
  paired : Paired step.2 step'.2
  last : step.2.lastSequence = step.1.lastAfter last

/-- An outcome that is no command, on both sides. -/
theorem Tells.of_command? {outcome : Outcome} (h : outcome.command? = none)
    (last : Option UInt16) : Tells last outcome outcome := by
  refine .same outcome ?_
  rintro command rfl
  cases h

section Stages

variable {accepting rejecting : Decoder} {header : Header}

/-- The rejecting decoder differs from the accepting one in its policy and
its counters. -/
theorem Paired.eq (h : Paired accepting rejecting) :
    rejecting = { accepting with duplicatePolicy := .reject, stats := rejecting.stats } := by
  obtain ⟨ring, announced, policy, last, stats⟩ := rejecting
  obtain ⟨hring, hannounced, hlast, _, hrejects, _⟩ := h
  dsimp only at hring hannounced hlast hrejects
  rw [hring, hannounced, hlast, hrejects]

/-- Both drop the same bytes. -/
theorem Paired.discard (h : Paired accepting rejecting) {stats stats' : DecoderStats}
    (hsettled : stats'.settled = stats.settled) (count : Nat) :
    Paired ({ accepting with stats := stats }.discard count)
      ({ rejecting with stats := stats' }.discard count) where
  ring := by
    show rejecting.ring.consume _ = accepting.ring.consume _
    rw [h.ring]
  announced := h.announced
  last := h.last
  accepts := h.accepts
  rejects := h.rejects
  settled := hsettled

theorem Paired.beside_discard (h : Paired accepting rejecting) {outcome : Outcome}
    (hcommand : outcome.command? = none) {stats stats' : DecoderStats}
    (hsettled : stats'.settled = stats.settled) (count : Nat) :
    Beside accepting.lastSequence
      (outcome, { accepting with stats := stats }.discard count)
      (outcome, { rejecting with stats := stats' }.discard count) where
  tells := .of_command? hcommand _
  paired := h.discard hsettled count
  last := (lastAfter_of_command? hcommand _).symm

theorem Paired.isDuplicate_iff (h : Paired accepting rejecting) :
    rejecting.isDuplicate header = true ↔ accepting.lastSequence = some header.sequence := by
  simp [isDuplicate, h.rejects, h.last]

/-- A frame with the right checksum: the two differ if it is a repeat. -/
theorem Paired.accept (h : Paired accepting rejecting)
    (hall : header.frameLength ≤ accepting.ring.length) :
    Beside accepting.lastSequence (accepting.accept header) (rejecting.accept header) := by
  have hfirst : accepting.isDuplicate header = false := by
    simp [isDuplicate, h.accepts]
  have hcommand : rejecting.command? header = accepting.command? header := by
    rw [h.eq]
    rfl
  have hsequence : ∀ command, accepting.command? header = some command →
      command.sequence = header.sequence := by
    intro command hread
    rw [command?_eq] at hread
    exact sequence_of_commandIn? hread
  unfold Decoder.accept
  rw [hfirst, if_neg Bool.false_ne_true, hcommand]
  by_cases hrepeat : accepting.lastSequence = some header.sequence
  · rw [if_pos (h.isDuplicate_iff.mpr hrepeat)]
    cases hread : accepting.command? header with
    | some command =>
      have hsame := hsequence command hread
      refine ⟨?_, ⟨?_, h.announced, h.last.trans hrepeat, h.accepts, h.rejects, ?_⟩, ?_⟩
      · show Tells _ (.success command) (.retry (.duplicate header.sequence))
        rw [← hsame]
        exact .repeated command (by rw [hsame]; exact hrepeat)
      · show rejecting.ring.consume (min header.frameLength rejecting.ring.length) =
          accepting.ring.consume header.frameLength
        rw [h.ring, Nat.min_eq_left hall]
      · have hsettled := h.settled
        simp only [dropDuplicate, deliver, Decoder.discard, DecoderStats.settled]
          at hsettled ⊢
        omega
      · show some header.sequence = some command.sequence
        rw [hsame]
    | none =>
      refine ⟨.unread header.sequence hrepeat, h.discard ?_ header.frameLength, rfl⟩
      have hsettled := h.settled
      simp only [DecoderStats.settled] at hsettled ⊢
      omega
  · rw [if_neg (fun hduplicate => hrepeat (h.isDuplicate_iff.mp hduplicate))]
    have hsettled := h.settled
    simp only [DecoderStats.settled] at hsettled
    cases hread : accepting.command? header with
    | some command =>
      have hsame := hsequence command hread
      refine ⟨.same _ ?_, ⟨?_, h.announced, rfl, h.accepts, h.rejects, ?_⟩, ?_⟩
      · intro other hother
        cases hother
        rw [hsame]
        exact hrepeat
      · show rejecting.ring.consume _ = accepting.ring.consume _
        rw [h.ring]
      · simp only [deliver, DecoderStats.settled]
        omega
      · show some header.sequence = some command.sequence
        rw [hsame]
    | none =>
      refine h.beside_discard rfl ?_ header.frameLength
      simp only [DecoderStats.settled]
      omega

/-- A frame of which all bytes are there. -/
theorem Paired.verify (h : Paired accepting rejecting)
    (hall : header.frameLength ≤ accepting.ring.length) :
    Beside accepting.lastSequence (accepting.verify header) (rejecting.verify header) := by
  have hcomputed : rejecting.computedChecksum header = accepting.computedChecksum header := by
    rw [h.eq]
    rfl
  have hreceived : ∀ computed, rejecting.receivedChecksum header computed =
      accepting.receivedChecksum header computed := by
    intro computed
    rw [h.eq]
    rfl
  simp only [Decoder.verify, hcomputed, hreceived]
  split_ifs
  · exact h.accept hall
  · refine h.beside_discard ?_ ?_ 2
    · rfl
    · exact h.settled

/-- A header at the front, with its frame there or on the way. -/
theorem Paired.await (h : Paired accepting rejecting) :
    Beside accepting.lastSequence (accepting.await header) (rejecting.await header) := by
  have hlength : rejecting.ring.length = accepting.ring.length := by rw [h.ring]
  unfold Decoder.await
  rw [hlength]
  split_ifs with hshort
  · exact ⟨.of_command? rfl _, ⟨h.ring, rfl, h.last, h.accepts, h.rejects, h.settled⟩, rfl⟩
  · have hidle : Paired { accepting with announced := none }
        { rejecting with announced := none } :=
      ⟨h.ring, rfl, h.last, h.accepts, h.rejects, h.settled⟩
    exact hidle.verify (Nat.le_of_not_lt hshort)

theorem Paired.readHeader (h : Paired accepting rejecting) :
    Beside accepting.lastSequence accepting.readHeader rejecting.readHeader := by
  unfold Decoder.readHeader
  rw [h.ring]
  split
  · dsimp only
    split_ifs
    · exact h.beside_discard rfl h.settled 1
    · exact h.await
  · exact ⟨.of_command? rfl _, h, rfl⟩

theorem Paired.seek (h : Paired accepting rejecting) :
    Beside accepting.lastSequence accepting.seek rejecting.seek := by
  have hhalf : rejecting.endsInHalfMarker = accepting.endsInHalfMarker := by
    rw [h.eq]
    rfl
  unfold Decoder.seek
  rw [h.ring, hhalf]
  split
  · exact h.readHeader
  · exact h.beside_discard rfl h.settled _
  · exact h.beside_discard rfl h.settled _

/-- One step on both sides. -/
theorem Paired.step (h : Paired accepting rejecting) :
    Beside accepting.lastSequence accepting.step rejecting.step := by
  unfold Decoder.step
  rw [h.announced]
  split
  · exact h.await
  · have hlength : rejecting.ring.length = accepting.ring.length := by rw [h.ring]
    rw [hlength]
    split_ifs
    · exact ⟨.of_command? rfl _, h, rfl⟩
    · exact h.seek

end Stages

/-! ## Two runs side by side -/

/-- Two runs step by step.  The numbers are those of the last command before
and behind them. -/
inductive Lockstep : Option UInt16 → List (Outcome × Decoder) → List (Outcome × Decoder) →
    Option UInt16 → Prop where
  | nil (last : Option UInt16) : Lockstep last [] [] last
  | cons {last final : Option UInt16} {step step' : Outcome × Decoder}
      {rest rest' : List (Outcome × Decoder)} (hbeside : Beside last step step')
      (hrest : Lockstep step.2.lastSequence rest rest' final) :
      Lockstep last (step :: rest) (step' :: rest') final

theorem Lockstep.append {last middle final : Option UInt16}
    {steps steps' more more' : List (Outcome × Decoder)}
    (h : Lockstep last steps steps' middle) (hmore : Lockstep middle more more' final) :
    Lockstep last (steps ++ more) (steps' ++ more') final := by
  induction h with
  | nil => exact hmore
  | cons hbeside _ ih => exact .cons hbeside (ih hmore)

/-- The two wait at the same time. -/
theorem Tells.isIncomplete {last : Option UInt16} {outcome outcome' : Outcome}
    (h : Tells last outcome outcome') : outcome'.isIncomplete = outcome.isIncomplete := by
  cases h with
  | same | repeated | unread => rfl

section Runs

variable {accepting rejecting : Decoder}

/-- The steps up to the first that waits. -/
theorem Paired.drainLoop (h : Paired accepting rejecting) (fuel : Nat)
    (told told' : List Outcome) :
    Lockstep accepting.lastSequence (drainTrail fuel accepting) (drainTrail fuel rejecting)
        (drainLoop fuel told accepting).2.lastSequence ∧
      Paired (drainLoop fuel told accepting).2 (drainLoop fuel told' rejecting).2 := by
  induction fuel generalizing accepting rejecting told told' with
  | zero => exact ⟨.nil _, h⟩
  | succ fuel ih =>
    have hbeside := h.step
    generalize hstep : accepting.step = step at hbeside
    generalize hstep' : rejecting.step = step' at hbeside
    obtain ⟨outcome, after⟩ := step
    obtain ⟨outcome', after'⟩ := step'
    have hsame := hbeside.tells.isIncomplete
    cases hincomplete : outcome.isIncomplete with
    | true =>
      have hwaits : outcome = .incomplete := by
        cases outcome with
        | incomplete => rfl
        | success | retry | fault => cases hincomplete
      have hwaits' : outcome' = .incomplete := by
        rw [hincomplete] at hsame
        cases outcome' with
        | incomplete => rfl
        | success | retry | fault => cases hsame
      subst hwaits hwaits'
      rw [drainTrail, drainTrail, Decoder.drainLoop, Decoder.drainLoop, hstep, hstep']
      refine ⟨?_, hbeside.paired⟩
      show Lockstep accepting.lastSequence [] [] after.lastSequence
      rw [show after.lastSequence = accepting.lastSequence from hbeside.last]
      exact .nil _
    | false =>
      have hgoes : outcome'.isIncomplete = false := hsame.trans hincomplete
      rw [drainTrail_succ hstep hincomplete, drainTrail_succ hstep' hgoes,
        drainLoop_succ hstep hincomplete, drainLoop_succ hstep' hgoes]
      obtain ⟨hrest, hpaired⟩ := ih hbeside.paired (outcome :: told) (outcome' :: told')
      exact ⟨.cons hbeside hrest, hpaired⟩

/-- Bytes that come in fit both rings or neither. -/
theorem Paired.write (h : Paired accepting rejecting) (piece : Bytes) :
    (∃ failure, accepting.write piece = .error failure ∧
        rejecting.write piece = .error failure) ∨
      ∃ written written', accepting.write piece = .ok written ∧
        rejecting.write piece = .ok written' ∧ Paired written written' ∧
        written.lastSequence = accepting.lastSequence := by
  unfold Decoder.write
  rw [h.ring]
  cases accepting.ring.append piece with
  | error failure => exact .inl ⟨failure, rfl, rfl⟩
  | ok ring =>
    refine .inr ⟨_, _, rfl, rfl, ?_, rfl⟩
    exact ⟨rfl, h.announced, h.last, h.accepts, h.rejects, h.settled⟩

/-- A run over any pieces: both come to its end, or both stop at the same
piece. -/
theorem Paired.run (h : Paired accepting rejecting) (pieces : List Bytes)
    (told told' : List Outcome) :
    Lockstep accepting.lastSequence (accepting.trail pieces) (rejecting.trail pieces)
        (receiveAll.go told accepting pieces).2.lastSequence ∧
      Paired (receiveAll.go told accepting pieces).2 (receiveAll.go told' rejecting pieces).2 ∧
      (receiveAll.go told' rejecting pieces).1.map (fun _ => ()) =
        (receiveAll.go told accepting pieces).1.map (fun _ => ()) := by
  induction pieces generalizing accepting rejecting told told' with
  | nil => exact ⟨.nil _, h, rfl⟩
  | cons piece rest ih =>
    rw [trail, trail, receiveAll.go, receiveAll.go, receive, receive]
    rcases h.write piece with ⟨failure, hwrite, hwrite'⟩ |
      ⟨written, written', hwrite, hwrite', hpaired, hlast⟩
    · rw [hwrite, hwrite']
      exact ⟨.nil _, h, rfl⟩
    · rw [hwrite, hwrite']
      have hlength : written'.ring.length = written.ring.length := by rw [hpaired.ring]
      obtain ⟨hsteps, hdrained⟩ := hpaired.drainLoop (written.ring.length + 1) [] []
      have hdrain : written'.drain = Decoder.drainLoop (written.ring.length + 1) [] written' := by
        rw [drain, hlength]
      dsimp only [Except.map]
      rw [hlength, hdrain, drain, ← hlast]
      obtain ⟨hrest, hend⟩ := ih hdrained
        ((Decoder.drainLoop (written.ring.length + 1) [] written).1.reverse ++ told)
        ((Decoder.drainLoop (written.ring.length + 1) [] written').1.reverse ++ told')
      exact ⟨hsteps.append hrest, hend⟩

end Runs

/-! ## What two runs tell -/

/-- The commands that a run tells, in order. -/
def commandsOf (steps : List (Outcome × Decoder)) : List Command :=
  steps.filterMap fun step => step.1.command?

section Lockstep

variable {last final : Option UInt16} {steps steps' : List (Outcome × Decoder)}

theorem Lockstep.commandsOf_eq (h : Lockstep last steps steps' final) :
    commandsOf steps' = withoutRepeats last (commandsOf steps) := by
  induction h with
  | nil => rfl
  | @cons last final step step' rest rest' hbeside _ ih =>
    obtain ⟨outcome, after⟩ := step
    obtain ⟨outcome', after'⟩ := step'
    obtain ⟨htells, _, hlast⟩ := hbeside
    dsimp only at htells hlast ih
    rw [hlast] at ih
    cases htells with
    | same outcome hnew =>
      cases outcome with
      | success command =>
        show command :: commandsOf rest' =
          withoutRepeats last (command :: commandsOf rest)
        rw [withoutRepeats, if_neg (hnew command rfl), ih]
        rfl
      | incomplete | retry | fault => exact ih
    | repeated command hrepeat =>
      show commandsOf rest' = withoutRepeats last (command :: commandsOf rest)
      rw [withoutRepeats, if_pos hrepeat, ih]
      rfl
    | unread => exact ih

theorem Lockstep.rings_eq (h : Lockstep last steps steps' final) :
    steps'.map (fun step => step.2.ring) = steps.map (fun step => step.2.ring) := by
  induction h with
  | nil => rfl
  | cons hbeside _ ih => rw [List.map_cons, List.map_cons, hbeside.paired.ring, ih]

/-- What is no verdict on a frame with the right checksum is told alike. -/
theorem Lockstep.filter_eq (h : Lockstep last steps steps' final) :
    (steps'.map Prod.fst).filter (fun outcome => !outcome.isVerdict) =
      (steps.map Prod.fst).filter fun outcome => !outcome.isVerdict := by
  induction h with
  | nil => rfl
  | @cons last final step step' rest rest' hbeside _ ih =>
    obtain ⟨outcome, after⟩ := step
    obtain ⟨outcome', after'⟩ := step'
    have htells := hbeside.tells
    dsimp only at htells
    cases htells with
    | same => rw [List.map_cons, List.map_cons, List.filter_cons, List.filter_cons, ih]
    | repeated command => exact ih
    | unread sequence => exact ih

end Lockstep

theorem fresh_paired (capacity : Nat) : Paired (fresh capacity .accept) (fresh capacity .reject) :=
  ⟨rfl, rfl, rfl, rfl, rfl, rfl⟩

/-- A run that comes to its end tells the outcomes of its steps. -/
theorem receiveAll_eq_map_trail (decoder : Decoder) (pieces : List Bytes) :
    (decoder.receiveAll pieces).1 =
      (decoder.receiveAll pieces).1.map fun _ => (decoder.trail pieces).map Prod.fst := by
  cases hrun : (decoder.receiveAll pieces).1 with
  | error failure => rfl
  | ok outcomes =>
    have hfits : decoder.Fits pieces := fits_iff.mpr (by rw [hrun]; rfl)
    rw [receiveAll_eq_trail hfits] at hrun
    cases hrun
    rfl

/-- The two policies differ by adjacent repeats, whatever the capacity, the
stream and its cuts.

The commands of a decoder that rejects repeats are those of one that accepts
them, without each that has the number of the one just before it; so no two
in a row have one number.  Step by step both hold the same bytes, and they
tell the same gaps, wrong checksums and oversized frames in the same order.
They end with the same bytes and the same last number, and have settled the
same number of frames.  The last two parts tie the steps to the run: both
come to the end and tell the outcomes of their steps, or both stop at the
first piece that does not fit. -/
theorem policies_differ_by_repeats (capacity : Nat) (pieces : List Bytes) :
    let accepting := (fresh capacity .accept).trail pieces
    let rejecting := (fresh capacity .reject).trail pieces
    let accepted := (fresh capacity .accept).receiveAll pieces
    let rejected := (fresh capacity .reject).receiveAll pieces
    commandsOf rejecting = withoutRepeats none (commandsOf accepting) ∧
      (commandsOf rejecting).IsChain (fun first second => first.sequence ≠ second.sequence) ∧
      rejecting.map (fun step => step.2.ring) = accepting.map (fun step => step.2.ring) ∧
      (rejecting.map Prod.fst).filter (fun outcome => !outcome.isVerdict) =
        (accepting.map Prod.fst).filter (fun outcome => !outcome.isVerdict) ∧
      rejected.2.ring = accepted.2.ring ∧
      rejected.2.lastSequence = accepted.2.lastSequence ∧
      rejected.2.stats.settled = accepted.2.stats.settled ∧
      accepted.1 = accepted.1.map (fun _ => accepting.map Prod.fst) ∧
      rejected.1 = accepted.1.map (fun _ => rejecting.map Prod.fst) := by
  intro accepting rejecting accepted rejected
  obtain ⟨hsteps, hpaired, hends⟩ := (fresh_paired capacity).run pieces [] []
  have hcommands : commandsOf rejecting = withoutRepeats none (commandsOf accepting) :=
    hsteps.commandsOf_eq
  refine ⟨hcommands, ?_, hsteps.rings_eq, hsteps.filter_eq, hpaired.ring, hpaired.last,
    hpaired.settled, receiveAll_eq_map_trail _ _, ?_⟩
  · rw [hcommands]
    exact (isChain_withoutRepeats none _).2
  · calc rejected.1
        = rejected.1.map fun _ => rejecting.map Prod.fst := receiveAll_eq_map_trail _ _
      _ = (rejected.1.map fun _ => ()).map fun _ => rejecting.map Prod.fst := by
        cases rejected.1 <;> rfl
      _ = (accepted.1.map fun _ => ()).map fun _ => rejecting.map Prod.fst := by
        rw [show rejected.1.map (fun _ => ()) = accepted.1.map (fun _ => ()) from hends]
      _ = accepted.1.map fun _ => rejecting.map Prod.fst := by cases accepted.1 <;> rfl

/-- A frame, its repeat with content that is no command, and the frame again:
both repeats are dropped. -/
example :
    (commandsOf ((fresh 32 .accept).trail
        [assemble 1 [0x31] ++ assemble 1 [0x78], assemble 1 [0x32] ++ assemble 2 [0x33]])).map
          Command.sequence = [1, 1, 2] ∧
      (commandsOf ((fresh 32 .reject).trail
        [assemble 1 [0x31] ++ assemble 1 [0x78], assemble 1 [0x32] ++ assemble 2 [0x33]])).map
          Command.sequence = [1, 2] := by
  decide +kernel

end Decoder

end TestRig
