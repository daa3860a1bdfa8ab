import TestRig.Proofs.Link.Backlog
import TestRig.Proofs.Transport.Batch

/-!
# The writer task

The task takes frames from a link and writes them, batch by batch, while
others send and at last close the link.  A send may come between any two
steps of the task, and may evict a frame that the task has not taken yet.

To find the first frame of a batch takes two steps.  The task looks for a
frame, and if there is none it tests whether the link is closed; only then
it waits for a notice.  Others may act in between.  If a frame comes and the
link is closed between the look and the test, then the task ends although
the frame was accepted, and the frame is never written
(`accepted_frame_left_behind`).  Everything else that the task writes is
the history of the backlog: the frames that it takes are those that were
accepted, in the order of acceptance and without those that were evicted,
and when it ends it has taken all, unless it was cut off like this.

* `Task` is the writer with the link that it drains.  `Task.turn` is one
  step of it, and `Turned` lists all that it can do; `turns_writeSome` says
  that turns in a row are what `writeSome` does.
* `Accounts` ties the written bytes to the history; `Accounts.act` is one
  act, and `Accounts.run` a run.
* `Task.CutOff` is a frame and a close between the look and the test.
  Nothing else leaves frames behind (`Accounts.stranded_of_act`), so a run
  leaves some exactly if it came through such a moment
  (`Accounts.run_stranded`).
* `rank_turn_lt` is why a task ends behind a close.
* `task_writes_history` is the result.

A send and a close are one act each, with the notice that they give.  So a
send that has found the link open, and puts its frame in only behind a
close, is not among the acts.
-/

namespace TestRig.Transport

open Link (Message History fates kept kept_append fst_fates)
open Queue (Event accepted removed)

variable {σ : Type}

/-! ## The task -/

/-- Where the task stands. -/
inductive Stage where
  /-- It looks for the first frame of a batch. -/
  | asking
  /-- It found none, and is to test whether the link is closed. -/
  | testing
  /-- The link was open.  It waits for a notice. -/
  | waiting
  /-- It takes whatever else waits. -/
  | collecting (batch : List Bytes)
  | writing (batch : List Bytes)
  | ended (result : Except Failure Unit)
  deriving DecidableEq

namespace Stage

/-- The frames that were taken and are not yet written. -/
def batch : Stage → List Bytes
  | collecting batch => batch
  | writing batch => batch
  | asking | testing | waiting => []
  | ended _ => []

/-- Where the task stands behind a batch. -/
def behind : Progress → Stage
  | .batch => asking
  | .idle => waiting
  | .ended => ended (.ok ())
  | .failed failure => ended (.error failure)

end Stage

/-- The task, with the link that it drains and the state of the sink that it
writes to. -/
structure Task (σ : Type) where
  link : Link
  stage : Stage := .asking
  /-- A notice was given that the task has not taken.  One is kept, however
  many are given. -/
  noticed : Bool := false
  state : σ

/-- What happens to a task and its link. -/
inductive Act where
  | send (message : Message)
  | close
  /-- The task takes its next step. -/
  | turn

namespace Task

/-- One step of the task: a look for a frame, the test for a close, the end
of a wait, the end of a batch, or the write of one. -/
def turn (sink : Sink σ) (task : Task σ) : List (Event Bytes) × Task σ :=
  match task.stage with
  | .asking =>
    match task.link.drain with
    | (some frame, link) => ([.popped frame], { task with link, stage := .collecting [frame] })
    | (none, link) => ([], { task with link, stage := .testing })
  | .testing =>
    ([], { task with stage := if task.link.outbound.closed then .ended (.ok ()) else .waiting })
  | .waiting => ([], if task.noticed then { task with stage := .asking, noticed := false } else task)
  | .collecting batch =>
    if batch.length < maxBatch then
      match task.link.drain with
      | (some frame, link) =>
        ([.popped frame], { task with link, stage := .collecting (batch ++ [frame]) })
      | (none, link) => ([], { task with link, stage := .writing batch })
    else ([], { task with stage := .writing batch })
  | .writing batch =>
    match writeBatch sink batch task.state with
    | (.ok (), state) => ([], { task with stage := .asking, state })
    | (.error failure, state) => ([], { task with stage := .ended (.error failure), state })
  | .ended _ => ([], task)

/-- One act, and what it tells of the frames.  A send that succeeds and a
close give notice. -/
def act (sink : Sink σ) (task : Task σ) : Act → List (Event Bytes) × Task σ
  | .send message =>
    (task.link.sent message,
      { task with
        link := (task.link.send message).2
        noticed := task.noticed || (task.link.send message).1.isOk })
  | .close => ([], { task with link := task.link.close, noticed := true })
  | .turn => task.turn sink

/-- Acts one after the other. -/
def run (sink : Sink σ) (task : Task σ) : List Act → List (Event Bytes) × Task σ
  | [] => ([], task)
  | act :: acts =>
    let (told, task) := task.act sink act
    let (later, task) := task.run sink acts
    (told ++ later, task)

/-- A number of turns in a row. -/
def turns (sink : Sink σ) (task : Task σ) (count : Nat) : Task σ :=
  (task.run sink (List.replicate count .turn)).2

theorem turns_succ (sink : Sink σ) (task : Task σ) (count : Nat) :
    task.turns sink (count + 1) = (task.turn sink).2.turns sink count := rfl

/-- What a turn can do. -/
inductive Turned (sink : Sink σ) (task : Task σ) : List (Event Bytes) × Task σ → Prop where
  /-- It takes the next frame into the batch. -/
  | takes (hstage : task.stage = .asking ∨ ∃ batch, task.stage = .collecting batch) {frame : Bytes}
      {rest : List Bytes} (hitems : task.link.outbound.items = frame :: rest) :
      Turned sink task ([.popped frame],
        { task with
          link := task.link.drained 1
          stage := .collecting (task.stage.batch ++ [frame]) })
  /-- Nothing waits. -/
  | misses (hstage : task.stage = .asking) (hempty : task.link.outbound.items = []) :
      Turned sink task ([], { task with stage := .testing })
  /-- The link is closed, whatever waits by now. -/
  | ends (hstage : task.stage = .testing) (hclosed : task.link.outbound.closed = true) :
      Turned sink task ([], { task with stage := .ended (.ok ()) })
  /-- The link is open. -/
  | waits (hstage : task.stage = .testing) (hopen : task.link.outbound.closed = false) :
      Turned sink task ([], { task with stage := .waiting })
  /-- It takes a notice. -/
  | wakes (hstage : task.stage = .waiting) (hnoticed : task.noticed = true) :
      Turned sink task ([], { task with stage := .asking, noticed := false })
  /-- No notice was given. -/
  | sleeps (hstage : task.stage = .waiting) (hnoticed : task.noticed = false) :
      Turned sink task ([], task)
  /-- The batch is full, or nothing else waits. -/
  | fills {batch : List Bytes} (hstage : task.stage = .collecting batch) :
      Turned sink task ([], { task with stage := .writing batch })
  | writes {batch : List Bytes} (hstage : task.stage = .writing batch) {after : σ}
      (hwrite : writeBatch sink batch task.state = (.ok (), after)) :
      Turned sink task ([], { task with stage := .asking, state := after })
  | fails {batch : List Bytes} (hstage : task.stage = .writing batch) {failure : Failure} {after : σ}
      (hwrite : writeBatch sink batch task.state = (.error failure, after)) :
      Turned sink task ([], { task with stage := .ended (.error failure), state := after })
  /-- The task has come to its end before. -/
  | stays {result : Except Failure Unit} (hstage : task.stage = .ended result) :
      Turned sink task ([], task)

theorem turned (sink : Sink σ) (task : Task σ) : Turned sink task (task.turn sink) := by
  obtain ⟨link, stage, noticed, state⟩ := task
  cases stage with
  | asking =>
    rw [turn]
    dsimp only
    rw [Link.drain_eq]
    cases hitems : link.outbound.items with
    | nil =>
      rw [Link.drained_of_nil hitems]
      exact .misses rfl hitems
    | cons frame rest => exact .takes (.inl rfl) hitems
  | testing =>
    rw [turn]
    dsimp only
    cases hclosed : link.outbound.closed with
    | true => exact .ends rfl hclosed
    | false => exact .waits rfl hclosed
  | waiting =>
    cases noticed with
    | true => exact .wakes rfl rfl
    | false => exact .sleeps rfl rfl
  | collecting batch =>
    rw [turn]
    dsimp only
    rw [Link.drain_eq]
    split_ifs with hroom
    · cases hitems : link.outbound.items with
      | nil =>
        rw [Link.drained_of_nil hitems]
        exact .fills rfl
      | cons frame rest => exact .takes (.inr ⟨batch, rfl⟩) hitems
    · exact .fills rfl
  | writing batch =>
    rw [turn]
    dsimp only
    cases hwrite : writeBatch sink batch state with
    | mk result after =>
      cases result with
      | ok => exact .writes rfl hwrite
      | error failure => exact .fails rfl hwrite
  | ended result => exact .stays rfl

/-! ## Turns in a row -/

/-- A batch is filled from what waits. -/
theorem turns_collecting (sink : Sink σ) (link : Link) (noticed : Bool) (state : σ) {room : Nat}
    {batch : List Bytes} (hroom : batch.length + room = maxBatch) :
    ∃ count, turns sink ⟨link, .collecting batch, noticed, state⟩ count =
      ⟨(link.takeFrames room).2, .writing (batch ++ (link.takeFrames room).1), noticed,
        state⟩ := by
  induction room generalizing link batch with
  | zero =>
    refine ⟨1, ?_⟩
    have hfull : ¬ batch.length < maxBatch := by omega
    rw [turns_succ, turn]
    dsimp only
    rw [if_neg hfull, Link.takeFrames, List.append_nil]
    rfl
  | succ room ih =>
    have hlt : batch.length < maxBatch := by omega
    rw [Link.takeFrames]
    cases hdrain : link.drain with
    | mk frame? after =>
      cases frame? with
      | none =>
        refine ⟨1, ?_⟩
        rw [turns_succ, turn]
        dsimp only
        rw [if_pos hlt, hdrain, List.append_nil]
        rfl
      | some frame =>
        obtain ⟨count, hcount⟩ := @ih after (batch ++ [frame]) (by
          rw [List.length_append, List.length_singleton]
          omega)
        refine ⟨count + 1, ?_⟩
        rw [turns_succ, turn]
        dsimp only
        rw [if_pos hlt, hdrain]
        dsimp only
        rw [hcount, List.append_assoc]
        rfl

theorem turns_snoc (sink : Sink σ) (task : Task σ) (count : Nat) :
    task.turns sink (count + 1) = ((task.turns sink count).turn sink).2 := by
  induction count generalizing task with
  | zero => rfl
  | succ count ih => rw [turns_succ, ih, turns_succ]

/-- Turns in a row take one batch from the link and write it, or find that
there is nothing to write. -/
theorem turns_writeSome (sink : Sink σ) (link : Link) (noticed : Bool) (state : σ) :
    ∃ count, turns sink ⟨link, .asking, noticed, state⟩ count =
      ⟨(writeSome sink link state).2.1, .behind (writeSome sink link state).1, noticed,
        (writeSome sink link state).2.2⟩ := by
  unfold writeSome Link.nextOutbound
  cases hdrain : link.drain with
  | mk frame? after =>
    cases frame? with
    | none =>
      have hlook : turns sink ⟨link, .asking, noticed, state⟩ 1 =
          ⟨after, .testing, noticed, state⟩ := by
        rw [turns_succ, turn]
        dsimp only
        rw [hdrain]
        rfl
      refine ⟨2, ?_⟩
      rw [turns_snoc, hlook, turn]
      dsimp only
      cases after.outbound.closed <;> rfl
    | some first =>
      have hroom : [first].length + (maxBatch - 1) = maxBatch := rfl
      obtain ⟨count, hcount⟩ := turns_collecting sink after noticed state hroom
      have hbatch : turns sink ⟨link, .asking, noticed, state⟩ (count + 1) =
          ⟨(after.takeFrames (maxBatch - 1)).2,
            .writing (first :: (after.takeFrames (maxBatch - 1)).1), noticed, state⟩ := by
        rw [turns_succ, turn]
        dsimp only
        rw [hdrain]
        exact hcount
      refine ⟨count + 1 + 1, ?_⟩
      rw [turns_snoc, hbatch, turn]
      dsimp only
      cases hwrite : writeBatch sink (first :: (after.takeFrames (maxBatch - 1)).1) state with
      | mk result written =>
        cases result <;> rfl

end Task

/-! ## The accounts of the task -/

/-- The task against what was told: the bytes that it wrote, and then the
batch that it holds, are the frames that it took.  It ends only without a
failure and behind a close.  It does not wait for a notice while a frame
waits, or behind a close. -/
structure Accounts (taken : σ → Bytes) (size : Nat) (front : Bytes) (told : List (Event Bytes))
    (task : Task σ) : Prop where
  history : History size told task.link.outbound
  written : taken task.state ++ task.stage.batch.flatten = front ++ (kept told).flatten
  ended : ∀ result, task.stage = .ended result →
    result = .ok () ∧ task.link.outbound.closed = true
  /-- A frame that came behind the look for one gave notice. -/
  frames : task.stage = .testing ∨ task.stage = .waiting → task.link.outbound.items ≠ [] →
    task.noticed = true
  /-- So did a close that came behind the test. -/
  closes : task.stage = .waiting → task.link.outbound.closed = true → task.noticed = true

namespace Accounts

variable {sink : Sink σ} {taken : σ → Bytes} {size : Nat} {front : Bytes}
  {told : List (Event Bytes)} {task : Task σ}

theorem start (taken : σ → Bytes) (config : Config) (state : σ) :
    Accounts taken (max config.outboundCapacity 1) (taken state) []
      ⟨.ofConfig config, .asking, false, state⟩ where
  history := .start _
  written := rfl
  ended _ hstage := nomatch hstage
  frames := by simp
  closes hstage := nomatch hstage

/-- The task takes the next frame into its batch. -/
theorem take (h : Accounts taken size front told task) {frame : Bytes} {rest : List Bytes}
    (hitems : task.link.outbound.items = frame :: rest) :
    Accounts taken size front (told ++ [.popped frame])
      { task with
        link := task.link.drained 1
        stage := .collecting (task.stage.batch ++ [frame]) } where
  history := by
    have hleft := h.history.left hitems (.inl rfl)
    have hdrained : (task.link.drained 1).outbound = { task.link.outbound with items := rest } := by
      rw [Link.drained, hitems]
      rfl
    rw [hdrained]
    exact hleft
  written := by
    show taken task.state ++ (task.stage.batch ++ [frame]).flatten = _
    rw [List.flatten_append, ← List.append_assoc, h.written, kept_append, List.flatten_append,
      List.append_assoc]
    rfl
  ended result hstage := nomatch hstage
  frames := by simp
  closes hstage := nomatch hstage

/-- One turn of the task. -/
theorem turn (hreliable : Reliable sink taken) (h : Accounts taken size front told task) :
    Accounts taken size front (told ++ (task.turn sink).1) (task.turn sink).2 ∧
      accepted (task.turn sink).1 = [] ∧
      (task.turn sink).2.link.outbound.closed = task.link.outbound.closed := by
  have hturned := Task.turned sink task
  generalize task.turn sink = result at hturned ⊢
  have hwritten := h.written
  cases hturned with
  | takes hstage hitems => exact ⟨h.take hitems, rfl, rfl⟩
  | misses hstage hempty =>
    rw [hstage] at hwritten
    rw [List.append_nil]
    exact ⟨⟨h.history, hwritten, nofun, fun _ hframe => absurd hempty hframe, nofun⟩, rfl, rfl⟩
  | ends hstage hclosed =>
    rw [hstage] at hwritten
    rw [List.append_nil]
    refine ⟨⟨h.history, hwritten, ?_, by simp, nofun⟩, rfl, rfl⟩
    rintro result ⟨⟩
    exact ⟨rfl, hclosed⟩
  | waits hstage hopen =>
    rw [hstage] at hwritten
    rw [List.append_nil]
    refine ⟨⟨h.history, hwritten, nofun, fun _ => h.frames (.inl hstage), ?_⟩, rfl, rfl⟩
    intro _ hclosed
    exact absurd hclosed (Bool.eq_false_iff.mp hopen)
  | wakes hstage =>
    rw [hstage] at hwritten
    rw [List.append_nil]
    exact ⟨⟨h.history, hwritten, nofun, by simp, nofun⟩, rfl, rfl⟩
  | sleeps | stays =>
    rw [List.append_nil]
    exact ⟨h, rfl, rfl⟩
  | fills hstage =>
    rw [hstage] at hwritten
    rw [List.append_nil]
    exact ⟨⟨h.history, hwritten, nofun, by simp, nofun⟩, rfl, rfl⟩
  | @writes batch hstage after hwrite =>
    obtain ⟨written, hok, hafter⟩ := writeBatch_reliable hreliable batch task.state
    rw [hwrite] at hok
    cases hok
    rw [hstage] at hwritten
    rw [List.append_nil]
    refine ⟨⟨h.history, ?_, nofun, by simp, nofun⟩, rfl, rfl⟩
    show taken after ++ [] = _
    rw [List.append_nil, hafter]
    exact hwritten
  | @fails batch hstage failure after hwrite =>
    obtain ⟨written, hok, _⟩ := writeBatch_reliable hreliable batch task.state
    rw [hwrite] at hok
    cases hok

/-- One act.  A closed link stays closed and accepts nothing. -/
theorem act (hreliable : Reliable sink taken) (h : Accounts taken size front told task)
    (act : Act) :
    Accounts taken size front (told ++ (task.act sink act).1) (task.act sink act).2 ∧
      (task.link.outbound.closed = true →
        accepted (task.act sink act).1 = [] ∧
          (task.act sink act).2.link.outbound.closed = true) := by
  cases act with
  | send message =>
    obtain ⟨hhistory, hkept, hclosed⟩ := h.history.send message
    have hnotice : (task.link.send message).2.outbound = task.link.outbound ∨
        (task.noticed || (task.link.send message).1.isOk) = true := by
      rcases Link.send_cases h.history.rolls message with
        ⟨failure, -, hsame⟩ | ⟨-, frame, evicted, after, -, -, hanswer, -⟩
      · exact .inl hsame
      · rw [hanswer]
        exact .inr (Bool.or_true _)
    refine ⟨⟨hhistory, ?_, ?_, ?_, ?_⟩, ?_⟩
    · show taken task.state ++ task.stage.batch.flatten =
        front ++ (kept (told ++ task.link.sent message)).flatten
      rw [h.written, kept_append, hkept, List.append_nil]
    · intro result hstage
      obtain ⟨hok, hclose⟩ := h.ended result hstage
      refine ⟨hok, ?_⟩
      show (task.link.send message).2.outbound.closed = true
      rw [(hclosed hclose).2, hclose]
    · intro hstage hframes
      rcases hnotice with hsame | hnotice
      · rw [Task.act, hsame] at hframes
        rw [Task.act, h.frames hstage hframes]
        rfl
      · exact hnotice
    · intro hstage hclose
      rcases hnotice with hsame | hnotice
      · rw [Task.act, hsame] at hclose
        rw [Task.act, h.closes hstage hclose]
        rfl
      · exact hnotice
    · intro hclose
      obtain ⟨hsent, hsame⟩ := hclosed hclose
      show accepted (task.link.sent message) = [] ∧
        (task.link.send message).2.outbound.closed = true
      rw [hsent, hsame]
      exact ⟨rfl, hclose⟩
  | close =>
    simp only [Task.act]
    rw [List.append_nil]
    refine ⟨⟨h.history.close, h.written, ?_, fun _ _ => rfl, fun _ _ => rfl⟩,
      fun _ => ⟨rfl, rfl⟩⟩
    intro result hstage
    exact ⟨(h.ended result hstage).1, rfl⟩
  | turn =>
    obtain ⟨haccounts, haccepted, hclosed⟩ := h.turn hreliable
    exact ⟨haccounts, fun hclose => ⟨haccepted, hclosed.trans hclose⟩⟩

/-- Acts one after the other. -/
theorem run (hreliable : Reliable sink taken) (h : Accounts taken size front told task)
    (acts : List Act) :
    Accounts taken size front (told ++ (task.run sink acts).1) (task.run sink acts).2 ∧
      (task.link.outbound.closed = true →
        accepted (task.run sink acts).1 = [] ∧
          (task.run sink acts).2.link.outbound.closed = true) := by
  induction acts generalizing told task with
  | nil =>
    simp only [Task.run]
    rw [List.append_nil]
    exact ⟨h, fun hclose => ⟨rfl, hclose⟩⟩
  | cons act acts ih =>
    obtain ⟨hact, hclosed⟩ := h.act hreliable act
    obtain ⟨hrest, hstays⟩ := ih hact
    simp only [Task.run]
    rw [← List.append_assoc]
    refine ⟨hrest, ?_⟩
    intro hclose
    obtain ⟨hnone, hmiddle⟩ := hclosed hclose
    obtain ⟨hlater, hlast⟩ := hstays hmiddle
    rw [Queue.accepted_append, hnone, hlater]
    exact ⟨rfl, hlast⟩

end Accounts

/-! ## Frames left behind -/

/-- The look found nothing, and then a frame came and the link was closed.
The test ends the task, and the frame is left behind. -/
structure Task.CutOff (task : Task σ) : Prop where
  testing : task.stage = .testing
  closed : task.link.outbound.closed = true
  frames : task.link.outbound.items ≠ []

/-- The task left frames behind, or it will. -/
structure Task.Stranded (task : Task σ) : Prop where
  stage : task.stage = .testing ∨ task.stage = .ended (.ok ())
  closed : task.link.outbound.closed = true
  frames : task.link.outbound.items ≠ []

theorem Task.CutOff.stranded {task : Task σ} (h : task.CutOff) : task.Stranded :=
  ⟨.inl h.testing, h.closed, h.frames⟩

namespace Accounts

variable {sink : Sink σ} {taken : σ → Bytes} {size : Nat} {front : Bytes}
  {told : List (Event Bytes)} {task : Task σ}

/-- Behind a close, a send leaves the backlog as it is. -/
theorem outbound_send (sink : Sink σ) (h : Accounts taken size front told task)
    (hclosed : task.link.outbound.closed = true) (message : Message) :
    (task.act sink (.send message)).2.link.outbound = task.link.outbound :=
  ((h.history.send message).2.2 hclosed).2

/-- What is left behind stays there. -/
theorem stranded_act (h : Accounts taken size front told task) (hstranded : task.Stranded)
    (act : Act) : (task.act sink act).2.Stranded := by
  obtain ⟨hstage, hclosed, hframes⟩ := hstranded
  cases act with
  | send message =>
    have hsame := h.outbound_send sink hclosed message
    exact ⟨hstage, hsame ▸ hclosed, hsame ▸ hframes⟩
  | close => exact ⟨hstage, rfl, hframes⟩
  | turn =>
    show (task.turn sink).2.Stranded
    rcases hstage with hstage | hstage
    · have hturn : task.turn sink = ([], { task with stage := .ended (.ok ()) }) := by
        rw [Task.turn, hstage]
        dsimp only
        rw [if_pos hclosed]
      rw [hturn]
      exact ⟨.inr rfl, hclosed, hframes⟩
    · have hturn : task.turn sink = ([], task) := by
        rw [Task.turn, hstage]
      rw [hturn]
      exact ⟨.inr hstage, hclosed, hframes⟩

/-- Nothing but the moment between the look and the test leaves frames
behind. -/
theorem stranded_of_act (h : Accounts taken size front told task) {act : Act}
    (hstranded : (task.act sink act).2.Stranded) (hcut : ¬ (task.act sink act).2.CutOff) :
    task.Stranded := by
  have hended : (task.act sink act).2.stage = .ended (.ok ()) :=
    hstranded.stage.resolve_left fun htesting =>
      hcut ⟨htesting, hstranded.closed, hstranded.frames⟩
  obtain ⟨-, hclosed, hframes⟩ := hstranded
  cases act with
  | send message =>
    have hbefore : task.link.outbound.closed = true := (h.ended _ hended).2
    have hsame := h.outbound_send sink hbefore message
    exact ⟨.inr hended, hbefore, hsame ▸ hframes⟩
  | close => exact ⟨.inr hended, (h.ended _ hended).2, hframes⟩
  | turn =>
    have hturned := Task.turned sink task
    replace hended : (task.turn sink).2.stage = .ended (.ok ()) := hended
    replace hframes : (task.turn sink).2.link.outbound.items ≠ [] := hframes
    generalize task.turn sink = result at hturned hended hframes
    cases hturned with
    | ends hstage hclosed => exact ⟨.inl hstage, hclosed, hframes⟩
    | stays hstage => exact ⟨.inr hended, (h.ended _ hended).2, hframes⟩
    | sleeps hstage => exact absurd (hstage.symm.trans hended) nofun
    | _ => cases hended

/-- A run leaves frames behind exactly if it came through that moment. -/
theorem run_stranded (hreliable : Reliable sink taken) (h : Accounts taken size front told task)
    (acts : List Act) :
    (task.run sink acts).2.Stranded ↔ task.Stranded ∨
      ∃ earlier later, acts = earlier ++ later ∧ (task.run sink earlier).2.CutOff := by
  induction acts generalizing told task with
  | nil =>
    refine ⟨.inl, ?_⟩
    rintro (hstranded | ⟨earlier, later, heq, hcut⟩)
    · exact hstranded
    · obtain ⟨rfl, -⟩ := List.append_eq_nil_iff.mp heq.symm
      exact hcut.stranded
  | cons act acts ih =>
    have hrest := ih (h.act hreliable act).1
    constructor
    · intro hstranded
      rcases hrest.mp hstranded with hnext | ⟨earlier, later, rfl, hcut⟩
      · by_cases hcut : (task.act sink act).2.CutOff
        · exact .inr ⟨[act], acts, rfl, hcut⟩
        · exact .inl (h.stranded_of_act hnext hcut)
      · exact .inr ⟨act :: earlier, later, rfl, hcut⟩
    · rintro (hstranded | ⟨earlier, later, heq, hcut⟩)
      · exact hrest.mpr (.inl (h.stranded_act hstranded act))
      · cases earlier with
        | nil => exact hrest.mpr (.inl (h.stranded_act hcut.stranded act))
        | cons first earlier =>
          obtain ⟨rfl, rfl⟩ := List.cons.inj heq
          exact hrest.mpr (.inr ⟨earlier, later, rfl, hcut⟩)

end Accounts

/-! ## The end of the task -/

namespace Task

/-- How far a task is from its end behind a close. -/
def rank (task : Task σ) : Nat :=
  match task.stage with
  | .asking => 3 * task.link.outbound.items.length + 2
  | .testing => 1
  | .waiting => 3 * task.link.outbound.items.length + 3
  | .collecting _ => 3 * task.link.outbound.items.length + 4
  | .writing _ => 3 * task.link.outbound.items.length + 3
  | .ended _ => 0

/-- Behind a close, and if it does not miss its notice, every turn brings the
task nearer to its end. -/
theorem rank_turn_lt (sink : Sink σ) {task : Task σ} (hclosed : task.link.outbound.closed = true)
    (hnotice : task.stage = .waiting → task.noticed = true) (hgoes : 0 < task.rank) :
    (task.turn sink).2.rank < task.rank := by
  have hturned := turned sink task
  generalize task.turn sink = result at hturned ⊢
  cases hturned with
  | @takes hstage frame rest hitems =>
    have hrest : (task.link.drained 1).outbound.items.length = rest.length := by
      rw [Link.drained, hitems]
      rfl
    rcases hstage with hstage | ⟨batch, hstage⟩
    · simp only [rank, hstage, hrest, hitems, List.length_cons]
      omega
    · simp only [rank, hstage, hrest, hitems, List.length_cons]
      omega
  | misses hstage | wakes hstage | fills hstage | writes hstage =>
    simp only [rank, hstage]
    omega
  | ends | fails => exact hgoes
  | waits hstage hopen =>
    rw [hopen] at hclosed
    cases hclosed
  | sleeps hstage hnoticed =>
    rw [hnotice hstage] at hnoticed
    cases hnoticed
  | stays hstage =>
    simp only [rank, hstage] at hgoes
    omega

theorem ended_of_rank {task : Task σ} (h : task.rank = 0) : ∃ result, task.stage = .ended result := by
  obtain ⟨link, stage, noticed, state⟩ := task
  cases stage with
  | asking | testing | waiting | collecting | writing => cases h
  | ended result => exact ⟨result, rfl⟩

end Task

/-- Behind a close, the task ends without a failure after some turns. -/
theorem Accounts.exists_ended {sink : Sink σ} {taken : σ → Bytes} {size : Nat} {front : Bytes}
    {told : List (Event Bytes)} {task : Task σ} (hreliable : Reliable sink taken)
    (h : Accounts taken size front told task) (hclosed : task.link.outbound.closed = true) :
    ∃ count, (task.turns sink count).stage = .ended (.ok ()) := by
  generalize hrank : task.rank = rank
  induction rank using Nat.strongRecOn generalizing told task with
  | ind rank ih =>
    by_cases hgoes : 0 < task.rank
    · have hnotice : task.stage = .waiting → task.noticed = true :=
        fun hstage => h.closes hstage hclosed
      obtain ⟨hturn, -, hstays⟩ := h.turn hreliable
      obtain ⟨count, hcount⟩ :=
        ih _ (hrank ▸ Task.rank_turn_lt sink hclosed hnotice hgoes) hturn (hstays.trans hclosed) rfl
      exact ⟨count + 1, hcount⟩
    · obtain ⟨result, hstage⟩ := Task.ended_of_rank (Nat.eq_zero_of_not_pos hgoes)
      obtain ⟨rfl, -⟩ := h.ended result hstage
      exact ⟨0, hstage⟩

/-- A task on a link of any settings, with a sink that does not fail.
Whatever is sent between its steps and whenever the link is closed, the
backlog keeps to its capacity, which is at least one, and a frame is
evicted only as the oldest one that the task has not taken.  A send that
succeeds is told as the acceptance of its frame, and none succeeds behind a
close.  While a frame waits, the task does not sleep.

The task ends only with success and behind a close.  The frames that left
the backlog and those that are left in it are then the accepted frames, in
order, and the bytes written are the frames that left without those that
were evicted.  Some are left exactly if the task was cut off: if there was
a moment, between its look for a frame and its test for a close, when it had
seen no frame but one waited and the link was closed.  And behind a close
the task comes to its end. -/
theorem task_writes_history {sink : Sink σ} {taken : σ → Bytes} (hreliable : Reliable sink taken)
    (config : Config) (state : σ) (acts : List Act) :
    let start : Task σ := ⟨.ofConfig config, .asking, false, state⟩
    let told := (start.run sink acts).1
    let reached := (start.run sink acts).2
    reached.link.pendingOutbound ≤ max config.outboundCapacity 1 ∧
    (∀ earlier later frame, told = earlier ++ .evicted frame :: later →
      ∃ waiting, accepted earlier = removed earlier ++ frame :: waiting) ∧
    (∀ message, (reached.link.send message).1 = .ok () →
      ∃ frame, reached.link.frame message = .ok frame ∧
        accepted (reached.link.sent message) = [frame]) ∧
    (reached.stage = .waiting → 0 < reached.link.pendingOutbound → reached.noticed = true) ∧
    (∀ result, reached.stage = .ended result →
      result = .ok () ∧ reached.link.outbound.closed = true ∧
        (fates told).map Prod.fst ++ reached.link.outbound.items = accepted told ∧
        taken reached.state = taken state ++ (kept told).flatten ∧
        (0 < reached.link.pendingOutbound ↔
          ∃ earlier later, acts = earlier ++ later ∧ (start.run sink earlier).2.CutOff)) ∧
    (reached.link.outbound.closed = true →
      (∀ more, accepted (reached.run sink more).1 = []) ∧
        ∃ count, (reached.turns sink count).stage = .ended (.ok ())) := by
  intro start told reached
  have hstart := Accounts.start taken config state
  have haccounts : Accounts taken (max config.outboundCapacity 1) (taken state) told reached :=
    (hstart.run hreliable acts).1
  have hhistory := haccounts.history
  refine ⟨?_, hhistory.oldest, ?_, ?_, ?_, ?_⟩
  · have hle := hhistory.rolls.bounded.length_le
    rw [hhistory.capacity] at hle
    exact hle
  · intro message hok
    rcases Link.send_cases hhistory.rolls message with
      ⟨failure, hanswer, -⟩ | ⟨-, frame, evicted, after, hframe, hpush, hanswer, -⟩
    · rw [hok] at hanswer
      cases hanswer
    · refine ⟨frame, hframe, ?_⟩
      rw [Link.sent, hanswer, hframe]
      dsimp only
      rw [hpush]
      cases evicted <;> rfl
  · intro hstage hpending
    exact haccounts.frames (.inr hstage) (List.ne_nil_of_length_pos hpending)
  · intro result hstage
    obtain ⟨rfl, hclosed⟩ := haccounts.ended result hstage
    have hwritten := haccounts.written
    rw [hstage] at hwritten
    have hleft : 0 < reached.link.pendingOutbound ↔ reached.Stranded :=
      ⟨fun hpending => ⟨.inr hstage, hclosed, List.ne_nil_of_length_pos hpending⟩,
        fun hstranded => List.length_pos_of_ne_nil hstranded.frames⟩
    have hfresh : ¬ start.Stranded := fun hstranded => hstranded.frames rfl
    refine ⟨rfl, hclosed, ?_, ?_, ?_⟩
    · rw [fst_fates]
      exact hhistory.conserves
    · rw [← hwritten]
      exact (List.append_nil _).symm
    · rw [hleft, hstart.run_stranded hreliable acts, or_iff_right hfresh]
  · intro hclosed
    exact ⟨fun more => ((haccounts.run hreliable more).2 hclosed).1,
      haccounts.exists_ended hreliable hclosed⟩

/-- A backlog of one frame and a sink that takes three bytes at a time.  The
second frame evicts the first, and the third comes while the second is in a
batch. -/
theorem task_writes_history_evicting :
    let start : Task SinkRecord := ⟨.ofConfig { outboundCapacity := 1 }, .asking, false, {}⟩
    let acts := [.send (.raw [0x31] 1), .send (.raw [0x31] 2), .turn, .send (.raw [0x31] 3),
      .close, .turn, .turn, .turn, .turn, .turn, .turn]
    let told := (start.run (SinkScript.sink { limit := some 3 }) acts).1
    let reached := (start.run (SinkScript.sink { limit := some 3 }) acts).2
    reached.stage = .ended (.ok ()) ∧ (fates told).map Prod.snd = [false, true, true] ∧
      (fates told).map Prod.fst ++ reached.link.outbound.items = accepted told ∧
      reached.state.written = Frame.assemble 2 [0x31] ++ Frame.assemble 3 [0x31] := by
  intro start acts told reached
  have hstage : reached.stage = .ended (.ok ()) := by decide +kernel
  have hfates : (fates told).map Prod.snd = [false, true, true] := by decide +kernel
  have hkept : (kept told).flatten = Frame.assemble 2 [0x31] ++ Frame.assemble 3 [0x31] := by
    decide +kernel
  obtain ⟨_, _, _, _, hended, _⟩ := task_writes_history (SinkScript.reliable (by decide : 0 < 3))
    { outboundCapacity := 1 } {} acts
  obtain ⟨_, _, hconserves, hwritten, _⟩ := hended (.ok ()) hstage
  exact ⟨hstage, hfates, hconserves, hwritten.trans hkept⟩

/-- The task looks and finds nothing.  Then a frame is accepted and the link
is closed, and the task ends with success: the frame is still in the
backlog, and nothing was written. -/
theorem accepted_frame_left_behind :
    let start : Task SinkRecord := ⟨.ofConfig {}, .asking, false, {}⟩
    let acts := [.turn, .send (.raw [0x31] 1), .close, .turn]
    let told := (start.run (SinkScript.sink {}) acts).1
    let reached := (start.run (SinkScript.sink {}) acts).2
    reached.stage = .ended (.ok ()) ∧ accepted told = [Frame.assemble 1 [0x31]] ∧
      reached.link.outbound.items = [Frame.assemble 1 [0x31]] ∧ reached.state.written = [] := by
  decide +kernel

end TestRig.Transport
