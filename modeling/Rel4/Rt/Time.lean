import Mathlib.Data.List.FinRange

/-!
The runtime's timers, and the sleeping futures and workers that use them.

Every access to the clock and every section under the timer table's spin lock is one move.
-/

namespace Rel4.Rt

/-- Places in the timer table. -/
def maxTimers : Nat := 96

/-- A place in the timer table. -/
abbrev TimerSlot : Type := Fin maxTimers

/-- An entry of the timer table. -/
structure Timer (Task : Type) where
  active : Bool
  deadline : Nat
  waker : Option Task
deriving DecidableEq

namespace Timer

variable {Task : Type}

def empty : Timer Task where
  active := false
  deadline := 0
  waker := none

/-- The entry is in use, and its time has come. -/
def expired (ticks : Nat) (timer : Timer Task) : Bool := timer.active && decide (timer.deadline ≤ ticks)

/-- The entry, free again. -/
def release (timer : Timer Task) : Timer Task := { timer with active := false, waker := none }

end Timer

/-- A future that sleeps until a deadline, with the place in the table it remembers. -/
structure SleepUntil where
  deadline : Nat
  slot : Option TimerSlot
deriving DecidableEq

/-- What becomes of a future. -/
inductive SleepStage
  /-- There is no such future: not yet, or it has completed or been dropped. -/
  | absent
  /-- Made, and not polled yet. -/
  | fresh
  | polling
  | pending
deriving DecidableEq

/-- What a worker thread is in the middle of. -/
inductive TimeWork (Sleeper Task : Type)
  | idle
  /-- It polls the future for a task; the deadline was not reached. -/
  | checked (sleeper : Sleeper)
  /-- It polls the future, which has been given a place or has kept its own. -/
  | registered (sleeper : Sleeper)
  /-- It polls the future and has found the deadline reached. -/
  | due (sleeper : Sleeper)
  /-- It advances the clock, after the store. -/
  | stored (ticks : Nat)
  /-- It advances the clock, with these wakers still to wake. -/
  | waking (ready : List Task)
deriving DecidableEq

/-- The clock and the timers, with the futures that sleep and the workers that poll them. -/
structure TimeSystem (Sleeper Task Worker : Type) where
  now : Nat
  timers : TimerSlot → Timer Task
  sleepers : Sleeper → SleepUntil
  stages : Sleeper → SleepStage
  /-- The task that polled the future last. -/
  tasks : Sleeper → Task
  /-- That task has been woken since the poll began. -/
  woken : Sleeper → Bool
  workers : Worker → TimeWork Sleeper Task
  /-- Pending since the worker began to advance the clock, in the table then, and due then. -/
  owed : Worker → Sleeper → Bool

/-- What a worker can do next. -/
inductive TimeMove (Sleeper Task Worker : Type)
  | sleepUntil (sleeper : Sleeper) (deadline : Nat)
  | poll (worker : Worker) (sleeper : Sleeper) (task : Task)
  | register (worker : Worker)
  | recheck (worker : Worker)
  | complete (worker : Worker)
  | drop (sleeper : Sleeper)
  | advance (worker : Worker) (ticks : Nat)
  | expire (worker : Worker)
  | wake (worker : Worker)
deriving DecidableEq

namespace TimeSystem

variable {Sleeper Task Worker : Type} [DecidableEq Sleeper] [DecidableEq Task] [DecidableEq Worker]

/-- Time zero, before any future is made. -/
def start (task : Task) : TimeSystem Sleeper Task Worker where
  now := 0
  timers _ := .empty
  sleepers _ := { deadline := 0, slot := none }
  stages _ := .absent
  tasks _ := task
  woken _ := false
  workers _ := .idle
  owed _ _ := false

variable (s : TimeSystem Sleeper Task Worker)

def setWorker (worker : Worker) (work : TimeWork Sleeper Task) : TimeSystem Sleeper Task Worker :=
  { s with workers := Function.update s.workers worker work }

def setStage (sleeper : Sleeper) (stage : SleepStage) : TimeSystem Sleeper Task Worker :=
  { s with stages := Function.update s.stages sleeper stage }

def setSleeper (sleeper : Sleeper) (future : SleepUntil) : TimeSystem Sleeper Task Worker :=
  { s with sleepers := Function.update s.sleepers sleeper future }

def setTimer (slot : TimerSlot) (timer : Timer Task) : TimeSystem Sleeper Task Worker :=
  { s with timers := Function.update s.timers slot timer }

/-- Wake a task: every future it polled last hears of it. -/
def wakeTask (task : Task) : TimeSystem Sleeper Task Worker :=
  { s with woken := fun sleeper => s.woken sleeper || decide (s.tasks sleeper = task) }

/-- No call that advances the clock owes this future anything any more. -/
def forgive (sleeper : Sleeper) : TimeSystem Sleeper Task Worker :=
  { s with owed := fun worker other => s.owed worker other && decide (other ≠ sleeper) }

/-- The future gives its place back. -/
def releaseSlot (sleeper : Sleeper) : TimeSystem Sleeper Task Worker :=
  match (s.sleepers sleeper).slot with
  | some slot => (s.setSleeper sleeper { s.sleepers sleeper with slot := none }).setTimer slot
      (s.timers slot).release
  | none => s

/-- The first place of the table that is not in use. -/
def freeTimer : Option TimerSlot := (List.finRange maxTimers).find? fun slot => !(s.timers slot).active

/-- Take a place for the future; if there is none its task is woken at once. -/
def allocTimer (sleeper : Sleeper) : TimeSystem Sleeper Task Worker :=
  match s.freeTimer with
  | some slot =>
    (s.setSleeper sleeper { s.sleepers sleeper with slot := some slot }).setTimer slot
      { active := true, deadline := (s.sleepers sleeper).deadline, waker := some (s.tasks sleeper) }
  | none => s.wakeTask (s.tasks sleeper)

/-- Bring the future's entry up to date, if it is still in use. -/
def refreshTimer (sleeper : Sleeper) (slot : TimerSlot) : TimeSystem Sleeper Task Worker :=
  if (s.timers slot).active then
    s.setTimer slot { s.timers slot with
      deadline := (s.sleepers sleeper).deadline
      waker := some (s.tasks sleeper) }
  else s

/-- From here on the future is the task's to poll, and a wake-up has yet to come. -/
def beginPoll (sleeper : Sleeper) (task : Task) : TimeSystem Sleeper Task Worker :=
  { (s.forgive sleeper).setStage sleeper .polling with
    tasks := Function.update s.tasks sleeper task
    woken := Function.update s.woken sleeper false }

/-- A poll begins with a look at the clock. -/
def poll (worker : Worker) (sleeper : Sleeper) (task : Task) : TimeSystem Sleeper Task Worker :=
  if (s.sleepers sleeper).deadline ≤ s.now then (s.beginPoll sleeper task).setWorker worker (.due sleeper)
  else (s.beginPoll sleeper task).setWorker worker (.checked sleeper)

/-- The poll makes sure that the future is in the table. -/
def register (worker : Worker) (sleeper : Sleeper) : TimeSystem Sleeper Task Worker :=
  match (s.sleepers sleeper).slot with
  | none => (s.allocTimer sleeper).setWorker worker (.registered sleeper)
  | some slot => (s.refreshTimer sleeper slot).setWorker worker (.registered sleeper)

/-- The poll looks at the clock again. -/
def recheck (worker : Worker) (sleeper : Sleeper) : TimeSystem Sleeper Task Worker :=
  if (s.sleepers sleeper).deadline ≤ s.now then s.setWorker worker (.due sleeper)
  else (s.setStage sleeper .pending).setWorker worker .idle

/-- The future gives its place back and is gone. -/
def finish (sleeper : Sleeper) : TimeSystem Sleeper Task Worker :=
  ((s.releaseSlot sleeper).forgive sleeper).setStage sleeper .absent

/-- A call that advances the clock stores the new time. -/
def advance (worker : Worker) (ticks : Nat) : TimeSystem Sleeper Task Worker :=
  { s.setWorker worker (.stored ticks) with
    now := ticks
    owed := Function.update s.owed worker fun sleeper =>
      s.stages sleeper = .pending && (s.sleepers sleeper).slot.isSome &&
        decide ((s.sleepers sleeper).deadline ≤ ticks) }

/-- It frees the entries whose time has come and takes their wakers. -/
def expire (worker : Worker) (ticks : Nat) : TimeSystem Sleeper Task Worker :=
  { s with
    timers := fun slot =>
      if (s.timers slot).expired ticks then (s.timers slot).release else s.timers slot
    workers := Function.update s.workers worker (.waking ((List.finRange maxTimers).filterMap fun slot =>
      if (s.timers slot).expired ticks then (s.timers slot).waker else none)) }

/-- One move, if it can be made; only one worker polls a future at once. -/
def step : TimeMove Sleeper Task Worker → Option (TimeSystem Sleeper Task Worker)
  | .sleepUntil sleeper deadline =>
    if s.stages sleeper = .absent then
      some ((s.setSleeper sleeper { deadline, slot := none }).setStage sleeper .fresh)
    else none
  | .poll worker sleeper task =>
    if s.workers worker = .idle ∧ (s.stages sleeper = .fresh ∨ s.stages sleeper = .pending) then
      some (s.poll worker sleeper task)
    else none
  | .register worker =>
    match s.workers worker with
    | .checked sleeper => some (s.register worker sleeper)
    | _ => none
  | .recheck worker =>
    match s.workers worker with
    | .registered sleeper => some (s.recheck worker sleeper)
    | _ => none
  | .complete worker =>
    match s.workers worker with
    | .due sleeper => some ((s.finish sleeper).setWorker worker .idle)
    | _ => none
  | .drop sleeper =>
    if s.stages sleeper = .fresh ∨ s.stages sleeper = .pending then some (s.finish sleeper) else none
  | .advance worker ticks =>
    if s.workers worker = .idle then some (s.advance worker ticks) else none
  | .expire worker =>
    match s.workers worker with
    | .stored ticks => some (s.expire worker ticks)
    | _ => none
  | .wake worker =>
    match s.workers worker with
    | .waking (task :: rest) => some ((s.wakeTask task).setWorker worker (.waking rest))
    | .waking [] => some (s.setWorker worker .idle)
    | _ => none

end TimeSystem

end Rel4.Rt
