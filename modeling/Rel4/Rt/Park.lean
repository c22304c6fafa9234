import Rel4.Rt.Executor

/-!
How the runtime's workers go to sleep and are woken.

Every atomic access, every section under the ready queue's spin lock and every call of the kernel is one
move. What a worker does with a task it has taken is left open: the calls of `enqueue` it makes are made by
callers of their own.
-/

namespace Rel4.Rt

/-- How far a worker has come in `worker_loop`. -/
inductive ParkStage
  /-- It polls tasks. -/
  | polling
  /-- `poll_one` has found no task. -/
  | starved
  /-- It has counted itself among the parked workers. -/
  | counted
  /-- It has found the ready queue empty, and is about to wait. -/
  | drowsy
  /-- It waits for the notification. -/
  | blocked
  /-- It has found tasks, or its wait is over; it has to leave the parked workers. -/
  | leaving
deriving DecidableEq

/-- Counted among the parked workers. -/
def ParkStage.parked : ParkStage → Bool
  | .polling | .starved => false
  | .counted | .drowsy | .blocked | .leaving => true

/-- How far a call of `enqueue` has come. -/
inductive EnqueueStage
  | idle
  /-- It has pushed its task, and has not looked for parked workers. -/
  | pushed
  /-- It has seen a parked worker. -/
  | signalling
deriving DecidableEq

/-- The ready queue, the counter of parked workers, the notification they wait for, and how far everybody
has come. -/
structure ParkSystem (Worker Caller : Type) where
  queue : List Token
  parked : Nat
  /-- The capability of the notification, or zero. -/
  wakeNtfn : Nat
  /-- A signal that nobody has taken yet. -/
  active : Bool
  waiters : List Worker
  workers : Worker → ParkStage
  callers : Caller → EnqueueStage

/-- What a thread can do next. -/
inductive ParkMove (Worker Caller : Type)
  /-- `enqueue` pushes a task. -/
  | push (caller : Caller) (token : Token)
  /-- `signal_workers` looks for parked workers. -/
  | look (caller : Caller)
  /-- `signal_workers` signals the notification. -/
  | signal (caller : Caller)
  /-- A thread that is no worker takes a task. -/
  | take
  /-- A worker calls `poll_one`. -/
  | poll (worker : Worker)
  | count (worker : Worker)
  /-- A worker reads the length of the ready queue. -/
  | check (worker : Worker)
  | wait (worker : Worker)
  | leave (worker : Worker)
deriving DecidableEq

namespace ParkSystem

variable {Worker Caller : Type} [DecidableEq Worker] [DecidableEq Caller]

/-- Nothing is queued and no worker has parked yet. -/
def start (wakeNtfn : Nat) : ParkSystem Worker Caller where
  queue := []
  parked := 0
  wakeNtfn
  active := false
  waiters := []
  workers _ := .polling
  callers _ := .idle

variable (s : ParkSystem Worker Caller)

def setWorker (worker : Worker) (stage : ParkStage) : ParkSystem Worker Caller :=
  { s with workers := Function.update s.workers worker stage }

def setCaller (caller : Caller) (stage : EnqueueStage) : ParkSystem Worker Caller :=
  { s with callers := Function.update s.callers caller stage }

/-- The kernel wakes the first worker that waits, or keeps the signal. -/
def signal : ParkSystem Worker Caller :=
  match s.waiters with
  | worker :: rest => { s.setWorker worker .leaving with waiters := rest }
  | [] => { s with active := true }

/-- The kernel hands out a signal that it has kept, or lets the worker wait. -/
def wait (worker : Worker) : ParkSystem Worker Caller :=
  if s.active then { s.setWorker worker .leaving with active := false }
  else { s.setWorker worker .blocked with waiters := s.waiters ++ [worker] }

/-- One move of one thread, if it can make it. A full ready queue makes a caller try again. -/
def step : ParkMove Worker Caller → Option (ParkSystem Worker Caller)
  | .push caller token =>
    if s.callers caller = .idle ∧ s.queue.length < maxTasks then
      some { s.setCaller caller .pushed with queue := s.queue ++ [token] }
    else none
  | .look caller =>
    if s.callers caller = .pushed then
      some (s.setCaller caller (if s.parked = 0 then .idle else .signalling))
    else none
  | .signal caller =>
    if s.callers caller = .signalling then
      some (if s.wakeNtfn ≠ 0 then (s.setCaller caller .idle).signal else s.setCaller caller .idle)
    else none
  | .take => some { s with queue := s.queue.tail }
  | .poll worker =>
    if s.workers worker = .polling then
      match s.queue with
      | [] => some (s.setWorker worker .starved)
      | _ :: rest => some { s with queue := rest }
    else none
  | .count worker =>
    if s.workers worker = .starved then
      some { s.setWorker worker .counted with parked := s.parked + 1 }
    else none
  | .check worker =>
    if s.workers worker = .counted then
      some (s.setWorker worker (if s.queue.length ≠ 0 then .leaving else .drowsy))
    else none
  | .wait worker =>
    if s.workers worker = .drowsy then
      -- Without a notification the worker only yields.
      some (if s.wakeNtfn ≠ 0 then s.wait worker else s.setWorker worker .leaving)
    else none
  | .leave worker =>
    if s.workers worker = .leaving then
      some { s.setWorker worker .polling with parked := s.parked - 1 }
    else none

end ParkSystem

end Rel4.Rt
