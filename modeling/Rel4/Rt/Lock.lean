import Mathlib.Logic.Function.Basic

/-!
The runtime's async lock, and the tasks and workers that use it.

Every atomic access and every section under the waiter table's spin lock is one move.
-/

namespace Rel4.Rt

/-- Places in the waiter table of a lock. -/
def maxLockWaiters : Nat := 96

/-- An async lock: whether it is taken, and the wakers of tasks that wait for it. -/
structure AsyncLock (Task : Type) where
  locked : Bool
  wakers : List (Option Task)
deriving DecidableEq

namespace AsyncLock

variable {Task : Type}

/-- A free lock nobody waits for. -/
def new : AsyncLock Task where
  locked := false
  wakers := List.replicate maxLockWaiters none

/-- The table with a waker in its first free place, or nothing if no place is free. -/
def putWaker (waker : Task) : List (Option Task) → Option (List (Option Task))
  | [] => none
  | none :: rest => some (some waker :: rest)
  | some other :: rest => (putWaker waker rest).map (some other :: ·)

/-- The first waker of the table, and the table without it. -/
def takeWaker : List (Option Task) → Option (Task × List (Option Task))
  | [] => none
  | none :: rest => (takeWaker rest).map fun (waker, rest) => (waker, none :: rest)
  | some waker :: rest => some (waker, none :: rest)

end AsyncLock

/-- How far a task's call of `lock` has come. -/
inductive LockStage
  /-- The task is not in `lock`: it has not called it, or its call has returned a guard. -/
  | away
  | polling
  | pending
deriving DecidableEq

/-- What a worker thread is in the middle of. -/
inductive LockWork (Task : Type)
  | idle
  /-- It polls for the task; the first attempt has failed. -/
  | tried (task : Task)
  /-- It polls for the task, whose waker has been registered. -/
  | registered (task : Task)
  /-- It is in `release`, after the store that frees the lock. -/
  | released
  /-- It is in `release`, with a waker in hand. -/
  | waking (task : Task)
deriving DecidableEq

/-- Inside `release`, and not done. -/
def LockWork.releasing {Task : Type} : LockWork Task → Bool
  | .released | .waking _ => true
  | _ => false

/-- A lock with its tasks, the workers that poll them, and the guards that exist. -/
structure LockSystem (Task Worker : Type) where
  lock : AsyncLock Task
  stages : Task → LockStage
  /-- The task has been woken since its last poll began. -/
  woken : Task → Bool
  workers : Worker → LockWork Task
  guards : Nat

/-- What a worker can do next. -/
inductive LockMove (Task Worker : Type)
  | poll (worker : Worker) (task : Task)
  | register (worker : Worker)
  | retry (worker : Worker)
  | dropGuard (worker : Worker)
  | takeWaker (worker : Worker)
  | wake (worker : Worker)
deriving DecidableEq

namespace LockSystem

variable {Task Worker : Type} [DecidableEq Task] [DecidableEq Worker]

/-- A new lock that no task has called yet. -/
def start : LockSystem Task Worker where
  lock := .new
  stages _ := .away
  woken _ := false
  workers _ := .idle
  guards := 0

variable (s : LockSystem Task Worker)

def setWorker (worker : Worker) (work : LockWork Task) : LockSystem Task Worker :=
  { s with workers := Function.update s.workers worker work }

def setStage (task : Task) (stage : LockStage) : LockSystem Task Worker :=
  { s with stages := Function.update s.stages task stage }

def setWoken (task : Task) (woken : Bool) : LockSystem Task Worker :=
  { s with woken := Function.update s.woken task woken }

def setWakers (wakers : List (Option Task)) : LockSystem Task Worker :=
  { s with lock := { s.lock with wakers } }

/-- The free lock becomes the task's: its poll is ready with a guard. -/
def acquire (worker : Worker) (task : Task) : LockSystem Task Worker :=
  { (s.setStage task .away).setWorker worker .idle with
    lock := { s.lock with locked := true }
    guards := s.guards + 1 }

/-- A poll begins with an attempt to take the lock. -/
def poll (worker : Worker) (task : Task) : LockSystem Task Worker :=
  let s := s.setWoken task false
  if s.lock.locked then (s.setStage task .polling).setWorker worker (.tried task)
  else s.acquire worker task

/-- The waker goes into the table; if that is full the task is woken at once. -/
def register (worker : Worker) (task : Task) : LockSystem Task Worker :=
  let s := s.setWorker worker (.registered task)
  match AsyncLock.putWaker task s.lock.wakers with
  | some wakers => s.setWakers wakers
  | none => s.setWoken task true

/-- The second attempt of a poll. -/
def retry (worker : Worker) (task : Task) : LockSystem Task Worker :=
  if s.lock.locked then (s.setStage task .pending).setWorker worker .idle
  else s.acquire worker task

/-- A guard is dropped: `release` stores that the lock is free. -/
def dropGuard (worker : Worker) : LockSystem Task Worker :=
  { s.setWorker worker .released with
    lock := { s.lock with locked := false }
    guards := s.guards - 1 }

/-- `wake_one` takes a waker out of the table. -/
def takeWaker (worker : Worker) : LockSystem Task Worker :=
  match AsyncLock.takeWaker s.lock.wakers with
  | some (task, wakers) => (s.setWakers wakers).setWorker worker (.waking task)
  | none => s.setWorker worker .idle

/-- `wake_one` wakes the task whose waker it took. -/
def wake (worker : Worker) (task : Task) : LockSystem Task Worker :=
  (s.setWoken task true).setWorker worker .idle

/--
One move of one worker, if it can make it.

A task that is pending may be polled at any time, woken or not; only one worker polls it at once.
-/
def step : LockMove Task Worker → Option (LockSystem Task Worker)
  | .poll worker task =>
    if s.workers worker = .idle ∧ s.stages task ≠ .polling then some (s.poll worker task) else none
  | .register worker =>
    match s.workers worker with
    | .tried task => some (s.register worker task)
    | _ => none
  | .retry worker =>
    match s.workers worker with
    | .registered task => some (s.retry worker task)
    | _ => none
  | .dropGuard worker =>
    if s.workers worker = .idle ∧ 0 < s.guards then some (s.dropGuard worker) else none
  | .takeWaker worker =>
    match s.workers worker with
    | .released => some (s.takeWaker worker)
    | _ => none
  | .wake worker =>
    match s.workers worker with
    | .waking task => some (s.wake worker task)
    | _ => none

end LockSystem

end Rel4.Rt
