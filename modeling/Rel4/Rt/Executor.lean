import Mathlib.Algebra.Group.Nat.Defs
import Mathlib.Data.Fintype.Basic

/-!
The runtime's task executor: slots, wakers, the ready queue, and the threads that use them.

Every atomic access and every section under the ready queue's spin lock is one move. A call that a
future makes while it is polled counts as a thread of its own.
-/

namespace Rel4.Rt

/-- Slots for tasks, and places in the ready queue. -/
def maxTasks : Nat := 96

abbrev TaskId : Type := Fin maxTasks

/-- The state word of a slot. -/
inductive SlotState
  | empty
  | ready
  | running
  | waiting
deriving DecidableEq

/-- A slot, without the future's own storage: of its functions only whether they are there. -/
structure TaskSlot where
  state : SlotState
  /-- A 32-bit counter. -/
  generation : Nat
  pollFn : Bool
  dropFn : Bool
deriving DecidableEq

def TaskSlot.empty : TaskSlot where
  state := .empty
  generation := 1
  pollFn := false
  dropFn := false

/-- A slot with a generation of it: what the ready queue holds, and what a waker knows. -/
structure Token where
  slot : TaskId
  generation : Nat
deriving DecidableEq

/-- What a thread is in the middle of. -/
inductive ExecWork
  | idle
  /-- `spawn` looks for a free slot, this one next. -/
  | allocating (slot : TaskId)
  /-- `spawn` has found no slot and stops for good. -/
  | halted
  /-- `spawn` has a slot. -/
  | allocated (slot : TaskId)
  /-- `spawn` has stored the poll function. -/
  | storedPoll (slot : TaskId)
  /-- `spawn` has stored the drop function too. -/
  | storedDrop (slot : TaskId)
  /-- `spawn` has read the slot's generation. -/
  | loaded (token : Token)
  /-- The slot has been made ready, and its token has to be queued. -/
  | enqueuing (token : Token)
  /-- `wake_task` has been called. -/
  | waking (token : Token)
  /-- `wake_task` has found the generation current. -/
  | current (token : Token)
  /-- `wake_task` has read the state. -/
  | seen (token : Token) (state : SlotState)
  /-- `poll_one` has taken a token. -/
  | dequeued (token : Token)
  /-- `poll_one` has found the generation current. -/
  | matched (token : Token)
  /-- `poll_one` has made the slot run. -/
  | running (token : Token)
  /-- The future is being polled. -/
  | polling (token : Token)
  /-- The future is pending. -/
  | pended (token : Token)
  /-- The future is done. -/
  | finished (token : Token)
  /-- The future has been dropped. -/
  | dropped (token : Token)
  /-- The poll function has been cleared. -/
  | clearedPoll (token : Token)
  /-- The drop function has been cleared too. -/
  | clearedDrop (token : Token)
  /-- The slot's generation has moved on. -/
  | aged (slot : TaskId)
deriving DecidableEq

/-- The executor, the wakers it has handed out, and what each thread is doing. -/
structure Executor (Thread : Type) where
  tasks : TaskId → TaskSlot
  queue : List Token
  wakers : List Token
  threads : Thread → ExecWork

/-- What a thread can do next. -/
inductive ExecMove (Thread : Type)
  | spawn (thread : Thread)
  | wake (thread : Thread) (waker : Token)
  | pollOne (thread : Thread)
  /-- Go on with what the thread is in the middle of. -/
  | go (thread : Thread)
  /-- The poll ends; the future is done or pending. -/
  | polled (thread : Thread) (done : Bool)
deriving DecidableEq

namespace Executor

variable {Thread : Type} [DecidableEq Thread]

/-- An executor without tasks. -/
def start : Executor Thread where
  tasks _ := .empty
  queue := []
  wakers := []
  threads _ := .idle

variable (s : Executor Thread)

def setThread (thread : Thread) (work : ExecWork) : Executor Thread :=
  { s with threads := Function.update s.threads thread work }

def setTask (slot : TaskId) (task : TaskSlot) : Executor Thread :=
  { s with tasks := Function.update s.tasks slot task }

def setState (slot : TaskId) (state : SlotState) : Executor Thread :=
  s.setTask slot { s.tasks slot with state }

/-- `alloc_slot` tries a slot, and goes on to the next one if it is in use. -/
def tryAlloc (thread : Thread) (slot : TaskId) : Executor Thread :=
  if (s.tasks slot).state = .empty then (s.setState slot .ready).setThread thread (.allocated slot)
  else if next : slot.val + 1 < maxTasks then s.setThread thread (.allocating ⟨slot.val + 1, next⟩)
  else s.setThread thread .halted

/-- `wake_task` looks at the state of a slot whose generation it has found current. -/
def lookAt (thread : Thread) (token : Token) : Executor Thread :=
  match (s.tasks token.slot).state with
  | .waiting => s.setThread thread (.seen token .waiting)
  | .running => s.setThread thread (.seen token .running)
  | .ready | .empty => s.setThread thread .idle

/-- `wake_task` makes the slot ready, if it is still in the state that was read. -/
def makeReady (thread : Thread) (token : Token) (state : SlotState) : Executor Thread :=
  if (s.tasks token.slot).state = state then
    (s.setState token.slot .ready).setThread thread
      (if state = .waiting then .enqueuing token else .idle)
  else s.setThread thread (.current token)

/-- `poll_one` makes a ready slot run. -/
def startRunning (thread : Thread) (token : Token) : Executor Thread :=
  if (s.tasks token.slot).state = .ready then
    (s.setState token.slot .running).setThread thread (.running token)
  else s.setThread thread .idle

/-- `poll_one` polls the future, for which it makes a waker; a slot without one is emptied. -/
def startPolling (thread : Thread) (token : Token) : Executor Thread :=
  if (s.tasks token.slot).pollFn then
    { s.setThread thread (.polling token) with wakers := token :: s.wakers }
  else (s.setState token.slot .empty).setThread thread .idle

/-- A pending task waits, unless it has been woken while it was polled. -/
def startWaiting (thread : Thread) (token : Token) : Executor Thread :=
  match (s.tasks token.slot).state with
  | .running => (s.setState token.slot .waiting).setThread thread .idle
  | .ready => s.setThread thread (.enqueuing token)
  | .empty | .waiting => s.setThread thread .idle

/-- The slot's generation moves on, round a 32-bit counter. -/
def age (thread : Thread) (token : Token) : Executor Thread :=
  (s.setTask token.slot { s.tasks token.slot with
    generation := ((s.tasks token.slot).generation + 1) % 2 ^ 32 }).setThread thread (.aged token.slot)

/-- Go on with what a thread is in the middle of; a full queue makes it wait. -/
def go (thread : Thread) : Option (Executor Thread) :=
  match s.threads thread with
  | .idle | .halted | .polling _ => none
  | .allocating slot => some (s.tryAlloc thread slot)
  | .allocated slot =>
    some ((s.setTask slot { s.tasks slot with pollFn := true }).setThread thread (.storedPoll slot))
  | .storedPoll slot =>
    some ((s.setTask slot { s.tasks slot with dropFn := true }).setThread thread (.storedDrop slot))
  | .storedDrop slot =>
    some (s.setThread thread (.loaded { slot, generation := (s.tasks slot).generation }))
  | .loaded token => some ((s.setState token.slot .ready).setThread thread (.enqueuing token))
  | .enqueuing token =>
    if s.queue.length < maxTasks then
      some { s.setThread thread .idle with queue := s.queue ++ [token] }
    else none
  | .waking token =>
    if (s.tasks token.slot).generation = token.generation then
      some (s.setThread thread (.current token))
    else some (s.setThread thread .idle)
  | .current token => some (s.lookAt thread token)
  | .seen token state => some (s.makeReady thread token state)
  | .dequeued token =>
    if (s.tasks token.slot).generation = token.generation then
      some (s.setThread thread (.matched token))
    else some (s.setThread thread .idle)
  | .matched token => some (s.startRunning thread token)
  | .running token => some (s.startPolling thread token)
  | .pended token => some (s.startWaiting thread token)
  | .finished token => some (s.setThread thread (.dropped token))
  | .dropped token =>
    some ((s.setTask token.slot { s.tasks token.slot with pollFn := false }).setThread thread
      (.clearedPoll token))
  | .clearedPoll token =>
    some ((s.setTask token.slot { s.tasks token.slot with dropFn := false }).setThread thread
      (.clearedDrop token))
  | .clearedDrop token => some (s.age thread token)
  | .aged slot => some ((s.setState slot .empty).setThread thread .idle)

/-- The first slot that `alloc_slot` tries. -/
def firstSlot : TaskId := ⟨0, by decide⟩

/-- One move of one thread, if it can make it. -/
def step : ExecMove Thread → Option (Executor Thread)
  | .spawn thread =>
    if s.threads thread = .idle then some (s.setThread thread (.allocating firstSlot)) else none
  | .wake thread waker =>
    if s.threads thread = .idle ∧ waker ∈ s.wakers then some (s.setThread thread (.waking waker))
    else none
  | .pollOne thread =>
    if s.threads thread = .idle then
      match s.queue with
      | [] => some s
      | token :: rest => some { s.setThread thread (.dequeued token) with queue := rest }
    else none
  | .go thread => s.go thread
  | .polled thread done =>
    match s.threads thread with
    | .polling token =>
      some (s.setThread thread (if done then .finished token else .pended token))
    | _ => none

end Executor

end Rel4.Rt
