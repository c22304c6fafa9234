import Rel4.Host.Process

/-!
The reactor, the tasks that carry out the calls of processes, and the threads of the host that poll them.

Moves of different threads may alternate wherever no lock is held. The gate to the file server is not here:
tasks that need it may go on in any order.
-/

namespace Rel4.Host

/-- The worker threads of the host, besides the main one. -/
def numWorkerThreads : Nat := 1

/-- How far the task of a call has come. -/
inductive TaskStage
  | spawned
  /-- `process_fault` has found the process. -/
  | looked
  /-- A fault that was not handled; the process is to be killed. -/
  | faulted
  | returned (ret : Int)
  /-- What to send is decided: an answer, or a stop. -/
  | answering (ok : Bool)
  | sent
deriving DecidableEq

/-- A task can be left where it waits for a lock, a reply or the time. -/
def TaskStage.waits : TaskStage → Bool
  | .looked | .faulted => true
  | _ => false

/-- A task. A thread may be polling it. -/
structure HostTask where
  pid : Nat
  request : Request
  stage : TaskStage
  polled : Bool
deriving DecidableEq

/-- Where the main thread is in `reactor_idle`. -/
inductive Reactor
  | idle
  /-- It has a slot, and waits for a message. -/
  | holding (slot : Nat)
  | received (slot pid : Nat) (request : Request)
deriving DecidableEq

/-- The slot that the reactor has. -/
def Reactor.slot : Reactor → Option Nat
  | .idle => none
  | .holding slot | .received slot _ _ => some slot

/-- The table, the reactor, the tasks by their slots, and what each thread polls; the main one is `none`. -/
structure HostSystem (Worker : Type) where
  host : Processes
  reactor : Reactor
  tasks : Nat → Option HostTask
  polling : Option Worker → Option Nat

/-- What the memory side and the file server answer. -/
structure Answers where
  copies : Copies
  room : ForkRoom
  /-- A fault was for a page that is mapped on demand. -/
  handled : Bool
  /-- What another call returns. -/
  ret : Int

/-- What can happen next. -/
inductive HostMove (Worker : Type)
  | call (pid : Nat) (request : Request)
  | acquire
  | recv (pid : Nat)
  /-- A reply of the file server or a tick. -/
  | recvOther
  | spawn
  | poll (thread : Option Worker) (slot : Nat)
  /-- The task has to wait. -/
  | rest (thread : Option Worker)
  | look (thread : Option Worker)
  /-- The section of the call itself. -/
  | act (thread : Option Worker) (answers : Answers)
  | check (thread : Option Worker)
  | send (thread : Option Worker)
  | release (thread : Option Worker)

/-- The slots of the pool as `init` gets them from the allocator. -/
structure ReplySlots where
  slots : List Nat
  length_eq : slots.length = maxFaultReplyCaps
  nodup : slots.Nodup
  nonzero : 0 ∉ slots

/-- The table with `init` in it. -/
def Processes.start (caps : ReplySlots) : Processes where
  procs := Function.update (fun _ => .empty) ⟨0, by decide⟩ (.create 1 0)
  nextPid := 2
  pool := { all := caps.slots, free := caps.slots.reverse }
  threads := Function.update (fun _ => .stopped) 1 .running
  halted := none
  ended := []
  reaps := []

/-- What is done with the entry of a process, if there is one. -/
def Processes.onProc (s : Processes) (pid : Nat) (f : Fin maxProcs → Processes × Option SyscallResult) :
    Processes × Option SyscallResult :=
  match s.findProc pid with
  | none => (s, some (.reply (-esrch)))
  | some i => f i

/-- What a call does under the host lock. No result means that a fault was not handled yet. -/
def Processes.act (s : Processes) (slot : Nat) (task : HostTask) (answers : Answers) :
    Processes × Option SyscallResult :=
  match task.request with
  | .other => (s, some (.reply answers.ret))
  | .fork => s.onProc task.pid fun i => (s.sysFork answers.room i).map id some
  | .exit status => s.onProc task.pid fun i => (s.sysExit answers.copies i status).map id some
  | .kill pid => (s.sysKill answers.copies pid).map id some
  | .wait4 pid ptr nohang =>
    s.onProc task.pid fun i => (s.waitCommon answers.copies i pid ptr nohang slot).map id some
  | .fault =>
    s.onProc task.pid fun i =>
      if task.stage = .faulted then (s.faultKill answers.copies i).map id some
      else if answers.handled then (s, some (.reply 0))
      else (s, none)

namespace HostSystem

variable {Worker : Type} [DecidableEq Worker]

def start (caps : ReplySlots) : HostSystem Worker where
  host := .start caps
  reactor := .idle
  tasks _ := none
  polling _ := none

variable (s : HostSystem Worker)

def setTask (slot : Nat) (task : Option HostTask) : HostSystem Worker :=
  { s with tasks := Function.update s.tasks slot task }

def setPolling (thread : Option Worker) (slot : Option Nat) : HostSystem Worker :=
  { s with polling := Function.update s.polling thread slot }

/-- A thread leaves its task, which is over. -/
def dropTask (thread : Option Worker) (slot : Nat) : HostSystem Worker :=
  (s.setTask slot none).setPolling thread none

/-- What a thread does with the task it polls. -/
def onTask (thread : Option Worker) (f : Nat → HostTask → Option (HostSystem Worker)) :
    Option (HostSystem Worker) :=
  match s.polling thread with
  | none => none
  | some slot =>
    match s.tasks slot with
    | none => none
    | some task => f slot task

/-- One move, if it can be made. -/
def step (move : HostMove Worker) : Option (HostSystem Worker) :=
  if s.host.halted ≠ none then none
  else
    match move with
    | .call pid request =>
      if s.host.threads pid = .running then
        some { s with host := { s.host with threads := Function.update s.host.threads pid (.sending request) } }
      else none
    | .acquire =>
      -- The main thread polls before it is idle.
      if s.reactor = .idle ∧ s.polling none = none then
        match s.host.acquire with
        | (host, none) => some { s with host }
        | (host, some slot) => some { s with host, reactor := .holding slot }
      else none
    | .recv pid =>
      match s.reactor, s.host.threads pid with
      | .holding slot, .sending request =>
        some { s with
          host := { s.host with threads := Function.update s.host.threads pid (.awaiting slot) }
          reactor := .received slot pid request }
      | _, _ => none
    | .recvOther =>
      match s.reactor with
      | .holding slot => some { s with host := s.host.release slot, reactor := .idle }
      | _ => none
    | .spawn =>
      match s.reactor with
      | .received slot pid request =>
        some { s.setTask slot (some { pid, request, stage := .spawned, polled := false }) with reactor := .idle }
      | _ => none
    | .poll thread slot =>
      match s.polling thread, s.tasks slot with
      | none, some task =>
        if task.polled = false ∧ (thread = none → s.reactor = .idle) then
          some ((s.setTask slot (some { task with polled := true })).setPolling thread (some slot))
        else none
      | _, _ => none
    | .rest thread =>
      s.onTask thread fun slot task =>
        if task.stage.waits then
          some ((s.setTask slot (some { task with polled := false })).setPolling thread none)
        else none
    | .look thread =>
      s.onTask thread fun slot task =>
        if task.stage = .spawned then
          match s.host.findProc task.pid with
          | none => some { s with host := s.host.halt .unknownPid }
          | some _ => some (s.setTask slot (some { task with stage := .looked }))
        else none
    | .act thread answers =>
      s.onTask thread fun slot task =>
        if task.stage = .looked ∨ task.stage = .faulted then
          match s.host.act slot task answers with
          | (host, none) => some ({ s with host }.setTask slot (some { task with stage := .faulted }))
          | (host, some (.reply ret)) =>
            some ({ s with host }.setTask slot (some { task with stage := .returned ret }))
          | (host, some .stop) =>
            some ({ s with host }.setTask slot (some { task with stage := .answering false }))
          | (host, some .block) => some ({ s with host }.dropTask thread slot)
        else none
    | .check thread =>
      s.onTask thread fun slot task =>
        match task.stage with
        | .returned _ =>
          some (s.setTask slot (some { task with stage := .answering (s.host.processCanReply task.pid) }))
        | _ => none
    | .send thread =>
      s.onTask thread fun slot task =>
        match task.stage with
        | .answering ok => some ({ s with host := s.host.send slot ok }.setTask slot (some { task with stage := .sent }))
        | _ => none
    | .release thread =>
      s.onTask thread fun slot task =>
        match task.stage with
        | .sent => some ({ s with host := s.host.release slot }.dropTask thread slot)
        | _ => none

end HostSystem

end Rel4.Host
