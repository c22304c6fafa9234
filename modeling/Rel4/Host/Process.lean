import Mathlib.Data.List.FinRange

/-!
The host's process table, the pool of reply slots, and the system calls that change the table.

What happens under the host lock is one function. Whether a copy to a process succeeds, and whether there is
room for another process, are answers of the memory side.
-/

namespace Rel4.Host

def maxProcs : Nat := 64

def maxFaultReplyCaps : Nat := maxProcs + 8

def esrch : Int := 3
def echild : Int := 10
def eagain : Int := 11
def enomem : Int := 12
def efault : Int := 14
def einval : Int := 22

inductive ProcState
  | unused
  | runnable
  | zombie
  | waiting
deriving DecidableEq

/-- An entry of the table: who it is and whose child, how it ended, and the wait it is blocked in. -/
structure TaskStruct where
  pid : Nat
  parentPid : Nat
  state : ProcState
  exitStatus : Int
  waitStatusPtr : Nat
  waitPid : Int
  waitReplySlot : Nat
deriving DecidableEq

namespace TaskStruct

def empty : TaskStruct where
  pid := 0
  parentPid := 0
  state := .unused
  exitStatus := 0
  waitStatusPtr := 0
  waitPid := -1
  waitReplySlot := 0

/-- What `create_child` fills in. -/
def create (pid parentPid : Nat) : TaskStruct := { empty with pid, parentPid, state := .runnable }

def clearWaitBlock (p : TaskStruct) : TaskStruct :=
  { p with waitStatusPtr := 0, waitPid := -1, waitReplySlot := 0 }

end TaskStruct

/-- What a process asks for, as far as the table is concerned. -/
inductive Request
  | fork
  | exit (status : Int)
  | kill (pid : Int)
  | wait4 (pid : Int) (statusPtr : Nat) (nohang : Bool)
  /-- A fault of the process instead of a call. -/
  | fault
  /-- Any other call: reads, sleeps and `execve` among them. -/
  | other
deriving DecidableEq

/-- A process as the kernel sees it. -/
inductive Thread
  | running
  /-- It is queued at the fault endpoint. -/
  | sending (request : Request)
  /-- It waits for a reply, and the capability for it is in a slot of the host. -/
  | awaiting (slot : Nat)
  /-- It is suspended, or gone. -/
  | stopped
deriving DecidableEq

/-- Why the host has stopped. -/
inductive Halt
  | unknownPid
  | initEnded
  | outOfReplyCaps
  | foreignReplyCap
  | releasedTwice
  | poolOverflow
deriving DecidableEq

/-- The slots for reply capabilities; the next one to be handed out is first in `free`. -/
structure ReplyCapPool where
  all : List Nat
  free : List Nat

/-- A process has been reaped by a wait, which reports a status. -/
structure Reap where
  waiter : Nat
  pid : Nat
  status : Int
deriving DecidableEq

abbrev ProcTable := Fin maxProcs → TaskStruct

/-- The table, with what goes with it. -/
structure Processes where
  procs : ProcTable
  nextPid : Nat
  pool : ReplyCapPool
  threads : Nat → Thread
  halted : Option Halt
  /-- Every end of a process so far, with its status. -/
  ended : List (Nat × Int)
  /-- Every reaping so far. -/
  reaps : List Reap

/-- Whether `copy_to_child` writes to an address of a process. -/
abbrev Copies := Nat → Nat → Bool

/-- What `sys_fork` finds. -/
inductive ForkRoom
  | none
  /-- There is memory, but the file server does not take another reference. -/
  | noRefs
  | enough
deriving DecidableEq

inductive SyscallResult
  | reply (ret : Int)
  | stop
  | block
deriving DecidableEq

def linuxExitStatus (status : Int) : Int := status % 256 * 256

namespace Processes

variable (s : Processes)

def setProc (i : Fin maxProcs) (p : TaskStruct) : Processes := { s with procs := Function.update s.procs i p }

/-- The host stops for good, and the first reason counts. -/
def halt (why : Halt) : Processes := { s with halted := s.halted.or (some why) }

def findProc (pid : Nat) : Option (Fin maxProcs) :=
  (List.finRange maxProcs).find? fun i => (s.procs i).pid = pid ∧ (s.procs i).state ≠ .unused

def findFreeProc : Option (Fin maxProcs) :=
  (List.finRange maxProcs).find? fun i => (s.procs i).state = .unused

section ReplyCaps

/-- A slot from the pool; if there is none, the call does not return. -/
def acquire : Processes × Option Nat :=
  match s.pool.free with
  | [] => (s.halt .outOfReplyCaps, none)
  | slot :: free => ({ s with pool := { s.pool with free } }, some slot)

def release (slot : Nat) : Processes :=
  if slot = 0 then s
  else if slot ∉ s.pool.all then s.halt .foreignReplyCap
  else if slot ∈ s.pool.free then s.halt .releasedTwice
  else if maxFaultReplyCaps ≤ s.pool.free.length then s.halt .poolOverflow
  else { s with pool := { s.pool with free := slot :: s.pool.free } }

/-- A message through the capability in a slot, if there is one: its process runs again, or stops. -/
def send (slot : Nat) (resume : Bool) : Processes :=
  { s with threads := fun pid =>
      if s.threads pid = .awaiting slot then if resume then .running else .stopped else s.threads pid }

def sendAndRelease (slot : Nat) : Processes := (s.send slot true).release slot

def stopAndRelease (slot : Nat) : Processes := (s.send slot false).release slot

end ReplyCaps

/-- `TCB_Suspend`: the process is taken from the endpoint, and its reply capability is deleted. -/
def suspend (pid : Nat) : Processes := { s with threads := Function.update s.threads pid .stopped }

def dropBlockedReplyCaps (i : Fin maxProcs) : Processes :=
  if (s.procs i).waitReplySlot ≠ 0 then
    let s := s.stopAndRelease (s.procs i).waitReplySlot
    s.setProc i (s.procs i).clearWaitBlock
  else s

/-- The objects of a process go, and its entry is empty again. -/
def reapProcess (i : Fin maxProcs) (waiter : Nat) : Processes :=
  let child := s.procs i
  { (s.suspend child.pid).setProc i .empty with
    reaps := s.reaps ++ [{ waiter, pid := child.pid, status := child.exitStatus }] }

/-- The parent of a process that has ended, if it waits for it. -/
def waitingParent (child : Fin maxProcs) : Option (Fin maxProcs) :=
  (List.finRange maxProcs).find? fun i =>
    (s.procs i).pid = (s.procs child).parentPid ∧ (s.procs i).state = .waiting ∧
      (0 < (s.procs i).waitPid → (s.procs i).waitPid = (s.procs child).pid)

/-- The blocked call of a process is answered. -/
def answerWait (i : Fin maxProcs) : Processes :=
  let s := s.sendAndRelease (s.procs i).waitReplySlot
  s.setProc i { (s.procs i).clearWaitBlock with state := .runnable }

def replyWaitingParent (copies : Copies) (child : Fin maxProcs) : Processes :=
  match s.waitingParent child with
  | none => s
  | some i =>
    let parent := s.procs i
    let told := parent.waitStatusPtr = 0 ∨ copies parent.pid parent.waitStatusPtr
    -- A status that cannot be written leaves the child as it is.
    if told then (s.reapProcess child parent.pid).answerWait i else s.answerWait i

/-- One turn of the loop of `reparent_children`. -/
def reparentChild (copies : Copies) (exitingPid : Nat) (i : Fin maxProcs) : Processes :=
  if (s.procs i).parentPid = exitingPid ∧ (s.procs i).state ≠ .unused then
    let s := s.setProc i { s.procs i with parentPid := 1 }
    if (s.procs i).state = .zombie then s.replyWaitingParent copies i else s
  else s

def reparentChildren (copies : Copies) (exitingPid : Nat) : Processes :=
  (List.finRange maxProcs).foldl (fun s i => s.reparentChild copies exitingPid i) s

/-- A process has ended. -/
def zombify (i : Fin maxProcs) (status : Int) : Processes :=
  { s.setProc i { s.procs i with state := .zombie, exitStatus := status } with
    ended := s.ended ++ [((s.procs i).pid, status)] }

def makeZombieProcess (copies : Copies) (i : Fin maxProcs) (status : Int) : Processes :=
  let pid := (s.procs i).pid
  (((s.dropBlockedReplyCaps i).zombify i status).reparentChildren copies pid).replyWaitingParent copies i

section Calls

variable (copies : Copies)

def sysFork (room : ForkRoom) (parent : Fin maxProcs) : Processes × SyscallResult :=
  match s.findFreeProc with
  | none => (s, .reply (-eagain))
  | some i =>
    let pid := s.nextPid
    match room with
    | .none => (s, .reply (-enomem))
    -- The identifier is used up all the same.
    | .noRefs => ({ s with nextPid := pid + 1 }, .reply (-enomem))
    | .enough =>
      ({ s.setProc i (.create pid (s.procs parent).pid) with
          nextPid := pid + 1
          threads := Function.update s.threads pid .running }, .reply pid)

def sysExit (i : Fin maxProcs) (status : Int) : Processes × SyscallResult :=
  if (s.procs i).parentPid = 0 then (s.halt .initEnded, .stop)
  else (s.makeZombieProcess copies i (linuxExitStatus status), .stop)

def faultKill (i : Fin maxProcs) : Processes × SyscallResult :=
  if (s.procs i).parentPid = 0 then (s.halt .initEnded, .stop)
  else ((s.suspend (s.procs i).pid).makeZombieProcess copies i (linuxExitStatus 1), .stop)

def sysKill (pid : Int) : Processes × SyscallResult :=
  if pid ≤ 0 then (s, .reply (-esrch))
  else
    match s.findProc pid.toNat with
    | none => (s, .reply (-esrch))
    | some i => ((s.suspend (s.procs i).pid).makeZombieProcess copies i (linuxExitStatus 1), .reply 0)

/-- The entries that a wait is about. -/
def awaited (i : Fin maxProcs) (waitPid : Int) : List (Fin maxProcs) :=
  (List.finRange maxProcs).filter fun j =>
    (s.procs j).parentPid = (s.procs i).pid ∧ (s.procs j).state ≠ .unused ∧
      (0 < waitPid → (s.procs j).pid = waitPid)

/-- A process blocks in its wait, and keeps the slot of the call. -/
def blockWait (i : Fin maxProcs) (waitPid : Int) (statusPtr slot : Nat) : Processes :=
  s.setProc i
    { s.procs i with state := .waiting, waitStatusPtr := statusPtr, waitPid := waitPid, waitReplySlot := slot }

def waitCommon (i : Fin maxProcs) (waitPid : Int) (statusPtr : Nat) (nohang : Bool) (slot : Nat) :
    Processes × SyscallResult :=
  match (s.awaited i waitPid).find? fun j => (s.procs j).state = .zombie with
  | some j =>
    if statusPtr = 0 ∨ copies (s.procs i).pid statusPtr then
      (s.reapProcess j (s.procs i).pid, .reply (s.procs j).pid)
    else (s, .reply (-efault))
  | none =>
    if s.awaited i waitPid = [] then (s, .reply (-echild))
    else if nohang then (s, .reply 0)
    else (s.blockWait i waitPid statusPtr slot, .block)

/-- Whether a process is there to be answered. -/
def processCanReply (pid : Nat) : Bool :=
  match s.findProc pid with
  | none => false
  | some i => (s.procs i).state = .runnable ∨ (s.procs i).state = .waiting

end Calls

end Processes

end Rel4.Host
