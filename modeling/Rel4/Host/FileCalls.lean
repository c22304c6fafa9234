import Rel4.Host.Exec
import Rel4.Host.Process
import Rel4.Vfs.Server

/-!
Reading and writing through a descriptor: the loops of the host, with one request to the file
server for each piece.

A call is looked at while no other task runs. Where it has not come back, there is no result.
-/

namespace Rel4.Host

def ebadf : Int := 9
def eio : Int := 5

def maxFd : Nat := 64

/-- The descriptors of a process: numbers of open files, and whether a read goes on after a piece. -/
structure Descriptors where
  fds : Nat → Nat
  fdSerial : Nat → Bool

def fdFile (descriptors : Descriptors) (fd : Nat) : Option Nat :=
  if maxFd ≤ fd ∨ Vfs.maxOpenFiles ≤ descriptors.fds fd then none else some (descriptors.fds fd)

/-- The memory of the processes, the file server, and the number of the next request. -/
structure FileHost where
  memory : Memory
  server : Vfs.Server
  nextVfsRequestId : Nat
  someId : nextVfsRequestId ≠ 0
  /-- What came of the requests so far; a request that the server did not survive has no answer. -/
  answers : List (Option Vfs.Reply) := []

section Calls

/-- Who makes a call, and what the file server has to serve it with. -/
structure Caller where
  arch : Arch
  rootfs : List UInt8
  console : Vfs.Console
  child : Task
  descriptors : Descriptors

variable (c : Caller)

/-- The number of the request that follows another; zero is left out. -/
def followingId (id : Nat) : Nat :=
  if (id + 1) % 18446744073709551616 = 0 then 1 else (id + 1) % 18446744073709551616

theorem followingId_ne_zero (id : Nat) : followingId id ≠ 0 := by
  unfold followingId
  split
  · exact Nat.one_ne_zero
  · assumption

/-- A request about an open file, with a number of bytes. -/
def ioMessage (op id file request : Nat) : Vfs.Message where
  label := op
  length := 4
  mrs := fun i => [Vfs.hostToVfsAsync, id, file, request].getD i 0

/-- The host after a request. -/
def asked (h : FileHost) (answer : Option Vfs.Reply) (server : Vfs.Server) : FileHost where
  memory := h.memory
  server := server
  nextVfsRequestId := followingId h.nextVfsRequestId
  someId := followingId_ne_zero _
  answers := h.answers ++ [answer]

/-- Send a request and wait for what the server sends back. -/
def vfsRpcLocked (op file request : Nat) (h : FileHost) : Option Vfs.Reply × FileHost :=
  match Vfs.handleRequest c.rootfs c.console (ioMessage op h.nextVfsRequestId file request) h.server with
  | .ok (.deferred _ reply) server => (some reply, asked h (some reply) server)
  | .ok (.reply _) server => (none, asked h none server)
  | .error _ server => (none, asked h none server)

def vfsOpRead : Nat := 7
def vfsOpWrite : Nat := 8

def copyVfsSharedBufferToChild (dst len : Nat) (h : FileHost) : Bool × FileHost :=
  let bytes := h.server.sharedBytes (min len Vfs.maxIoBytes)
  let (copied, memory) := h.memory.copyToChild c.arch c.child dst bytes
  (copied, { h with memory })

def copyChildToVfsSharedBuffer (src len : Nat) (h : FileHost) : Bool × FileHost :=
  match h.memory.copyFromChild c.arch c.child src (min len Vfs.maxIoBytes) with
  | (some bytes, memory) => (true, { h with memory, server := h.server.share bytes })
  | (none, memory) => (false, { h with memory })

/-- A round of a loop: the call returns, if anything came back at all, or the next one begins. -/
inductive Round
  | returned (result : Option Int)
  | again (done : Nat)

/-- Repeat a round, so many times at most. -/
def rounds (round : Nat → FileHost → Round × FileHost) :
    Nat → Nat → FileHost → Option Int × FileHost
  | 0, _, h => (none, h)
  | fuel + 1, done, h =>
    match round done h with
    | (.returned result, h) => (result, h)
    | (.again done, h) => rounds round fuel done h

/-- One piece of a read, at most a page. -/
def readRound (fd dst len done : Nat) (h : FileHost) : Round × FileHost :=
  match fdFile c.descriptors fd with
  | none => (.returned (some (-ebadf)), h)
  | some file =>
    let request := min (len - done) pageSize
    if request = 0 then (.returned (some done), h)
    else
      match vfsRpcLocked c vfsOpRead file request h with
      | (none, h) => (.returned none, h)
      | (some reply, h) =>
        if reply.status = Vfs.statusWouldBlock then (.again done, h)
        else if reply.status ≠ Vfs.statusOk then
          (.returned (some (if done = 0 then -(reply.status : Int) else done)), h)
        else if request < reply.first then (.returned (some (-eio)), h)
        else
          let (copied, h) := copyVfsSharedBufferToChild c (dst + done) reply.first h
          if !copied then (.returned (some (-efault)), h)
          else
            let done := done + reply.first
            if reply.first = 0 ∨ len ≤ done ∨ c.descriptors.fdSerial fd = false then
              (.returned (some done), h)
            else (.again done, h)

def vfsReadRequest (fd dst len fuel : Nat) (h : FileHost) : Option Int × FileHost :=
  rounds (readRound c fd dst len) fuel 0 h

/-- One piece of a write, at most the shared buffer. -/
def writeRound (fd buf len done : Nat) (h : FileHost) : Round × FileHost :=
  let refused : Int := if done = 0 then -efault else done
  match fdFile c.descriptors fd with
  | none => (.returned (some refused), h)
  | some file =>
    let request := min (len - done) Vfs.maxIoBytes
    if request = 0 then (.returned (some done), h)
    else
      let (copied, h) := copyChildToVfsSharedBuffer c (buf + done) request h
      if !copied then (.returned (some refused), h)
      else
        match vfsRpcLocked c vfsOpWrite file request h with
        | (none, h) => (.returned none, h)
        | (some reply, h) =>
          if reply.status = Vfs.statusWouldBlock then (.again done, h)
          else if reply.status = Vfs.statusBrokenPipe then
            (.returned (some (if done = 0 then -1 else done)), h)
          else if reply.status ≠ Vfs.statusOk then
            (.returned (some (if done = 0 then -(reply.status : Int) else done)), h)
          else if reply.first = 0 ∨ request < reply.first then
            (.returned (some (if done = 0 then -1 else done)), h)
          else
            let done := done + reply.first
            if len ≤ done then (.returned (some done), h) else (.again done, h)

def vfsWriteRequest (fd buf len fuel : Nat) (h : FileHost) : Option Int × FileHost :=
  rounds (writeRound c fd buf len) fuel 0 h

def sysWrite (fuel fd buf len : Nat) (h : FileHost) : Option Int × FileHost :=
  if (fdFile c.descriptors fd).isNone then (some (-ebadf), h)
  else if len = 0 then (some 0, h)
  else vfsWriteRequest c fd buf len fuel h

def sysRead (fuel fd dst len : Nat) (h : FileHost) : Option Int × FileHost :=
  if (fdFile c.descriptors fd).isNone then (some (-ebadf), h)
  else if len = 0 then (some 0, h)
  else vfsReadRequest c fd dst len fuel h

/-- Only the first entry of the array is looked at. -/
def sysWritev (fuel fd iovPtr iovcnt : Nat) (h : FileHost) : Option Int × FileHost :=
  if iovcnt = 0 then (some 0, h)
  else if 8 < iovcnt then (some (-einval), h)
  else
    match h.memory.copyFromChild c.arch c.child iovPtr 16 with
    | (none, memory) => (some (-efault), { h with memory })
    | (some iov, memory) =>
      sysWrite c fuel fd (readU64 iov 0) (readU64 iov 8) { h with memory }

/-- The calls that read and write through a descriptor. -/
inductive IoCall
  | read
  | readv
  | write
  | writev
deriving DecidableEq

/-- The part of the dispatch that concerns them. -/
def handleLinuxSyscall (fuel : Nat) (call : IoCall) (a0 a1 a2 : Nat) (h : FileHost) :
    Option Int × FileHost :=
  match call with
  | .read | .readv => sysRead c fuel a0 a1 a2 h
  | .write => sysWrite c fuel a0 a1 a2 h
  | .writev => sysWritev c fuel a0 a1 a2 h

end Calls

end Rel4.Host
