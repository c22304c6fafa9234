import Mathlib.Algebra.Group.Nat.Defs
import Mathlib.Logic.Function.Basic

/-!
How the host's tasks call the file server: one gate, one cell for the reply, and one shared buffer.

Every section under a spin lock, every call of the kernel and every attempt to take the gate is one move. A
task may be polled by any worker at any time.
-/

namespace Rel4.Host

/-- What a call is for. -/
inductive RpcKind
  /-- `vfs_rpc`: words only. -/
  | plain
  /-- One round of `vfs_read_request`. -/
  | read
  /-- One round of `vfs_write_request`. -/
  | write
  /-- The gate is held for synchronous calls, as `fork`, `exec`, `exit` and `kill` do. -/
  | sync
deriving DecidableEq

/-- A call: its label and its words, of which a read and a write have the length. -/
structure RpcCall where
  kind : RpcKind
  label : Nat
  words : List Nat
  length : Nat
deriving DecidableEq

/-- A message to the server. The serial number is not in it: it tells messages apart whose request
identifiers are the same, as they are once the counter has gone round. -/
structure RpcRequest (Task : Type) where
  serial : Nat
  sender : Task
  id : Nat
  call : RpcCall

/-- A message from the server. What the server left in the shared buffer is not in it. -/
structure RpcReply where
  serial : Nat
  left : Nat → UInt8
  id : Nat
  mrs : List Nat

/-- The second word of a reply behind its identifier: how many bytes there are. -/
def RpcReply.count (reply : RpcReply) : Nat := reply.mrs.getD 1 0

/-- How far a task has come with a call. -/
inductive RpcStage
  | away
  /-- It wants the gate. -/
  | asking (call : RpcCall)
  /-- It has the gate. -/
  | inside (call : RpcCall)
  /-- The process has been found, and for a write its bytes are in the shared buffer. -/
  | staged (call : RpcCall) (data : List UInt8)
  /-- It has a request identifier. -/
  | numbered (call : RpcCall) (data : List UInt8) (id : Nat)
  /-- It has emptied the reply cell. -/
  | clean (call : RpcCall) (data : List UInt8) (id : Nat)
  /-- It has sent its request, and waits for the cell to be filled. -/
  | waiting (call : RpcCall) (data : List UInt8) (id serial : Nat)
  /-- It has taken the reply out of the cell. -/
  | replied (call : RpcCall) (data : List UInt8) (id serial : Nat) (reply : RpcReply)
  /-- It is in a synchronous call. -/
  | calling (call : RpcCall) (serial : Nat)

/-- The task has the gate's permit. -/
def RpcStage.holds : RpcStage → Bool
  | .away | .asking _ => false
  | _ => true

/-- The gate, the counter of identifiers, the reply cell, the messages under way, and the shared buffer. -/
structure RpcSystem (Task : Type) where
  locked : Bool
  nextId : Nat
  value : Option RpcReply
  waker : Option Task
  inbox : List (RpcRequest Task)
  outbox : List RpcReply
  shared : Nat → UInt8
  stages : Task → RpcStage
  /-- The bytes that a task has last copied to its process. -/
  copied : Task → List UInt8
  /-- How many messages have been sent to the server. -/
  sent : Nat

/-- What can happen next. -/
inductive RpcMove (Task : Type)
  | call (task : Task) (call : RpcCall)
  | acquire (task : Task)
  /-- Look the process up and, for a write, copy these bytes of it to the shared buffer. -/
  | stage (task : Task) (data : List UInt8)
  | number (task : Task)
  | reset (task : Task)
  | send (task : Task)
  | poll (task : Task)
  /-- Copy what was read to the process. -/
  | copy (task : Task)
  | syncCall (task : Task)
  | drop (task : Task)
  /-- The server answers the first message, and leaves something in the shared buffer. -/
  | serve (mrs : List Nat) (left : Nat → UInt8)
  /-- The reactor receives the first reply. -/
  | complete

namespace RpcSystem

variable {Task : Type} [DecidableEq Task]

/-- Nobody has called yet. -/
def start (shared : Nat → UInt8) : RpcSystem Task where
  locked := false
  nextId := 1
  value := none
  waker := none
  inbox := []
  outbox := []
  shared
  stages _ := .away
  copied _ := []
  sent := 0

variable (s : RpcSystem Task)

def setStage (task : Task) (stage : RpcStage) : RpcSystem Task :=
  { s with stages := Function.update s.stages task stage }

/-- The first bytes of the shared buffer. -/
def sharedBytes (len : Nat) : List UInt8 := (List.range len).map s.shared

/-- The buffer with bytes at its beginning. -/
def putBytes (data : List UInt8) : RpcSystem Task :=
  { s with shared := fun i => data.getD i (s.shared i) }

/-- The identifier after another one; zero is skipped. -/
def idAfter (id : Nat) : Nat := if (id + 1) % 2 ^ 64 = 0 then 1 else (id + 1) % 2 ^ 64

/-- A message goes to the server. -/
def post (task : Task) (id : Nat) (call : RpcCall) : RpcSystem Task :=
  { s with
    inbox := s.inbox ++ [{ serial := s.sent, sender := task, id, call }]
    sent := s.sent + 1 }

/-- `complete` fills the cell and takes the waker out of it. -/
def fill (reply : RpcReply) : RpcSystem Task := { s with value := some reply, waker := none }

/-- The server answers a message: with a message of its own, or directly if the sender waits for it. -/
def answer (request : RpcRequest Task) (mrs : List Nat) (left : Nat → UInt8) : RpcSystem Task :=
  let s := { s with shared := left }
  match s.stages request.sender with
  | .calling call _ => s.setStage request.sender (.inside call)
  | _ => { s with outbox := s.outbox ++ [{ serial := request.serial, left, id := request.id, mrs }] }

/-- One move, if it can be made. -/
def step : RpcMove Task → Option (RpcSystem Task)
  | .call task call =>
    match s.stages task with
    | .away => some (s.setStage task (.asking call))
    | _ => none
  | .acquire task =>
    match s.stages task with
    | .asking call =>
      if s.locked then none else some { s.setStage task (.inside call) with locked := true }
    | _ => none
  | .stage task data =>
    match s.stages task with
    | .inside call =>
      match call.kind with
      | .sync => none
      | .write =>
        if data.length = call.length then some ((s.putBytes data).setStage task (.staged call data)) else none
      | .plain | .read => some (s.setStage task (.staged call []))
    | _ => none
  | .number task =>
    match s.stages task with
    | .staged call data =>
      some { s.setStage task (.numbered call data s.nextId) with nextId := idAfter s.nextId }
    | _ => none
  | .reset task =>
    match s.stages task with
    | .numbered call data id => some { s.setStage task (.clean call data id) with value := none, waker := none }
    | _ => none
  | .send task =>
    match s.stages task with
    | .clean call data id => some ((s.post task id call).setStage task (.waiting call data id s.sent))
    | _ => none
  | .poll task =>
    match s.stages task with
    | .waiting call data id serial =>
      match s.value with
      | some reply => some { s.setStage task (.replied call data id serial reply) with value := none }
      | none => some { s with waker := some task }
    | _ => none
  | .copy task =>
    match s.stages task with
    | .replied call _ _ _ reply =>
      -- A count larger than what was asked for is an error.
      if call.kind = .read ∧ reply.count ≤ call.length then
        some { s with copied := Function.update s.copied task (s.sharedBytes reply.count) }
      else none
    | _ => none
  | .syncCall task =>
    match s.stages task with
    | .inside call =>
      if call.kind = .sync then some ((s.post task 0 call).setStage task (.calling call s.sent)) else none
    | _ => none
  | .drop task =>
    match s.stages task with
    | .inside _ | .staged _ _ | .replied _ _ _ _ _ => some { s.setStage task .away with locked := false }
    | _ => none
  | .serve mrs left =>
    match s.inbox with
    | [] => none
    | request :: rest => some ({ s with inbox := rest }.answer request mrs left)
  | .complete =>
    match s.outbox with
    | [] => none
    | reply :: rest => some ({ s with outbox := rest }.fill reply)

end RpcSystem

end Rel4.Host
