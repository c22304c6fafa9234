import Rel4.Kernel.State

/-! Saved registers, queue membership, and the state transitions of a single thread. -/

namespace Rel4

/-- The register that carries a capability pointer in and a badge out. -/
def Arch.capReg : Arch → Nat
  | riscv64 => 10
  | x8664 => 0

/-- The register that carries the message info word. -/
def Arch.msgInfo : Arch → Nat
  | riscv64 => 11
  | x8664 => 1

/-- The four message registers. -/
def Arch.mr : Arch → Nat → Option Nat
  | riscv64, 0 => some 12
  | riscv64, 1 => some 13
  | riscv64, 2 => some 14
  | riscv64, 3 => some 15
  | x8664, 0 => some 9
  | x8664, 1 => some 10
  | x8664, 2 => some 11
  | x8664, 3 => some 12
  | _, _ => none

/-- The stack pointer register. -/
def Arch.stackReg : Arch → Nat
  | riscv64 => 2
  | x8664 => 16

/-- The thread-local storage register. -/
def Arch.tlsReg : Arch → Nat
  | riscv64 => 4
  | x8664 => 22

namespace UserContext

variable (arch : Arch) (uc : UserContext)

/-- Write one register. -/
def setReg (reg : Nat) (value : Word) : UserContext :=
  { uc with regs := Function.update uc.regs reg value }

/-- The capability register. -/
def capReg : Word := uc.regs arch.capReg

/-- Write the capability register. -/
def setCapReg (value : Word) : UserContext := uc.setReg arch.capReg value

/-- The message info register. -/
def msgInfo : Word := uc.regs arch.msgInfo

/-- Write the message info register. -/
def setMsgInfo (value : Word) : UserContext := uc.setReg arch.msgInfo value

/-- A message register; those past the fourth live in the message buffer. -/
def mr (index : Nat) : Word :=
  match arch.mr index with
  | some reg => uc.regs reg
  | none => 0

/-- Write a message register, if it is one of the four. -/
def setMr (index : Nat) (value : Word) : UserContext :=
  match arch.mr index with
  | some reg => uc.setReg reg value
  | none => uc

/-- Write the first few message registers from a list. -/
def setMrs (values : List Word) (count : Nat) : UserContext :=
  (values.take (min count 4)).zipIdx.foldl (fun uc (value, i) => uc.setMr arch i value) uc

/-- Clear the four message registers. -/
def clearMrs : UserContext := uc.setMrs arch [0, 0, 0, 0] 4

/-- The registers of a new thread: zero but for the status it enters user mode with. -/
def init : UserContext :=
  match arch with
  | .riscv64 => { status := 2 ^ 5 }
  | .x8664 => setReg {} 13 0x202

/-- Set the program counter and everything that mirrors it. -/
def applyWrittenPc (pc : Word) : UserContext :=
  match arch with
  | .riscv64 => { uc with pc, restartPc := pc }
  | .x8664 => ({ uc with pc, restartPc := pc }.setReg 14 pc).setReg 17 pc

/-- Step back to the trapping instruction so that it runs again. -/
def rewindPc : UserContext :=
  let pc := (uc.pc + (2 ^ 64 - 4)) % 2 ^ 64
  { uc with pc, restartPc := pc }

/-- Only the two addresses change, to the same one. -/
theorem rewindPc_eq : ∃ pc, pc = (uc.pc + (2 ^ 64 - 4)) % 2 ^ 64 ∧
    uc.rewindPc = { uc with pc, restartPc := pc } := ⟨_, rfl, rfl⟩

/-- Stepping back undoes a step of four bytes. -/
theorem rewindPc_of_stepped {addr : Word} (small : addr < 2 ^ 64)
    (stepped : uc.pc = (addr + 4) % 2 ^ 64) :
    uc.rewindPc = { uc with pc := addr, restartPc := addr } := by
  obtain ⟨pc, isBack, eq⟩ := uc.rewindPc_eq
  rw [stepped, Nat.mod_add_mod, Nat.add_assoc, show 4 + (2 ^ 64 - 4) = 2 ^ 64 from by decide,
    Nat.add_mod_right, Nat.mod_eq_of_lt small] at isBack
  rw [eq, isBack]

-- Unfolding it would have Lean count to the offset when it compares two contexts.
attribute [irreducible] rewindPc

end UserContext

namespace Tcb

/-- Forget the recorded fault. -/
def clearFault (t : Tcb) : Tcb :=
  { t with
    senderIsFault := false, faultLabel := 0, faultLen := 0,
    faultMrs := List.replicate faultIpcMrs 0 }

/-- Forget stale endpoint send and receive metadata. -/
def clearEndpointIpcState (t : Tcb) : Tcb :=
  { t with
    receiverCanGrant := false, senderBadge := 0, senderCanGrant := false,
    senderCanGrantReply := false,
    senderExtraCapSlots := List.replicate tcbSenderExtraCaps none,
    senderIsCall := false }.clearFault

/-- As above, but a pending fault stays for the reply path to consume. -/
def clearEndpointIpcStatePreservingFault (t : Tcb) : Tcb :=
  let cleared := t.clearEndpointIpcState
  if t.senderIsFault then
    { cleared with
      senderIsFault := true, faultLabel := t.faultLabel, faultLen := t.faultLen,
      faultMrs := t.faultMrs }
  else cleared

/-- Deliver a notification's badge in the message registers. -/
def writeNotificationBadgeRegs (arch : Arch) (badge : Word) (t : Tcb) : Tcb :=
  { t with context := ((t.context.setCapReg arch badge).setMsgInfo arch 0).clearMrs arch }

/-- Wait for the reply to a call. -/
def setBlockedOnReply (t : Tcb) : Tcb :=
  { ({ t with waitingOn := none }.clearEndpointIpcStatePreservingFault) with
    state := .blockedOnReply }

/-- A restarted thread resumes at its saved restart address. -/
def prepareForUserRestore (t : Tcb) : Tcb :=
  if t.state = .restart then
    { t with context := { t.context with pc := t.context.restartPc }, state := .running }
  else t

/-- Wait on a notification. -/
def setBlockedOnNotification (ntfn : Addr) (t : Tcb) : Tcb :=
  { t with state := .blockedOnNotification, waitingOn := some (.notification ntfn) }

/-- Wake with the badge that was waited for. -/
def completeNotificationWait (arch : Arch) (badge : Word) (t : Tcb) : Tcb :=
  { ({ t with waitingOn := none }.writeNotificationBadgeRegs arch badge) with state := .running }

/-- Wake from an endpoint receive with the badge of a bound notification. -/
def completeBoundEndpointNotificationWait (arch : Arch) (badge : Word) (t : Tcb) : Tcb :=
  { ({ t with waitingOn := none }.clearEndpointIpcState.writeNotificationBadgeRegs arch badge) with
    state := .running }

/-- Leave an endpoint that is going away; a sender of a fault stays stopped. -/
def cancelEndpointWaiter (t : Tcb) : Tcb × Bool :=
  let unlinked := { t with waitingOn := none }
  if t.state ≠ .blockedOnSend ∧ t.state ≠ .blockedOnReceive then
    (unlinked.clearEndpointIpcState, false)
  else if t.state = .blockedOnSend ∧ t.senderIsFault then
    ({ unlinked.clearEndpointIpcStatePreservingFault with state := .inactive }, false)
  else
    ({ unlinked.clearEndpointIpcState with state := .restart }, true)

/-- Leave a notification that is going away. -/
def restartNotificationWaiter (t : Tcb) : Tcb :=
  { t with waitingOn := none, state := .restart }

/-- The caller's state after the reply to it. -/
def finishReplyState (clearFaultMessage wake : Bool) (t : Tcb) : Tcb :=
  let t := if clearFaultMessage then t.clearFault else t
  { t with waitingOn := none, state := if wake then .running else .inactive }

/-- Queue up as a sender. -/
def setBlockedSender (ep : Addr) (isCall : Bool) (badge : Word) (canGrant canGrantReply : Bool)
    (extraCapSlots : List (Option Slot)) (t : Tcb) : Tcb :=
  { t.clearEndpointIpcState with
    state := .blockedOnSend, waitingOn := some (.endpoint ep), senderBadge := badge,
    senderCanGrant := canGrant, senderCanGrantReply := canGrantReply,
    senderExtraCapSlots := extraCapSlots, senderIsCall := isCall, senderIsFault := false,
    blockedByFault := false }

/-- Queue up as a receiver. -/
def setBlockedReceiver (ep : Addr) (canGrant : Bool) (t : Tcb) : Tcb :=
  { t.clearEndpointIpcState with
    state := .blockedOnReceive, waitingOn := some (.endpoint ep), receiverCanGrant := canGrant }

/-- Queue up as the sender of a fault message. -/
def setBlockedFaultSender (ep : Addr) (badge : Word) (canGrant canGrantReply : Bool)
    (label len : Word) (mrs : List Word) (t : Tcb) : Tcb :=
  { t.clearEndpointIpcState with
    state := .blockedOnSend, waitingOn := some (.endpoint ep), senderBadge := badge,
    senderCanGrant := canGrant, senderCanGrantReply := canGrantReply,
    senderExtraCapSlots := List.replicate tcbSenderExtraCaps none, senderIsCall := true,
    senderIsFault := true, faultLabel := label, faultLen := len, faultMrs := mrs }

/-- A receiver that was waiting gets a plain message and runs on. -/
def wakeBlockedReceiverAfterSend (t : Tcb) : Tcb :=
  { ({ t with waitingOn := none }.clearEndpointIpcState) with state := .running }

/-- A receiver that was waiting has its caller parked and runs on. -/
def finishReceiverRendezvous (t : Tcb) : Tcb := { t.clearEndpointIpcState with state := .running }

/-- A queued call that may not be replied to stops where it trapped. -/
def deactivateQueuedCallSender (t : Tcb) : Tcb :=
  { t with
    waitingOn := none, context := t.context.rewindPc, state := .inactive, senderIsCall := false }

/-- A queued sender whose message was taken runs on. -/
def wakeQueuedSender (t : Tcb) : Tcb := { t with waitingOn := none, state := .running }

/-- After the rendezvous a caller waits for its reply, or stops where it trapped. -/
def finishCallSenderAfterRendezvous (blockedOnReply : Bool) (t : Tcb) : Tcb :=
  if blockedOnReply then { t with state := .blockedOnReply, waitingOn := none }
  else { t with context := t.context.rewindPc, state := .inactive, waitingOn := none }

/-- Record the message of a fault. -/
def recordFaultMessage (label len : Word) (mrs : List Word) (t : Tcb) : Tcb :=
  { t with
    senderIsFault := true, faultLabel := label, faultLen := len, faultMrs := mrs,
    blockedByFault := true }

/-- What is left of a thread when its last capability goes. -/
def wiped (t : Tcb) : Tcb :=
  { ({ t with waitingOn := none }.clearEndpointIpcState) with
    flags := 0, boundNotification := none, ipcBufferUva := 0, ipcBuffer := none,
    state := .inactive }

/-- Point at a new message buffer, or at none. -/
def setIpcBuffer (bufferUva : Word) (frame : Option Addr) (t : Tcb) : Tcb :=
  if bufferUva = 0 then { t with ipcBufferUva := 0, ipcBuffer := none }
  else { t with ipcBufferUva := bufferUva, ipcBuffer := frame }

end Tcb

end Rel4
