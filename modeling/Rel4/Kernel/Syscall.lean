import Rel4.Kernel.Ipc

/-! System calls: faults delivered as messages, sends, receives, calls, replies and invocations. -/

namespace Rel4

/-- The kinds of fault a handler is told about. -/
inductive FaultLabel
  | capFault
  | unknownSyscall
  | userException
  | vmFault
deriving DecidableEq

/-- The numbers of those kinds. -/
def FaultLabel.raw : FaultLabel → Word
  | capFault => 1
  | unknownSyscall => 2
  | userException => 3
  | vmFault => 5

/-- The capability a thread named as its fault handler. -/
def KState.faultHandlerCap (s : KState) (tcb : Addr) : Cap :=
  let cptr := (s.threads.tcbs tcb).faultEndpointCptr
  if cptr = 0 then .null
  else match s.lookupCap tcb cptr with
    | some (cap, _) => cap
    | none => .null

/-- Pad the words of a fault message to the size of its record. -/
def faultMrs (mrs : List Word) : List Word := mrs ++ List.replicate (faultIpcMrs - mrs.length) 0

/-- Hand a fault to the waiting receiver, and let the thread wait for the reply. -/
def finishFaultIpcReceive (receiver faultTcb : Addr) (grants : Bool) : Kern Unit := do
  let receiverCanGrant := ((← get).threads.tcbs receiver).receiverCanGrant
  modifyTcb receiver fun t => { t with waitingOn := none }
  if grants then
    modifyThreads (·.dequeue faultTcb)
    if !(← setupCallerCap faultTcb receiver receiverCanGrant) then stopFaulted faultTcb
  else stopFaulted faultTcb
  modifyTcb receiver Tcb.finishReceiverRendezvous
  modifyThreads (·.enqueue (← get).env receiver)

/-- Hand a fault to the handler endpoint, or queue the thread there. -/
def deliverFaultIpc (cur ep : Addr) (badge : Word) (canGrant canGrantReply : Bool)
    (label len : Word) (mrs : List Word) : Kern Unit := do
  modifyTcb cur (·.recordFaultMessage label len mrs)
  let s ← get
  match s.threads.popReceiver ep with
  | (none, threads) =>
    set { s with threads }
    modifyThreads (·.dequeue cur)
    modifyTcb cur (·.setBlockedFaultSender ep badge canGrant canGrantReply label len mrs)
    modifyThreads (·.epEnqueueWaiter ep cur .sending)
  | (some receiver, threads) =>
    set { s with threads }
    writeFaultIpcMessage receiver badge label len mrs
    finishFaultIpcReceive receiver cur (canGrant || canGrantReply)

/-- Send a fault of the current thread; the answer is whether it has a handler. -/
def sendSyntheticFaultIpc (label : FaultLabel) (mrs : List Word) : Kern Bool := do
  let s ← get
  match s.threads.current with
  | none => return false
  | some cur =>
    match s.faultHandlerCap cur with
    | .endpoint ep badge true _ canGrant canGrantReply =>
      if !(canGrant || canGrantReply) || ep = 0 then return false
      deliverFaultIpc cur ep badge canGrant canGrantReply label.raw mrs.length (faultMrs mrs)
      return true
    | _ => return false

/-- A capability pointer that does not resolve is a fault. -/
def sendCapFaultIpc (uc : Addr) (addr : Word) (inRecvPhase : Bool) : Kern Bool := do
  let context ← getContext uc
  sendSyntheticFaultIpc .capFault [context.restartPc, addr, inRecvPhase.toNat, 1, 0]

/-- The endpoint capability the current thread names. -/
def KState.lookupEndpoint (s : KState) (cptr : Word) : Option Cap := do
  let cur ← s.threads.current
  let (cap, _) ← s.lookupCap cur cptr
  match cap with
  | .endpoint ep .. => if ep = 0 then none else some cap
  | _ => none

/-- Send on an endpoint; without a receiver, block or drop the message. -/
def ipcSend (uc : Addr) (blocking : Bool) : Kern Unit := do
  let s ← get
  let info ← getMsgInfo uc
  match s.threads.current, s.lookupEndpoint (← getCapReg uc) with
  | some cur, some (.endpoint ep badge true _ canGrant canGrantReply) =>
    match s.snapshotExtraCapSlots cur info canGrant with
    | .error badCptr => if blocking then let _ ← sendCapFaultIpc uc badCptr false
    | .ok extraCapSlots =>
      match s.threads.popReceiver ep with
      | (none, threads) =>
        set { s with threads }
        if blocking then blockSender ep cur false badge canGrant canGrantReply extraCapSlots
      | (some receiver, threads) =>
        set { s with threads }
        transferMessage cur receiver info badge (some ep) canGrant extraCapSlots
        modifyTcb receiver Tcb.wakeBlockedReceiverAfterSend
        modifyThreads (·.enqueue s.env receiver)
  | _, _ => pure ()

/-- Receive on an endpoint; without a sender, look at the bound notification, then block. -/
def ipcRecv (uc : Addr) (blocking : Bool) : Kern Unit := do
  let s ← get
  let cptr ← getCapReg uc
  match s.lookupEndpoint cptr, s.threads.current with
  | some (.endpoint ep _ _ canReceive canGrant _), some cur =>
    if !canReceive then
      if !(← sendCapFaultIpc uc cptr true) then writeEmptyReply uc
    else
      deleteCallerCap cur
      let s ← get
      match s.threads.popSender ep with
      | (some sender, threads) =>
        set { s with threads }
        completeReceiveFromSender cur sender ep canGrant
      | (none, threads) =>
        set { s with threads }
        if !(← consumeBoundNotification cur uc) then
          if blocking then blockReceiver ep cur canGrant else writeEmptyReply uc
  | _, _ => writeEmptyReply uc

/-- Call on an endpoint: send, and wait for the reply. -/
def ipcCall (uc : Addr) : Kern Unit := do
  let s ← get
  let info ← getMsgInfo uc
  match s.threads.current, s.lookupEndpoint (← getCapReg uc) with
  | some cur, some (.endpoint ep badge true _ canGrant canGrantReply) =>
    match s.snapshotExtraCapSlots cur info canGrant with
    | .error badCptr => let _ ← sendCapFaultIpc uc badCptr false
    | .ok extraCapSlots =>
      match s.threads.popReceiver ep with
      | (none, threads) =>
        set { s with threads }
        blockSender ep cur true badge canGrant canGrantReply extraCapSlots
      | (some receiver, threads) =>
        set { s with threads }
        transferMessage cur receiver info badge (some ep) canGrant extraCapSlots
        let receiverCanGrant := ((← get).threads.tcbs receiver).receiverCanGrant
        modifyTcb receiver fun t => { t with waitingOn := none }
        modifyThreads (·.dequeue cur)
        modifyTcb cur fun t => { t with blockedByFault := false }
        if canGrant || canGrantReply then parkCallSender cur receiver receiverCanGrant
        else modifyTcb cur (·.finishCallSenderAfterRendezvous false)
        modifyTcb receiver Tcb.finishReceiverRendezvous
        modifyThreads (·.enqueue s.env receiver)
  | _, _ => pure ()

/-- The registers an unknown-syscall reply sets, by position; the last position sets none. -/
def Arch.unknownSyscallReplyRegs : Arch → List Nat
  | riscv64 => [0, 2, 1, 10, 11, 12, 13, 14, 15, 16, 0]
  | x8664 => [2, 3, 19, 8, 1, 0, 4, 10, 11, 9, 18, 5, 6, 7, 12, 17, 16, 13, 0]

/-- The position of the program counter in such a reply. -/
def Arch.unknownSyscallFaultIpMr : Arch → Nat
  | riscv64 => 0
  | x8664 => 15

/-- A message register of the replying thread. -/
def KState.replyMr (s : KState) (sender uc : Addr) (index : Nat) : Word :=
  if index < nMsgRegisters then (s.threads.tcbs uc).context.mr s.env.arch index
  else match s.ipcBuffer sender with
    | some buffer => s.bufferWord buffer (1 + index)
    | none => 0

/-- The reply to an unknown syscall sets registers of the caller. -/
def applyUnknownSyscallReply (sender uc caller : Addr) (length : Nat) : Kern Unit := do
  let s ← get
  let arch := s.env.arch
  let ipMr := arch.unknownSyscallFaultIpMr
  let regs := arch.unknownSyscallReplyRegs.take length
  let pc := if ipMr < regs.length then some (s.replyMr sender uc ipMr) else none
  let values := regs.zipIdx.filterMap fun (reg, i) =>
    if i ≠ ipMr ∧ reg ≠ 0 then some (reg, s.replyMr sender uc i) else none
  modifyContext caller fun arch context => context.write arch pc values

/-- The reply to an exception sets the program counter and the stack pointer of the caller. -/
def applyUserExceptionReply (sender uc caller : Addr) (length : Nat) : Kern Unit := do
  let s ← get
  let pc := if 1 ≤ length then some (s.replyMr sender uc 0) else none
  let values := if 2 ≤ length then [(s.env.arch.stackReg, s.replyMr sender uc 1)] else []
  modifyContext caller fun arch context => context.write arch pc values

/-- Reply to a thread that waits for it. -/
def replyToTcb (uc caller : Addr) (canGrant : Bool) : Kern Unit := do
  let s ← get
  let info ← getMsgInfo uc
  match s.threads.current with
  | none => pure ()
  | some cur =>
    let t := s.threads.tcbs caller
    let refusable := t.faultLabel = FaultLabel.unknownSyscall.raw ∨
      t.faultLabel = FaultLabel.userException.raw
    if !t.senderIsFault then
      transferMessage cur caller info 0 none canGrant noExtraCaps
    else if info.label = 0 then
      if t.faultLabel = FaultLabel.unknownSyscall.raw then
        applyUnknownSyscallReply cur uc caller info.length
      else if t.faultLabel = FaultLabel.userException.raw then
        applyUserExceptionReply cur uc caller info.length
    -- A label other than zero refuses to resume the fault.
    let wake := !(t.senderIsFault && info.label ≠ 0 && refusable)
    modifyTcb caller (·.finishReplyState t.senderIsFault wake)
    if wake then
      modifyThreads (·.clearLinks caller)
      modifyThreads (·.enqueue s.env caller)

/-- Use a reply capability, which is gone afterwards. -/
def handleReplySlot (uc : Addr) (cap : Cap) (slot : Slot) : Kern Unit := do
  match cap with
  | .reply caller canGrant isMaster =>
    if caller ≠ 0 ∧ !isMaster ∧ (← get).threads.current ≠ some caller then
      replyToTcb uc caller canGrant
      cteDeleteOne slot
  | _ => pure ()

/-- Reply to the last caller. -/
def ipcReply (uc : Addr) : Kern Unit := do
  let s ← get
  match s.threads.current with
  | none => pure ()
  | some cur =>
    let slot := tcbSlot cur tcbCaller
    handleReplySlot uc (s.cap slot) slot

/-- Reply to the last caller and wait for the next. -/
def ipcReplyRecv (uc : Addr) : Kern Unit := do
  ipcReply uc
  ipcRecv uc true

end Rel4
