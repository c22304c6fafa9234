import Rel4.Kernel.Cnode
import Rel4.Kernel.Sched

/-! Capability lookup, message registers and message buffers: how an invocation reads its input. -/

namespace Rel4

/-- Bits of a capability pointer. -/
def wordBits : Nat := 64

/-- Positions of the slots embedded in a thread. -/
def tcbCTableSlot : Nat := 0
/-- The slot of the address-space root. -/
def tcbVTableSlot : Nat := 1
/-- The slot of the master reply capability. -/
def tcbReply : Nat := 2
/-- The slot of the reply capability for the last caller. -/
def tcbCaller : Nat := 3
/-- The slot of the message-buffer frame. -/
def tcbBufferSlot : Nat := 4
/-- Slots a thread embeds. -/
def tcbCNodeEntries : Nat := 2 ^ tcbCNodeRadix

/-- The slot at a position of a thread's embedded node. -/
def tcbSlot (tcb : Addr) (index : Nat) : Slot := slotAt tcb index

/--
Walk capability nodes from a root until the given number of bits is used up.

The answer is the slot reached and the bits left, which is not zero when the walk met something
other than a node.
Every node consumes a bit, so the first argument bounds the walk.
-/
def CapStore.lookupSlotIn (cs : CapStore) : Nat → Cap → Word → Nat → Option (Slot × Nat)
  | 0, _, _, _ => none
  | steps + 1, .cnode ptr radix guard guardSize, cptr, depth =>
    let total := radix + guardSize
    if ptr = 0 ∨ depth < total then none
    else
      let cptrTop := cptr / 2 ^ (depth - total)
      if cptrTop / 2 ^ radix % 2 ^ guardSize ≠ guard % 2 ^ guardSize then none
      else
        let slot := slotAt ptr (cptrTop % 2 ^ radix)
        let remaining := depth - total
        if remaining = 0 then some (slot, 0)
        else match (cs.ctes slot).cap with
          | .cnode ptr' radix' guard' guardSize' =>
            cs.lookupSlotIn steps (.cnode ptr' radix' guard' guardSize')
              (cptr % 2 ^ remaining) remaining
          | _ => some (slot, remaining)
  | _ + 1, _, _, _ => none

/-- Walk to a slot that uses up every bit. -/
def CapStore.lookupSlotExact (cs : CapStore) (root : Cap) (cptr : Word) (depth : Nat) :
    Option Slot :=
  match cs.lookupSlotIn (wordBits + 1) root cptr depth with
  | some (slot, 0) => some slot
  | _ => none

/-- The root of a thread's capability space. -/
def KState.cspaceCap (s : KState) (tcb : Addr) : Cap := s.cap (tcbSlot tcb tcbCTableSlot)

/-- Resolve a capability pointer in a thread's space. -/
def KState.lookupCap (s : KState) (tcb : Addr) (cptr : Word) : Option (Cap × Slot) :=
  (s.caps.lookupSlotExact (s.cspaceCap tcb) cptr wordBits).map fun slot => (s.cap slot, slot)

/-- The words of a packed message info. -/
structure MessageInfo where
  label : Word
  capsUnwrapped : Word
  extraCaps : Word
  length : Word

/-- Unpack a message info word. -/
def MessageInfo.ofWord (w : Word) : MessageInfo :=
  { label := w / 2 ^ 12 % 2 ^ 52, capsUnwrapped := w / 2 ^ 9 % 2 ^ 3,
    extraCaps := w / 2 ^ 7 % 2 ^ 2, length := w % 2 ^ 7 }

/-- Pack a message info word. -/
def MessageInfo.toWord (info : MessageInfo) : Word :=
  info.label % 2 ^ 52 * 2 ^ 12 + info.capsUnwrapped % 2 ^ 3 * 2 ^ 9 +
    info.extraCaps % 2 ^ 2 * 2 ^ 7 + info.length % 2 ^ 7

/-- The labels of invocations that both instruction sets have. -/
inductive InvocationLabel
  | untypedRetype
  | tcbReadRegisters
  | tcbWriteRegisters
  | tcbCopyRegisters
  | tcbConfigure
  | tcbSetPriority
  | tcbSetMcPriority
  | tcbSetSchedParams
  | tcbSetIpcBuffer
  | tcbSetSpace
  | tcbSuspend
  | tcbResume
  | tcbBindNotification
  | tcbUnbindNotification
  | tcbSetTlsBase
  | tcbSetFlags
  | cnodeRevoke
  | cnodeDelete
  | cnodeCancelBadgedSends
  | cnodeCopy
  | cnodeMint
  | cnodeMove
  | cnodeMutate
  | cnodeRotate
  | cnodeSaveCaller
  | irqIssueIrqHandler
  | irqAck
  | irqSetHandler
  | irqClearHandler
  | domainSet
deriving DecidableEq

/-- The labels in the order of their numbers, which start at one. -/
def InvocationLabel.inOrder : List InvocationLabel :=
  [untypedRetype, tcbReadRegisters, tcbWriteRegisters, tcbCopyRegisters, tcbConfigure,
    tcbSetPriority, tcbSetMcPriority, tcbSetSchedParams, tcbSetIpcBuffer, tcbSetSpace,
    tcbSuspend, tcbResume, tcbBindNotification, tcbUnbindNotification, tcbSetTlsBase,
    tcbSetFlags, cnodeRevoke, cnodeDelete, cnodeCancelBadgedSends, cnodeCopy, cnodeMint,
    cnodeMove, cnodeMutate, cnodeRotate, cnodeSaveCaller, irqIssueIrqHandler, irqAck,
    irqSetHandler, irqClearHandler, domainSet]

/-- The label of a number. -/
def InvocationLabel.ofRaw (label : Word) : Option InvocationLabel :=
  if label = 0 then none else inOrder[label - 1]?

/--
The labels that belong to an instruction set.

A table map carries the bits the table must cover, where zero stands for any level.
A port access carries its bytes.
-/
inductive ArchInvocation
  | pageTableMap (coverage : Nat)
  | pageTableUnmap
  | pageMap
  | pageUnmap
  | pageGetAddress
  | asidControlMakePool
  | asidPoolAssign
  | irqIssueIrqHandlerTrigger
  | ioPortControlIssue
  | ioPortIn (size : Nat)
  | ioPortOut (size : Nat)
  | irqIssueIrqHandlerIoapic
deriving DecidableEq

/-- Those labels in the order of their numbers, which start at thirty-three. -/
def ArchInvocation.inOrder : Arch → List ArchInvocation
  | .riscv64 =>
    [pageTableMap 0, pageTableUnmap, pageMap, pageUnmap, pageGetAddress, asidControlMakePool,
      asidPoolAssign, irqIssueIrqHandlerTrigger]
  | .x8664 =>
    [pageTableMap (12 + 9 + 9 + 9), pageTableUnmap, pageTableMap (12 + 9 + 9), pageTableUnmap,
      pageTableMap (12 + 9), pageTableUnmap, pageMap, pageUnmap, pageGetAddress,
      asidControlMakePool, asidPoolAssign, ioPortControlIssue, ioPortIn 1, ioPortIn 2, ioPortIn 4,
      ioPortOut 1, ioPortOut 2, ioPortOut 4, irqIssueIrqHandlerIoapic]

/-- The label of a number. -/
def ArchInvocation.ofRaw (arch : Arch) (label : Word) : Option ArchInvocation :=
  if label < 33 then none else (inOrder arch)[label - 33]?

/-- What a label means to the handlers of this machine. -/
def archLabelOf (label : Word) : Kern (Option ArchInvocation) :=
  return ArchInvocation.ofRaw (← get).env.arch label

/-- Change the threads. -/
def modifyThreads (change : Threads → Threads) : Kern Unit :=
  modify fun s => { s with threads := change s.threads }

/-- Change one thread. -/
def modifyTcb (tcb : Addr) (change : Tcb → Tcb) : Kern Unit :=
  modifyThreads (·.updTcb tcb change)

/-- Change the registers of a thread. -/
def modifyContext (tcb : Addr) (change : Arch → UserContext → UserContext) : Kern Unit := do
  let s ← get
  modifyTcb tcb fun t => { t with context := change s.env.arch t.context }

/-- The registers a trap came in with belong to this thread. -/
def getContext (uc : Addr) : Kern UserContext := return ((← get).threads.tcbs uc).context

/-- Read the capability register. -/
def getCapReg (uc : Addr) : Kern Word := do
  let s ← get
  return (s.threads.tcbs uc).context.capReg s.env.arch

/-- Read the message info register. -/
def getMsgInfo (uc : Addr) : Kern MessageInfo := do
  let s ← get
  return .ofWord ((s.threads.tcbs uc).context.msgInfo s.env.arch)

/-- Read a message register. -/
def getMr (uc : Addr) (index : Nat) : Kern Word := do
  let s ← get
  return (s.threads.tcbs uc).context.mr s.env.arch index

/-- Write a message register. -/
def setMr (uc : Addr) (index : Nat) (value : Word) : Kern Unit :=
  modifyContext uc fun arch context => context.setMr arch index value

/-- Words of a message buffer. -/
def ipcBufferWords : Nat := 128

/-- The message buffer of a thread. -/
def KState.ipcBuffer (s : KState) (tcb : Addr) : Option Addr := (s.threads.tcbs tcb).ipcBuffer

/-- Read one word of a buffer; words past its end read as zero. -/
def KState.bufferWord (s : KState) (buffer : Addr) (index : Nat) : Word :=
  if index < ipcBufferWords then s.buffers buffer index else 0

/-- Write one word of a buffer, if it is in range. -/
def setBufferWord (buffer : Addr) (index : Nat) (value : Word) : Kern Unit :=
  modify fun s =>
    if index < ipcBufferWords then
      { s with
        buffers := Function.update s.buffers buffer
          (Function.update (s.buffers buffer) index value) }
    else s

/-- Write consecutive words of a buffer, or none if they do not all fit. -/
def setBufferWords (buffer : Addr) (start : Nat) (values : List Word) : Kern Unit :=
  modify fun s =>
    if start + values.length ≤ ipcBufferWords then
      { s with
        buffers := Function.update s.buffers buffer fun i =>
          if start ≤ i ∧ i < start + values.length then values.getD (i - start) 0
          else s.buffers buffer i }
    else s

/-- The message buffer of the current thread. -/
def currentIpcBuffer : Kern (Option Addr) := do
  let s ← get
  return s.threads.current.bind s.ipcBuffer

/-- Read a word of the current thread's buffer. -/
def currentIpcBufferWord (index : Nat) : Kern Word := do
  let s ← get
  return match s.threads.current.bind s.ipcBuffer with
    | some buffer => s.bufferWord buffer index
    | none => 0

/-- Write a word of the current thread's buffer, if it has one. -/
def writeCurrentIpcBufferWord (index : Nat) (value : Word) : Kern Unit := do
  match ← currentIpcBuffer with
  | some buffer => setBufferWord buffer index value
  | none => pure ()

/-- Read a message register, from the buffer beyond the fourth. -/
def readMr (uc : Addr) (index : Nat) : Kern Word :=
  if index < 4 then getMr uc index else currentIpcBufferWord (1 + index)

/-- The capability pointer of an extra capability. -/
def readExtraCap (index : Nat) : Kern Word := currentIpcBufferWord (122 + index)

/-- An invocation that names capabilities needs them, and a buffer to name them in. -/
def requireExtraCaps (uc : Addr) (required : Nat) : Kern Unit := do
  let info ← getMsgInfo uc
  let buffer ← currentIpcBuffer
  if info.extraCaps < required ∨ (required ≠ 0 ∧ buffer.isNone) then raise .truncatedMessage

/-- Resolve a capability pointer, or answer with an error. -/
def lookupCapOr (tcb : Addr) (cptr : Word) (e : SyscallError) : Kern (Cap × Slot) := do
  match (← get).lookupCap tcb cptr with
  | some found => return found
  | none => raise e

/-- Resolve an extra capability of an invocation. -/
def lookupExtraCapSlot (thread : Addr) (index : Nat) : Kern (Cap × Slot) := do
  let cptr ← readExtraCap index
  lookupCapOr thread cptr .invalidCapability

/-- Resolve an index and depth below a node. -/
def resolveSlot (root : Cap) (index : Word) (depth : Nat) : Kern Slot := do
  match root with
  | .cnode .. =>
    if depth = 0 ∨ wordBits < depth then raise .rangeError
    else match (← get).caps.lookupSlotExact root index depth with
      | some slot => return slot
      | none => raise .failedLookup
  | _ => raise .failedLookup

end Rel4
