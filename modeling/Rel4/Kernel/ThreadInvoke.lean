import Rel4.Kernel.Irq

/-! Invocations of threads: their spaces and buffers, their registers, suspend and resume. -/

namespace Rel4

/-- The registers a user context consists of, in its own order; the first is the program counter. -/
def Arch.userContextRegs : Arch → List Nat
  | riscv64 =>
    [0, 1, 2, 3, 8, 9, 18, 19, 20, 21, 22, 23, 24, 25, 26, 27, 10, 11, 12, 13, 14, 15, 16, 17, 5,
      6, 7, 28, 29, 30, 31, 4]
  | x8664 =>
    [17, 16, 13, 2, 3, 19, 8, 1, 0, 4, 10, 11, 9, 18, 5, 6, 7, 12, 22, 23, 0, 0, 0, 0, 0, 0, 0, 0,
      0, 0, 0, 0]

/-- Words of a user context that registers are written from. -/
def Arch.userContextAbiWords : Arch → Nat
  | riscv64 => 32
  | x8664 => 20

/-- Words of a user context that can be read. -/
def Arch.userContextWords : Arch → Nat
  | riscv64 => 32
  | x8664 => 24

/-- The registers copied with the frame, after the program counter. -/
def Arch.tcbFrameRegs (arch : Arch) : List Nat :=
  match arch with
  | riscv64 => (arch.userContextRegs.take 16).tail
  | x8664 => (arch.userContextRegs.take 18).tail

/-- The registers copied with the integers. -/
def Arch.tcbGpRegs (arch : Arch) : List Nat :=
  match arch with
  | riscv64 => arch.userContextRegs.drop 16
  | x8664 => [22, 23]

namespace UserContext

/-- Write the program counter, if there is one to write, and then some registers. -/
def write (arch : Arch) (uc : UserContext) (pc : Option Word) (regs : List (Nat × Word)) :
    UserContext :=
  let uc := match pc with
    | some pc => uc.applyWrittenPc arch pc
    | none => uc
  regs.foldl (fun uc (reg, value) => uc.setReg reg value) uc

/-- A word of the context as it is read out. -/
def word (arch : Arch) (uc : UserContext) (index : Nat) : Word :=
  if index = 0 then uc.restartPc
  else match arch.userContextRegs[index]? with
    | some reg => uc.regs reg
    | none => 0

end UserContext

/-- The thread a capability names. -/
def threadOf : Cap → Option Addr
  | .thread ptr => fromKva ptr
  | _ => none

/-- An extra capability that must name a thread. -/
def lookupThread (thread : Addr) (index : Nat) : Kern Addr := do
  let (cap, _) ← lookupExtraCapSlot thread index
  match threadOf cap with
  | some tcb => return tcb
  | none => raise .invalidCapability

/-- The buffer frame an invocation names, and where it came from; a zero address means none. -/
def lookupIpcBufferCapSlot (thread : Addr) (index : Nat) (bufferUva : Word) :
    Kern (Cap × Option Slot) := do
  let (cap, slot) ← lookupExtraCapSlot thread index
  if bufferUva = 0 then return (.null, none)
  match ← deriveCapForCopy slot cap with
  | .frame base size rights false addr asid =>
    if bufferUva % 2 ^ 10 ≠ 0 then raise .alignmentError
    return (.frame base size rights false addr asid, some slot)
  | _ => raise .illegalOperation

/-- Deleting one of these may take more than one look at the timer. -/
def slotCapLongRunningDelete (s : KState) (slot : Slot) : Bool :=
  match s.cap slot with
  | .thread .. | .zombie .. | .cnode .. => s.caps.isFinalCapability slot
  | _ => false

/-- Whether replacing the spaces of a thread could take long. -/
def tcbSpaceSlotLongRunningDelete (s : KState) (tcb : Addr) : Bool :=
  slotCapLongRunningDelete s (tcbSlot tcb tcbCTableSlot) ||
    slotCapLongRunningDelete s (tcbSlot tcb tcbVTableSlot)

/-- Insert a capability into a thread only if its source and the thread are still what they were. -/
def insertTcbCapIfLive (slot : Slot) (target : Addr) (dest : Slot) (newCap : Cap)
    (src : Option Slot) : Kern Unit := do
  match src with
  | none => pure ()
  | some src =>
    let s ← get
    if newCap ≠ .null ∧ newCap.sameObjectAs (s.cap src) ∧
        (Cap.thread target).sameObjectAs (s.cap slot) then
      cteInsert src newCap dest

/-- Replace one of the spaces of a thread. -/
def installTcbCap (slot : Slot) (target : Addr) (index : Nat) (newCap : Cap) (src : Slot) :
    Kern Unit := do
  deleteSlot (tcbSlot target index)
  insertTcbCapIfLive slot target (tcbSlot target index) newCap (some src)

/-- Where the memory behind a buffer frame lies. -/
def frameBasePtr : Cap → Option Addr
  | .frame base .. => fromKva base
  | _ => none

/-- Replace the message buffer of a thread. -/
def installTcbBufferCap (slot : Slot) (target : Addr) (bufferUva : Word) (bufferCap : Cap)
    (src : Option Slot) : Kern Unit := do
  deleteSlot (tcbSlot target tcbBufferSlot)
  modifyTcb target (·.setIpcBuffer bufferUva (frameBasePtr bufferCap))
  insertTcbCapIfLive slot target (tcbSlot target tcbBufferSlot) bufferCap src

/-- The two spaces an invocation wants a thread to have, derived and checked. -/
def decodeSpaces (target : Addr) (cspaceData vspaceData : Word) (cspace vspace : Cap × Slot) :
    Kern (Cap × Cap) := do
  if tcbSpaceSlotLongRunningDelete (← get) target then raise .illegalOperation
  let cspaceCap := if cspaceData ≠ 0 then cspace.1.updateData false cspaceData else cspace.1
  if cspaceData ≠ 0 ∧ cspaceCap = .null then raise .illegalOperation
  let cspaceCap ← deriveCapForCopy cspace.2 cspaceCap
  match cspaceCap with
  | .cnode .. => pure ()
  | _ => raise .illegalOperation
  let vspaceCap := if vspaceData ≠ 0 then vspace.1.updateData false vspaceData else vspace.1
  let vspaceCap ← deriveCapForCopy vspace.2 vspaceCap
  match vspaceCap with
  | .pageTable _ true .. => return (cspaceCap, vspaceCap)
  | _ => raise .illegalOperation

/-- Set the spaces, the fault handler and the buffer of a thread. -/
def tcbConfigure (thread uc : Addr) (slot : Slot) (target : Addr) (length : Word) : Kern Unit := do
  if length < 4 then raise .truncatedMessage
  requireExtraCaps uc 3
  let faultEp ← getMr uc 0
  let bufferUva ← getMr uc 3
  let cspace ← lookupExtraCapSlot thread 0
  let vspace ← lookupExtraCapSlot thread 1
  let (bufferCap, bufferSlot) ← lookupIpcBufferCapSlot thread 2 bufferUva
  let (cspaceCap, vspaceCap) ←
    decodeSpaces target (← getMr uc 1) (← getMr uc 2) cspace vspace
  installTcbCap slot target tcbCTableSlot cspaceCap cspace.2
  installTcbCap slot target tcbVTableSlot vspaceCap vspace.2
  modifyTcb target fun t => { t with faultEndpointCptr := faultEp }
  installTcbBufferCap slot target bufferUva bufferCap bufferSlot

/-- Set the spaces and the fault handler of a thread. -/
def tcbSetSpace (thread uc : Addr) (slot : Slot) (target : Addr) (length : Word) : Kern Unit := do
  if length < 3 then raise .truncatedMessage
  requireExtraCaps uc 2
  let faultEp ← getMr uc 0
  let cspace ← lookupExtraCapSlot thread 0
  let vspace ← lookupExtraCapSlot thread 1
  let (cspaceCap, vspaceCap) ←
    decodeSpaces target (← getMr uc 1) (← getMr uc 2) cspace vspace
  modifyTcb target fun t => { t with faultEndpointCptr := faultEp }
  installTcbCap slot target tcbCTableSlot cspaceCap cspace.2
  installTcbCap slot target tcbVTableSlot vspaceCap vspace.2

/-- Set the buffer of a thread. -/
def tcbSetIpcBuffer (thread uc : Addr) (slot : Slot) (target : Addr) (length : Word) :
    Kern Unit := do
  if length < 1 then raise .truncatedMessage
  requireExtraCaps uc 1
  let bufferUva ← getMr uc 0
  let (bufferCap, bufferSlot) ← lookupIpcBufferCapSlot thread 0 bufferUva
  installTcbBufferCap slot target bufferUva bufferCap bufferSlot

/-- Priorities are checked, and then have no effect. -/
def tcbSetPriorities (thread uc : Addr) (count : Nat) (length : Word) : Kern Unit := do
  if length < count then raise .truncatedMessage
  requireExtraCaps uc 1
  let first ← getMr uc 0
  let second ← getMr uc 1
  let _ ← lookupThread thread 0
  if 255 < first ∨ (count = 2 ∧ 255 < second) then raise .rangeError

/-- The register values a write carries; those past the second come from the buffer. -/
def writtenRegisters (s : KState) (uc : Addr) (count length : Nat) : List (Nat × Word) :=
  let arch := s.env.arch
  let buffer := s.threads.current.bind s.ipcBuffer
  let fromBuffer := match buffer with
    | some buffer =>
      if 5 ≤ length ∧ 3 ≤ count then
        (List.range' 2 (min (min length (count + 2)) 34 - 4)).filterMap fun index =>
          if arch.userContextAbiWords ≤ index then none
          else arch.userContextRegs[index]?.map fun reg => (reg, s.bufferWord buffer (1 + (index + 2)))
      else []
    | none => []
  let second := arch.userContextRegs.getD 1 0
  let fromRegister :=
    if 2 ≤ count ∧ 4 ≤ length ∧ second ≠ 0 then
      [(second, (s.threads.tcbs uc).context.mr arch 3)]
    else []
  fromBuffer ++ fromRegister

/-- Write the registers of another thread, and perhaps start it. -/
def tcbWriteRegisters (uc target : Addr) (length : Word) : Kern Unit := do
  if length < 2 then raise .truncatedMessage
  let flagWord ← getMr uc 0
  let count ← getMr uc 1
  if length - 2 < count then raise .truncatedMessage
  let s ← get
  if s.threads.current = some target then raise .illegalOperation
  let pc := if 1 ≤ count ∧ 3 ≤ length then some ((s.threads.tcbs uc).context.mr s.env.arch 2) else none
  modifyContext target fun arch context => context.write arch pc (writtenRegisters s uc count length)
  if flagWord.testBit 0 then resume target

/-- Read the registers of another thread, and perhaps suspend it. -/
def tcbReadRegisters (uc target : Addr) (length : Word) : Kern Unit := do
  if length < 2 then raise .truncatedMessage
  let flagWord ← getMr uc 0
  let count ← getMr uc 1
  let s ← get
  if count = 0 ∨ s.env.arch.userContextWords < count then raise .rangeError
  if s.threads.current = some target then raise .illegalOperation
  let n := min count 32
  let values := (List.range n).map ((s.threads.tcbs target).context.word s.env.arch)
  modifyContext uc fun arch context => context.setMrs arch values n
  match s.threads.current.bind s.ipcBuffer with
  | some buffer => setBufferWords buffer (1 + 4) (values.drop 4)
  | none => pure ()
  if flagWord.testBit 0 then suspend target

/-- Copy registers from one thread to another. -/
def tcbCopyRegisters (thread uc target : Addr) (length : Word) : Kern Unit := do
  if length < 1 then raise .truncatedMessage
  requireExtraCaps uc 1
  let flags ← getMr uc 0
  let src ← lookupThread thread 0
  let s ← get
  let arch := s.env.arch
  let context := (s.threads.tcbs src).context
  let pc := if flags.testBit 2 then some context.restartPc else none
  let regs := (if flags.testBit 2 then arch.tcbFrameRegs else []) ++
    if flags.testBit 3 then arch.tcbGpRegs else []
  if flags.testBit 0 then suspend src
  if flags.testBit 1 then resume target
  modifyContext target fun arch uc => uc.write arch pc (regs.map fun reg => (reg, context.regs reg))

/-- Bind a notification to a thread. -/
def tcbBindNotification (thread uc target : Addr) : Kern Unit := do
  requireExtraCaps uc 1
  let (cap, _) ← lookupExtraCapSlot thread 0
  match cap with
  | .notification ntfn _ _ true =>
    let s ← get
    let object := s.threads.ntfns ntfn
    if ntfn = 0 then raise .illegalOperation
    if (s.threads.tcbs target).boundNotification.isSome || object.ends.head.isSome ||
        object.boundTcb.isSome then raise .illegalOperation
    modifyThreads (·.bindNotification target ntfn)
  | _ => raise .illegalOperation

/-- Set and clear the flags of a thread; the answer is the new flags. -/
def tcbSetFlags (uc target : Addr) (length : Word) (reply : Bool) : Kern Unit := do
  if length < 2 then raise .truncatedMessage
  let clear ← getMr uc 0
  let set ← getMr uc 1
  let old := ((← get).threads.tcbs target).flags
  let flags := old - (old &&& clear) ||| set % 2
  modifyTcb target fun t => { t with flags }
  if reply then writeReplyMr0 uc flags

/-- Invocations of a thread; a plain send only gets through to the flags. -/
def handleThreadInner (thread uc : Addr) (slot : Slot) (cap : Cap) (label length : Word)
    (reply : Bool) : Kern Unit := do
  match threadOf cap with
  | none => raise .invalidCapability
  | some target =>
    match InvocationLabel.ofRaw label with
    | some .tcbConfigure => tcbConfigure thread uc slot target length
    | some .tcbSetSpace => tcbSetSpace thread uc slot target length
    | some .tcbSetIpcBuffer => tcbSetIpcBuffer thread uc slot target length
    | some .tcbSetPriority | some .tcbSetMcPriority => tcbSetPriorities thread uc 1 length
    | some .tcbSetSchedParams => tcbSetPriorities thread uc 2 length
    | some .tcbSuspend =>
      let isCurrent := (← get).threads.current = some target
      suspend target
      if isCurrent then raise .preempted
    | some .tcbResume =>
      let caller := (← get).threads.current
      resume target
      if caller.isSome && caller != some target then
        modifyThreads fun th => { th with continueCurrentOnce := caller }
    | some .tcbWriteRegisters => tcbWriteRegisters uc target length
    | some .tcbReadRegisters => tcbReadRegisters uc target length
    | some .tcbCopyRegisters => tcbCopyRegisters thread uc target length
    | some .tcbBindNotification => tcbBindNotification thread uc target
    | some .tcbUnbindNotification =>
      if ((← get).threads.tcbs target).boundNotification.isNone then raise .illegalOperation
      modifyThreads (·.unbindNotification target)
    | some .tcbSetTlsBase =>
      if length < 1 then raise .truncatedMessage
      let base ← getMr uc 0
      modifyContext target fun arch context => context.setReg arch.tlsReg base
    | some .tcbSetFlags => tcbSetFlags uc target length reply
    | _ => raise .illegalOperation

/-- A thread invoked by a call. -/
def handleThread (thread uc : Addr) (slot : Slot) (cap : Cap) (label length : Word) : Kern Unit :=
  handleThreadInner thread uc slot cap label length true

/-- A thread invoked by a plain send. -/
def handleThreadSend (thread uc : Addr) (slot : Slot) (cap : Cap) (label length : Word) :
    Kern Unit :=
  if InvocationLabel.ofRaw label = some .tcbSetFlags then
    handleThreadInner thread uc slot cap label length false
  else pure ()

end Rel4
