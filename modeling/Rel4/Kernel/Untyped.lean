import Rel4.Kernel.Delete

/-! Retyping: new objects carved from an untyped block, and the reset of a block without children. -/

namespace Rel4

/-- The kinds of object that can be created; the tables of every level are one kind. -/
inductive ObjectType
  | untyped
  | tcb
  | endpoint
  | notification
  | capTable
  | frame (size : FrameSize)
  | pageTable
deriving DecidableEq

namespace ObjectType

/-- The numbers user space gives the kinds; they differ between the instruction sets. -/
def fromRaw (arch : Arch) (value : Word) : Option ObjectType :=
  match arch, value with
  | _, 0 => some untyped
  | _, 1 => some tcb
  | _, 2 => some endpoint
  | _, 3 => some notification
  | _, 4 => some capTable
  | .riscv64, 5 => some (frame .gigapage)
  | .riscv64, 6 => some (frame .page4K)
  | .riscv64, 7 => some (frame .megapage)
  | .riscv64, 8 => some pageTable
  | .x8664, 5 => some pageTable
  | .x8664, 6 => some pageTable
  | .x8664, 7 => some (frame .gigapage)
  | .x8664, 8 => some (frame .page4K)
  | .x8664, 9 => some (frame .megapage)
  | .x8664, 10 => some pageTable
  | .x8664, 11 => some pageTable
  | _, _ => none

/-- Bytes of an object, as a power of two. -/
def sizeBits (userSize : Nat) : ObjectType → Nat
  | untyped => userSize
  | tcb => tcbBits
  | endpoint => endpointBits
  | notification => notificationBits
  | capTable => userSize + slotBits
  | frame size => size.bits
  | pageTable => pageTableBits

/-- Device memory only becomes frames or smaller blocks. -/
def deviceRetypeAllowed : ObjectType → Bool
  | untyped | frame _ => true
  | _ => false

/-- The first capability to a new object. -/
def createCap (base : Addr) (userSize : Nat) (isDevice : Bool) : ObjectType → Cap
  | untyped => .untyped base userSize 0 isDevice
  | tcb => .thread base
  | endpoint => .newEndpoint base
  | notification => .newNotification base
  | capTable => .cnode base userSize 0 0
  | frame size => .newFrame base size .readWrite isDevice
  | pageTable => .newPageTable base

end ObjectType

/-- Most objects one invocation creates. -/
def retypeFanOutLimit : Nat := 256
/-- Bytes a reset clears between two looks at the timer, as a power of two. -/
def resetChunkBits : Nat := 8

/-- Whether an address lies in a range of bytes. -/
def inRange (base size va : Nat) : Bool := base ≤ va && va < base + size

/-- The thread that all-zero bytes stand for. -/
def Tcb.zero : Tcb := { timeSlice := 0 }

namespace Threads

/-- What zeroing a range of bytes does to the objects that start in it. -/
def zeroRange (th : Threads) (base size : Nat) : Threads :=
  { th with
    tcbs := fun va => if inRange base size va then Tcb.zero else th.tcbs va
    links := fun va => if inRange base size va then {} else th.links va
    eps := fun va => if inRange base size va then {} else th.eps va
    ntfns := fun va => if inRange base size va then {} else th.ntfns va }

/-- A new thread: zero but for its time slice and the status its registers start with. -/
def initTcb (th : Threads) (arch : Arch) (tcb : Addr) : Threads :=
  let th := th.clearLinks tcb
  th.updTcb tcb fun _ => { context := UserContext.init arch }

end Threads

/-- What zeroing a range of bytes does to the capability slots in it. -/
def CapStore.zeroRange (cs : CapStore) (base size : Nat) : CapStore :=
  { cs with ctes := fun slot => if inRange base size slot then {} else cs.ctes slot }

/-- What zeroing a range of bytes does to the tables that start in it. -/
def Vm.zeroRange (vm : Vm) (arch : Arch) (base size : Nat) : Vm :=
  { vm with
    tables := fun table => if inRange (arch.kvaToPa base) size table then fun _ => {} else vm.tables table }

/-- Zero a range of bytes. -/
def KState.zeroRange (s : KState) (base size : Nat) : KState :=
  { s with
    caps := s.caps.zeroRange base size
    threads := s.threads.zeroRange base size
    vm := s.vm.zeroRange s.env.arch base size
    buffers := fun va => if inRange base size va then fun _ => 0 else s.buffers va }

/-- Initialise a new thread. -/
def initTcb (tcb : Addr) : Kern Unit := do
  let s ← get
  modifyThreads (·.initTcb s.env.arch tcb)
  setupReplyMaster tcb

/-- Set up a new object in memory that is all zero. -/
def initObject (type : ObjectType) (base : Addr) : Kern Unit :=
  match type with
  | .tcb => initTcb base
  | .endpoint => modifyThreads (·.updEp base fun _ => {})
  | .notification => modifyThreads (·.updNtfn base fun _ => {})
  | _ => pure ()

/-- Check the kind and size of the objects to create. -/
def validateRetypeObjectSize (type : Word) (userSize : Nat) (uc : Addr) :
    Kern (ObjectType × Nat) := do
  match ObjectType.fromRaw (← get).env.arch type with
  | none => raise .invalidArgument
  | some type =>
    let bits := type.sizeBits userSize
    if wordBits ≤ userSize ∨ maxUntypedBits < bits then
      setMr uc 0 0
      setMr uc 1 maxUntypedBits
      raise .rangeError
    else if type = .capTable ∧ userSize = 0 then raise .invalidArgument
    else if type = .untyped ∧ userSize < minUntypedBits then raise .invalidArgument
    else return (type, bits)

/-- Record how much of a block is in use. -/
def setFreeIndex (slot : Slot) (freeIndex : Nat) : Kern Unit :=
  modify (·.updateCap slot (Cap.setUntypedFreeIndex freeIndex))

/-- Clear one chunk of a block, and record that nothing above it is in use. -/
def resetChunk (slot : Slot) (base : Addr) (chunk : Nat) : Kern Unit := do
  let offset := chunk * 2 ^ resetChunkBits
  modify (·.zeroRange (base + offset) (2 ^ resetChunkBits))
  setFreeIndex slot (offset / 2 ^ minUntypedBits)
  cnodePreemptionPoint

/-- Clear a block chunk by chunk, from its used end downwards. -/
def resetChunks (slot : Slot) (base : Addr) : Nat → Kern Unit
  | 0 => resetChunk slot base 0
  | chunk + 1 => do
    resetChunk slot base (chunk + 1)
    resetChunks slot base chunk

/-- Clear a block that has no children left. -/
def resetUntypedCapForRetype (slot : Slot) (base : Addr) (bits freeIndex : Nat) (isDevice : Bool) :
    Kern Unit := do
  if freeIndex = 0 then return
  if isDevice || bits < resetChunkBits then
    if !isDevice then modify (·.zeroRange base (2 ^ bits))
    setFreeIndex slot 0
  else
    resetChunks slot base ((freeIndex * 2 ^ minUntypedBits - 1) / 2 ^ resetChunkBits)

/-- Create objects one after the other, each with a capability in the next destination slot. -/
def createObjects (src : Slot) (type : ObjectType) (userSize bits : Nat) (isDevice : Bool) :
    Addr → List Slot → Kern Unit
  | _, [] => pure ()
  | base, dest :: dests => do
    initObject type base
    insertNewCap src dest (type.createCap base userSize isDevice)
    createObjects src type userSize bits isDevice (base + 2 ^ bits) dests

/-- The node whose slots an invocation fills. -/
def retypeDestination (thread uc : Addr) : Kern Cap := do
  let nodeIndex ← getMr uc 2
  let nodeDepth ← getMr uc 3
  let (root, _) ← lookupExtraCapSlot thread 0
  if nodeDepth = 0 then return root
  let slot ← resolveSlot root nodeIndex (nodeDepth % 2 ^ 32)
  return (← get).cap slot

/-- The slots an invocation fills; they must exist and be empty. -/
def retypeSlots (uc : Addr) (dest : Cap) (offset window : Nat) : Kern (List Slot) := do
  match dest with
  | .cnode ptr radix .. =>
    if 2 ^ radix ≤ offset then
      setMr uc 0 0
      setMr uc 1 (2 ^ radix - 1)
      raise .rangeError
    if window < 1 ∨ retypeFanOutLimit < window then
      setMr uc 0 1
      setMr uc 1 retypeFanOutLimit
      raise .rangeError
    if 2 ^ radix - offset < window then
      setMr uc 0 1
      setMr uc 1 (2 ^ radix - offset)
      raise .rangeError
    if ptr = 0 then raise .failedLookup
    let slots := (List.range window).map fun i => slotAt ptr (offset + i)
    let s ← get
    if slots.any fun slot => !(s.cap slot).isNull then raise .deleteFirst
    return slots
  | _ => raise .failedLookup

/-- Create objects in the free part of an untyped block. -/
def handleUntyped (thread uc : Addr) (slot : Slot) (cap : Cap) (label length : Word) :
    Kern Unit := do
  if InvocationLabel.ofRaw label ≠ some .untypedRetype then raise .illegalOperation
  if length < 6 then raise .truncatedMessage
  requireExtraCaps uc 1
  let (type, bits) ← validateRetypeObjectSize (← getMr uc 0) (← getMr uc 1) uc
  let userSize ← getMr uc 1
  let dest ← retypeDestination thread uc
  let window ← currentIpcBufferWord (1 + 5)
  let slots ← retypeSlots uc dest (← currentIpcBufferWord (1 + 4)) window
  match cap with
  | .untyped base blockBits storedIndex isDevice =>
    let hasChildren := (← get).caps.mdbHasChildren slot
    let used := (if hasChildren then storedIndex else 0) * 2 ^ minUntypedBits
    let start := alignUp used bits
    let total := window * 2 ^ bits
    if 2 ^ blockBits < start + total then raise .notEnoughMemory
    if isDevice && !type.deviceRetypeAllowed then raise .invalidArgument
    if !hasChildren && storedIndex != 0 then
      resetUntypedCapForRetype slot base blockBits storedIndex isDevice
    setFreeIndex slot ((start + total) / 2 ^ minUntypedBits)
    if !isDevice then modify (·.zeroRange (base + start) total)
    createObjects slot type userSize bits isDevice (base + start) slots
  | _ => raise .invalidCapability

end Rel4
