import Rel4.Kernel.Rights

/-! Invocations of frames, page tables, identifier pools, interrupts and ports. -/

namespace Rel4

/-- Answer in the first message register, and in the buffer as well. -/
def writeReplyMr0 (uc : Addr) (value : Word) : Kern Unit := do
  setMr uc 0 value
  writeCurrentIpcBufferWord 1 value

/-- The error a refused mapping answers with. -/
def userMapError : UserMapError → SyscallError
  | .invalidArgument => .invalidArgument
  | .failedLookup _ => .failedLookup
  | .deleteFirst => .deleteFirst

/-- A refused mapping also says at which level the walk stopped. -/
def userMapErrorReply {α : Type} (uc : Addr) (e : UserMapError) : Kern α := do
  match e with
  | .failedLookup bitsLeft =>
    setMr uc 2 bitsLeft
    writeCurrentIpcBufferWord 3 bitsLeft
  | _ => pure ()
  raise (userMapError e)

/-- The root table and identifier an extra capability names, checked against the table. -/
def lookupVspace (thread : Addr) : Kern (Addr × Nat) := do
  let (vspaceCap, _) ← lookupExtraCapSlot thread 0
  match vspaceCap with
  | .pageTable root isMapped _ asid =>
    if !isMapped || asid = 0 then raise .invalidCapability
    let asidRoot := (← get).vm.asids.lookup asid
    if asidRoot = 0 then raise .failedLookup
    if asidRoot ≠ root then raise .invalidCapability
    return (root, asid)
  | _ => raise .invalidCapability

/-- Map a frame. -/
def pageMap (thread uc : Addr) (slot : Slot) (cap : Cap) (length : Word) : Kern Unit := do
  if length < 3 then raise .truncatedMessage
  requireExtraCaps uc 1
  let vaddr ← getMr uc 0
  let mask := CapRights.ofWord (← getMr uc 1)
  let execNever := (← getMr uc 2).testBit 0
  let (root, asid) ← lookupVspace thread
  let s ← get
  if !(s.cap slot).sameObjectAs cap then raise .invalidCapability
  match cap, s.cap slot with
  | .frame base _ rights .., .frame _ size _ _ mappedAddr mappedAsid =>
    let rights := maskFrameVmRights rights mask
    let flags := Pte.userFrameFlags s.env.arch rights.allowRead rights.allowWrite (!execNever)
    let isMapped := mappedAsid ≠ 0
    if isMapped ∧ mappedAsid ≠ asid then raise .invalidCapability
    if isMapped ∧ mappedAddr ≠ vaddr then raise .invalidArgument
    match prepareUserFrameMapAt s.env.arch s.vm root vaddr (s.env.arch.kvaToPa base) size flags
        isMapped with
    | .error e => userMapErrorReply uc e
    | .ok prepared =>
      modify (·.updateCap slot (Cap.setFrameMappedAddr vaddr))
      modify (·.updateCap slot (Cap.setFrameMappedAsid asid))
      modify fun s => { s with vm := commitUserFrameMap s.vm prepared }
  | _, _ => raise .invalidCapability

/-- Unmap a frame from wherever its capability says it is mapped. -/
def pageUnmap (slot : Slot) (cap : Cap) : Kern Unit := do
  let s ← get
  if !(s.cap slot).sameObjectAs cap then raise .invalidCapability
  match cap, s.cap slot with
  | .frame base size .., .frame _ _ _ _ mappedAddr mappedAsid =>
    if mappedAsid ≠ 0 then
      let root := s.vm.asids.lookup mappedAsid
      if root ≠ 0 then
        let pa := s.env.arch.kvaToPa base
        set { s with vm := unmapUserFrame s.env.arch s.vm root mappedAddr size pa }
      modify (·.updateCap slot (Cap.setFrameMappedAddr 0))
      modify (·.updateCap slot (Cap.setFrameMappedAsid 0))
  | _, _ => raise .invalidCapability

/-- Frame invocations. -/
def handleFrame (thread uc : Addr) (slot : Slot) (cap : Cap) (label length : Word) :
    Kern Unit := do
  match ← archLabelOf label, cap with
  | some .pageMap, _ => pageMap thread uc slot cap length
  | some .pageUnmap, _ => pageUnmap slot cap
  | some .pageGetAddress, .frame base .. => writeReplyMr0 uc ((← get).env.arch.kvaToPa base)
  | _, _ => raise .illegalOperation

/-- Link a page table below the root an extra capability names. -/
def pageTableMap (thread uc : Addr) (slot : Slot) (cap : Cap) (coverage : Nat) (length : Word) :
    Kern Unit := do
  if length < 2 then raise .truncatedMessage
  requireExtraCaps uc 1
  match cap with
  | .pageTable _ true .. => raise .invalidCapability
  | _ => pure ()
  let vaddr ← getMr uc 0
  let (root, asid) ← lookupVspace thread
  let s ← get
  if !(s.cap slot).sameObjectAs cap then raise .invalidCapability
  match s.cap slot with
  | .pageTable base isMapped .. =>
    if isMapped then raise .invalidCapability
    match prepareUserPageTableMap s.env.arch s.vm root vaddr base coverage with
    | .error e => userMapErrorReply uc e
    | .ok prepared =>
      modify (·.updateCap slot (Cap.setPageTableMapping asid prepared.mappedAddr))
      modify fun s => { s with vm := commitUserPageTableMap s.vm prepared }
  | _ => raise .invalidCapability

/--
Unlink a page table and clear it.

The flag that it is mapped is cleared on a copy of the capability only, so the slot keeps it.
-/
def pageTableUnmap (slot : Slot) (cap : Cap) : Kern Unit := do
  let s ← get
  if !(s.cap slot).sameObjectAs cap then raise .invalidCapability
  if !s.caps.isFinalCapability slot then raise .revokeFirst
  match s.cap slot with
  | .pageTable base isMapped mappedAddr mappedAsid =>
    if isMapped then
      let root := s.vm.asids.lookup mappedAsid
      if root = base then raise .revokeFirst
      let vm := if root ≠ 0 then unmapUserPageTable s.env.arch s.vm root mappedAddr base else s.vm
      set { s with vm := vm.clearTable (s.env.arch.kvaToPa base) }
  | _ => pure ()

/-- Page-table invocations. -/
def handlePageTable (thread uc : Addr) (slot : Slot) (cap : Cap) (label length : Word) :
    Kern Unit := do
  match ← archLabelOf label with
  | some (.pageTableMap coverage) => pageTableMap thread uc slot cap coverage length
  | some .pageTableUnmap => pageTableUnmap slot cap
  | _ => raise .illegalOperation

/-- Turn an untyped block of the right size into a pool of identifiers. -/
def handleAsidControl (thread uc : Addr) (label length : Word) : Kern Unit := do
  if (← archLabelOf label) ≠ some .asidControlMakePool then raise .illegalOperation
  if length < 2 then raise .truncatedMessage
  requireExtraCaps uc 2
  let (untypedCap, untypedSlot) ← lookupExtraCapSlot thread 0
  match untypedCap with
  | .untyped ptr bits _ isDevice =>
    let (root, _) ← lookupExtraCapSlot thread 1
    match root with
    | .cnode .. => pure ()
    | _ => raise .invalidCapability
    match (← get).vm.asids.nextFreePoolBase with
    | none => raise .deleteFirst
    | some base =>
      if bits ≠ asidPoolBits ∨ isDevice then raise .invalidCapability
      if (← get).caps.mdbHasChildren untypedSlot then raise .revokeFirst
      let dest ← resolveSlot root (← getMr uc 0) ((← getMr uc 1) % 2 ^ 8)
      if !((← get).cap dest).isNull then raise .deleteFirst
      setFreeIndex untypedSlot (2 ^ (asidPoolBits - minUntypedBits))
      modify (·.zeroRange ptr (2 ^ asidPoolBits))
      cteInsert untypedSlot (.asidPool base ptr) dest
      let s ← get
      match s.vm.asids.publishPool base ptr with
      | some asids => set { s with vm := { s.vm with asids } }
      | none => crash "ASID pool base changed before publication"
  | _ => raise .invalidCapability

/-- The error for an identifier that cannot be taken from a pool. -/
def asidPoolAssignError : AsidPoolAssignError → SyscallError
  | .missingPool => .failedLookup
  | .wrongPool => .invalidCapability
  | .full => .deleteFirst

/-- Give a page table an identifier, which makes it a root. -/
def handleAsidPool (thread uc : Addr) (cap : Cap) (label : Word) : Kern Unit := do
  if (← archLabelOf label) ≠ some .asidPoolAssign then raise .illegalOperation
  requireExtraCaps uc 1
  let (vspaceCap, vspaceSlot) ← lookupExtraCapSlot thread 0
  match cap, vspaceCap with
  | .asidPool base ptr, .pageTable root isMapped _ mappedAsid =>
    if isMapped ∨ mappedAsid ≠ 0 then raise .invalidCapability
    match (← get).vm.asids.nextFreeFromPool base ptr with
    | .error e => raise (asidPoolAssignError e)
    | .ok asid =>
      modify (·.updateCap vspaceSlot (Cap.setPageTableMapping asid 0))
      copyKernelMappingsTo root
      let s ← get
      match s.vm.asids.publishPoolAssignment base ptr asid root with
      | some asids => set { s with vm := { s.vm with asids } }
      | none => crash "ASID pool assignment changed before publication"
  | _, _ => raise .invalidCapability

end Rel4
