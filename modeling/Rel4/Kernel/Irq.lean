import Rel4.Kernel.Invoke

/-! Invocations of interrupts, of the ports of an x86-64 machine, and of the scheduling domain. -/

namespace Rel4

/-- Answer that an argument is out of range, with the range in the message registers. -/
def rangeError {α : Type} (uc : Addr) (low high : Word) : Kern α := do
  setMr uc 0 low
  setMr uc 1 high
  raise .rangeError

/-- Whether somebody holds the handler of an interrupt. -/
def KState.isActive (s : KState) (irq : Nat) : Bool :=
  s.env.arch.validIrq irq && s.irqActive irq

/-- The empty slot an issued capability goes to. -/
def issueDestination (thread : Addr) (index : Word) (depth : Nat) : Kern Slot := do
  let (root, _) ← lookupExtraCapSlot thread 0
  let dest ← resolveSlot root index depth
  if !((← get).cap dest).isNull then raise .deleteFirst
  return dest

/-- Issue the handler of an interrupt. -/
def issueIrqHandler (thread uc : Addr) (slot : Slot) (irq index : Word) (depth : Nat) :
    Kern Unit := do
  let s ← get
  if !s.env.arch.validIrq irq then rangeError uc 1 s.env.arch.maxIrq
  if s.isActive irq then raise .revokeFirst
  let dest ← issueDestination thread index depth
  modify fun s =>
    { s with
      irqActive := Function.update s.irqActive irq true
      ioapic := s.ioapic.setPinMasked irq false }
  cteInsert slot (.irqHandler (irq % 2 ^ 12)) dest

/-- First interrupt user space can route to a pin. -/
def irqUserMin : Nat := 16
/-- Last interrupt user space can route to a pin. -/
def irqUserMax : Nat := 123

/-- What the interrupt controller adds to an interrupt to get its vector. -/
def irqIntOffset : Nat := 0x20

/-- Route a pin to an interrupt; the pin stays masked until the handler is issued. -/
def Ioapic.mapPinToIrq (ioapic : Ioapic) (pins pin irq : Nat) (level polarityLow : Bool)
    (vector : Nat) : Ioapic :=
  if 256 < irq ∨ pins ≤ pin then ioapic
  else
    { rtes := Function.update ioapic.rtes pin { vector, masked := true, level, polarityLow }
      routes := Function.update ioapic.routes irq (some pin) }

/-- Route a pin of the interrupt controller to an interrupt, and issue its handler. -/
def issueIoapicIrqHandler (thread uc : Addr) (slot : Slot) (length : Word) : Kern Unit := do
  if length < 7 then raise .truncatedMessage
  requireExtraCaps uc 1
  let index ← getMr uc 0
  let depth ← getMr uc 1
  let ioapicId ← getMr uc 2
  let pin ← getMr uc 3
  let level ← readMr uc 4
  let polarity ← readMr uc 5
  let vectorArg ← readMr uc 6
  let s ← get
  if irqUserMax - irqUserMin < vectorArg then rangeError uc 0 (irqUserMax - irqUserMin)
  let irq := vectorArg + irqUserMin
  if ioapicId ≠ 0 then rangeError uc 0 0
  if s.env.ioapicPins ≤ pin then rangeError uc 0 (s.env.ioapicPins - 1)
  if 1 < level then rangeError uc 0 1
  if 1 < polarity then rangeError uc 0 1
  if s.isActive irq then raise .revokeFirst
  set { s with
    ioapic := s.ioapic.mapPinToIrq s.env.ioapicPins pin irq (level ≠ 0) (polarity ≠ 0)
      ((irq + irqIntOffset) % 2 ^ 8) }
  issueIrqHandler thread uc slot irq index (depth % 2 ^ 32)

/-- Invocations of the interrupt control capability. -/
def handleIrqControl (thread uc : Addr) (slot : Slot) (label length : Word) : Kern Unit := do
  let arch := (← get).env.arch
  match InvocationLabel.ofRaw label, ← archLabelOf label with
  | some .irqIssueIrqHandler, _ =>
    if length < 3 then raise .truncatedMessage
    requireExtraCaps uc 1
    let irq ← getMr uc 0
    -- On x86-64 pins have an invocation of their own, so only the timer is issued here.
    if arch = .x8664 ∧ irq ≠ arch.maxIrq then raise .illegalOperation
    issueIrqHandler thread uc slot irq (← getMr uc 1) ((← getMr uc 2) % 2 ^ 8)
  | _, some .irqIssueIrqHandlerIoapic => issueIoapicIrqHandler thread uc slot length
  | _, some .irqIssueIrqHandlerTrigger =>
    if length < 4 then raise .truncatedMessage
    requireExtraCaps uc 1
    raise .illegalOperation
  | _, _ => raise .illegalOperation

/-- Whether a capability still names a notification and badge that may be signalled. -/
def sameNotificationSendCap (current : Cap) (ntfn : Addr) (badge : Word) : Bool :=
  match current with
  | .notification ptr badge' true _ => ptr == ntfn && badge' == badge
  | _ => false

/-- Bind a notification to an interrupt; the answer is whether that was possible. -/
def setNotification (irq : Nat) (ntfn : Addr) (badge : Word) (ntfnSlot : Slot) : Kern Bool := do
  let s ← get
  if !s.isActive irq then return false
  if !sameNotificationSendCap (s.cap ntfnSlot) ntfn badge then return false
  clearNotification irq
  -- Dropping the old binding may have destroyed the capability to bind.
  let current := (← get).cap ntfnSlot
  if !sameNotificationSendCap current ntfn badge then return false
  cteInsert ntfnSlot current (s.env.notificationSlot irq)
  return true

/-- Invocations of an interrupt handler. -/
def handleIrqHandler (thread uc : Addr) (cap : Cap) (label : Word) : Kern Unit := do
  match InvocationLabel.ofRaw label, cap with
  | some .irqAck, _ => pure ()
  | some .irqSetHandler, .irqHandler irq =>
    requireExtraCaps uc 1
    let (ntfnCap, ntfnSlot) ← lookupExtraCapSlot thread 0
    match ntfnCap with
    | .notification ntfn badge true _ =>
      if !(← setNotification irq ntfn badge ntfnSlot) then raise .invalidCapability
    | _ => raise .invalidCapability
  | some .irqClearHandler, .irqHandler irq => clearNotification irq
  | _, _ => raise .illegalOperation

/-- Whether a range of ports is free. -/
def KState.portsFree (s : KState) (first last : Nat) : Bool :=
  (List.range' first (last + 1 - first)).all fun port => !s.ioPorts port

/-- Issue a range of ports. -/
def handleIoPortControl (thread uc : Addr) (slot : Slot) (label length : Word) : Kern Unit := do
  if (← archLabelOf label) ≠ some .ioPortControlIssue then raise .illegalOperation
  if length < 4 then raise .truncatedMessage
  requireExtraCaps uc 1
  let first := (← getMr uc 0) % 2 ^ 16
  let last := (← getMr uc 1) % 2 ^ 16
  if last < first then raise .invalidArgument
  if !(← get).portsFree first last then raise .revokeFirst
  let dest ← issueDestination thread (← getMr uc 2) ((← getMr uc 3) % 2 ^ 32)
  modify fun s =>
    { s with ioPorts := fun port => if first ≤ port ∧ port ≤ last then true else s.ioPorts port }
  cteInsert slot (.ioPort first last) dest

/-- Whether a range of ports covers an access; the end of the access saturates. -/
def ioPortCovers (first last port size : Nat) : Bool :=
  first ≤ port && min (port + (size - 1)) (2 ^ 16 - 1) ≤ last && 0 < size

/-- Read or write a port. -/
def handleIoPort (uc : Addr) (cap : Cap) (label length : Word) : Kern Unit := do
  match cap, ← archLabelOf label with
  | .ioPort first last, some (.ioPortIn size) =>
    if length < 1 then raise .truncatedMessage
    let port := (← getMr uc 0) % 2 ^ 16
    if !ioPortCovers first last port size then raise .illegalOperation
    let s ← get
    set { s with portInputs := s.portInputs.tail, portLog := ⟨port, size, none⟩ :: s.portLog }
    writeReplyMr0 uc (s.portInputs.headD 0 % 2 ^ (8 * size))
  | .ioPort first last, some (.ioPortOut size) =>
    if length < 2 then raise .truncatedMessage
    let port := (← getMr uc 0) % 2 ^ 16
    let data := (← getMr uc 1) % 2 ^ (8 * size)
    if !ioPortCovers first last port size then raise .illegalOperation
    modify fun s => { s with portLog := ⟨port, size, some data⟩ :: s.portLog }
  | _, _ => raise .illegalOperation

/-- The domain invocation is checked, and then does nothing. -/
def handleDomain (thread uc : Addr) (label length : Word) : Kern Unit := do
  if InvocationLabel.ofRaw label ≠ some .domainSet then raise .illegalOperation
  if length < 1 then raise .truncatedMessage
  requireExtraCaps uc 1
  if (← getMr uc 0) ≠ 0 then raise .invalidArgument
  let (cap, _) ← lookupExtraCapSlot thread 0
  match cap with
  | .thread ptr => if ptr = 0 then raise .invalidCapability
  | _ => raise .invalidCapability

end Rel4
