import Rel4.Kernel.Asid

/-! Deletion: finalising capabilities, tearing down zombies, and revoking descendants. -/

namespace Rel4

/-- Whether an address lies in the window of directly mapped memory. -/
def isPspaceKva (va : Addr) : Bool := pptrBase ≤ va && va < pptrTop

/-- Boot objects lie above that window, in the kernel image. -/
def isBootOrPspaceObjectKva (arch : Arch) (va : Addr) : Bool :=
  isPspaceKva va || arch.kernelElfBase ≤ va

/-- The timer's interrupt, which is also the largest one. -/
def Arch.maxIrq : Arch → Nat
  | riscv64 => 96
  | x8664 => 256

/-- Whether a number names an interrupt. -/
def Arch.validIrq (arch : Arch) (irq : Nat) : Bool := 0 < irq && irq ≤ arch.maxIrq

/-- The slot that holds the notification bound to an interrupt. -/
def Env.notificationSlot (env : Env) (irq : Nat) : Slot := slotAt env.irqNode irq

/-- Mask or unmask the pin an interrupt is routed to, if it is routed at all. -/
def Ioapic.setPinMasked (ioapic : Ioapic) (irq : Nat) (masked : Bool) : Ioapic :=
  match ioapic.routes irq with
  | some pin =>
    { ioapic with rtes := Function.update ioapic.rtes pin { ioapic.rtes pin with masked } }
  | none => ioapic

/-- Wake every waiter when the last capability to a notification goes. -/
def Threads.ntfnFinalize (env : Env) (th : Threads) (ntfn : Addr) : Threads :=
  let bound := (th.ntfns ntfn).boundTcb
  let th := th.updNtfn ntfn fun n => { n with boundTcb := none }
  let th := match bound with
    | some bound => if isPspaceKva bound then th.clearBoundNotificationIf bound ntfn else th
    | none => th
  if (th.ntfns ntfn).state = .waiting then
    let head := (th.ntfns ntfn).ends.head
    restartWaiters env walkLimit head (th.updNtfn ntfn fun n => { n with ends := {}, state := .idle })
  else th

/-- Finalise the kinds of capability that go at once; the answer is whether it was one of them. -/
def finalizeAtOnce (cap : Cap) (isFinal : Bool) : Kern Bool := do
  let s ← get
  match cap with
  | .frame base size _ _ mappedAddr mappedAsid =>
    if mappedAsid ≠ 0 then
      let root := s.vm.asids.lookup mappedAsid
      if root ≠ 0 then
        let pa := s.env.arch.kvaToPa base
        set { s with vm := unmapUserFrame s.env.arch s.vm root mappedAddr size pa }
    return true
  | .pageTable base isMapped mappedAddr mappedAsid =>
    if isFinal && isMapped then
      let root := s.vm.asids.lookup mappedAsid
      if root ≠ 0 ∧ root = base then
        set { s with vm := { s.vm with asids := s.vm.asids.delete mappedAsid base } }
      else
        set { s with vm := unmapUserPageTable s.env.arch s.vm root mappedAddr base }
    return true
  | .asidPool base ptr =>
    if isFinal then
      set { s with vm := { s.vm with asids := s.vm.asids.deletePool base ptr } }
    return true
  | .asidControl => return true
  | .endpoint ptr .. =>
    if isFinal then
      if ptr = 0 ∨ !isPspaceKva ptr then crash "final Endpoint cap must point at an endpoint"
      set { s with threads := s.threads.epFinalize s.env ptr }
    return true
  | .notification ptr .. =>
    if isFinal then
      if ptr = 0 ∨ !isPspaceKva ptr then crash "final Notification cap must point at a notification"
      set { s with threads := s.threads.ntfnFinalize s.env ptr }
    return true
  | .reply .. | .null | .domain => return true
  | _ => return false

/-- The interrupt of a deleted handler becomes available again. -/
def postCapDeletion (cleanupInfo : Cap) : Kern Unit := do
  match cleanupInfo with
  | .irqHandler irq =>
    let s ← get
    if s.env.arch.validIrq irq then
      set { s with
        irqActive := Function.update s.irqActive irq false
        ioapic := s.ioapic.setPinMasked irq true }
  | _ => pure ()

/-- Empty a slot whose capability has been finalised. -/
def emptyFinalizedSlot (slot : Slot) (cleanupInfo : Cap) : Kern Unit := do
  let s ← get
  if !(s.cap slot).isNull then
    set { s with caps := s.caps.emptySlot slot }
    postCapDeletion cleanupInfo

/-- Delete a capability that must go at once. -/
def cteDeleteOne (slot : Slot) : Kern Unit := do
  let s ← get
  if !(s.cap slot).isNull then
    if ← finalizeAtOnce (s.cap slot) (s.caps.isFinalCapability slot) then
      emptyFinalizedSlot slot .null
    else crash "finaliseCap: failed to finalise immediately"

/-- Put the master reply capability into its slot, if the slot is free. -/
def setupReplyMaster (tcb : Addr) : Kern Unit := do
  let s ← get
  let slot := tcbSlot tcb tcbReply
  if (s.cap slot).isNull then
    set { s with caps := s.caps.installRoot slot (.reply tcb true true) }

/-- Forget the reply capability of the last caller. -/
def deleteCallerCap (receiver : Addr) : Kern Unit := cteDeleteOne (tcbSlot receiver tcbCaller)

/-- A thread that no longer waits for a reply takes the reply capability back. -/
def cancelBlockedOnReply (tcb : Addr) : Kern Unit := do
  modifyTcb tcb Tcb.clearFault
  match ((← get).mdb (tcbSlot tcb tcbReply)).next with
  | some derived => cteDeleteOne derived
  | none => pure ()

/-- Give the receiver of a call the capability to reply to it. -/
def setupCallerCap (sender receiver : Addr) (canGrant : Bool) : Kern Bool := do
  setupReplyMaster sender
  modifyTcb sender Tcb.setBlockedOnReply
  let replySlot := tcbSlot sender tcbReply
  let callerSlot := tcbSlot receiver tcbCaller
  match (← get).cap replySlot with
  | .reply tcb _ isMaster =>
    if !isMaster || tcb != sender then return false
    if !((← get).cap callerSlot).isNull then deleteCallerCap receiver
    cteInsert replySlot (.reply sender canGrant false) callerSlot
    return true
  | _ => return false

/-- Take a thread off every queue and stop it. -/
def suspend (tcb : Addr) : Kern Unit := do
  let s ← get
  if !Threads.isIdleThread s.env tcb then
    modifyThreads (·.unlinkFromWaitObject tcb)
    modifyThreads (·.dequeue tcb)
    cancelBlockedOnReply tcb
    modifyTcb tcb fun t => { t with state := .inactive }

/-- Restart a stopped thread. -/
def resume (tcb : Addr) : Kern Unit := do
  let s ← get
  if !Threads.isIdleThread s.env tcb && (s.threads.tcbs tcb).state.isStopped then
    modifyThreads (·.unlinkFromWaitObject tcb)
    cancelBlockedOnReply tcb
    setupReplyMaster tcb
    modifyTcb tcb fun t => { t with state := .restart }
    modifyThreads (·.enqueue s.env tcb)

/-- Wipe a thread whose last capability goes. -/
def finalizeTcb (tcb : Addr) : Kern Unit := do
  modifyThreads (·.unbindNotification tcb)
  suspend tcb
  modifyThreads fun th => (th.clearLinks tcb).updTcb tcb Tcb.wiped

/-- Drop the notification bound to an interrupt. -/
def clearNotification (irq : Nat) : Kern Unit := do
  let s ← get
  if s.env.arch.validIrq irq ∧ s.cap (s.env.notificationSlot irq) ≠ .null then
    cteDeleteOne (s.env.notificationSlot irq)

/-- Signal whichever notification is bound to an interrupt. -/
def signalIrq (irq : Nat) : Kern Unit := do
  let s ← get
  if s.env.arch.validIrq irq then
    match s.cap (s.env.notificationSlot irq) with
    | .notification ptr badge true _ =>
      if ptr ≠ 0 then set { s with threads := s.threads.signal s.env ptr badge }
    | _ => pure ()

/-- A timer tick: charge the current thread, and signal the timer's notification. -/
def handleTimerInterrupt (signals : Bool) : Kern Unit := do
  modify fun s => { s with threads := s.threads.timerTick s.env }
  if signals then signalIrq (← get).env.arch.maxIrq

/-- Work a long operation may do before it looks at the timer. -/
def cnodeWorkUnitsPerPreemption : Nat := 100

/-- Count a unit of work; now and then look whether a timer tick is due, and give way if so. -/
def cnodePreemptionPoint : Kern Unit := do
  let s ← get
  if s.workUnits + 1 < cnodeWorkUnitsPerPreemption then
    set { s with workUnits := s.workUnits + 1 }
  else
    set { s with workUnits := 0, timerDue := s.timerDue.tail }
    match s.timerDue.head? with
    | some (some signals) =>
      handleTimerInterrupt signals
      raise .preempted
    | _ => pure ()

/-- What finalising a capability leaves behind: a zombie to tear down, or something to clean up. -/
structure FinaliseCapResult where
  remainder : Cap := .null
  cleanupInfo : Cap := .null

/-- Finalise any capability. -/
def finalizeCap (cap : Cap) (isFinal : Bool) : Kern FinaliseCapResult := do
  if ← finalizeAtOnce cap isFinal then return {}
  let s ← get
  match cap with
  | .cnode ptr radix .. =>
    if isFinal then
      if ptr = 0 ∨ !isBootOrPspaceObjectKva s.env.arch ptr then
        crash "final CNode cap must point at a CNode"
      return { remainder := .newCNodeZombie (2 ^ radix) radix ptr }
    return {}
  | .thread ptr =>
    if isFinal then
      if ptr = 0 ∨ !isBootOrPspaceObjectKva s.env.arch ptr then
        crash "final Thread cap must point at a TCB"
      finalizeTcb ptr
      return { remainder := .newTcbZombie tcbCNodeEntries ptr }
    return {}
  | .zombie .. => return { remainder := cap }
  | .irqHandler irq =>
    if isFinal then
      clearNotification irq
      return { cleanupInfo := cap }
    return {}
  | .ioPort first last =>
    if isFinal && s.env.arch == .x8664 then
      set { s with ioPorts := fun port => if first ≤ port ∧ port ≤ last then false else s.ioPorts port }
    return {}
  | _ => return {}

/-- A zombie is done when no slot is left, or only the one it sits in itself. -/
def capRemovable (cap : Cap) (slot : Slot) : Kern Bool :=
  match cap with
  | .null => pure true
  | .zombie ptr _ number => pure (number == 0 || (number == 1 && fromKva ptr == some slot))
  | _ => crash "finaliseCap should only return Zombie or NullCap"

/-- A zombie that sits in the first of its own slots. -/
def capCyclicZombie (cap : Cap) (slot : Slot) : Bool :=
  match cap with
  | .zombie ptr .. => fromKva ptr == some slot
  | _ => false

/--
Make one step of tearing down a zombie.

An exposed deletion empties the last slot of the range; any other swaps the zombie into the first
slot, where it waits for whoever owns the range.
-/
def reduceZombie (del : Slot → Bool → Kern Unit) (slot : Slot) (immediate : Bool) : Kern Unit := do
  let s ← get
  match s.cap slot with
  | .zombie ptr type number =>
    if ptr = 0 then crash "zombie cap must point at a CTE range"
    let removable ← capRemovable (.zombie ptr type number) slot
    if number = 0 then crash "reduceZombie expected a non-empty zombie"
    if removable then crash "reduceZombie expected an unremovable zombie"
    if immediate then
      let endSlot := slotAt ptr (number - 1)
      del endSlot false
      let s ← get
      match s.cap slot with
      | .null => pure ()
      | .zombie ptr' type' number' =>
        if ptr' = ptr ∧ number' = number ∧ type' = type then
          if !(s.cap endSlot).isNull then crash "reduced zombie end slot should be empty"
          set (s.setCap slot ((Cap.zombie ptr' type' number').setZombieNumber (number - 1)))
        else if ¬ (ptr' = slot ∧ ptr ≠ slot) then
          crash "expected recursive delete to leave a self-referential zombie"
      | _ => crash "Expected recursion to result in Zombie."
    else
      if ptr = slot then crash "cyclic zombie passed to unexposed reduce"
      match s.cap ptr with
      | .zombie ptr' .. => if ptr' = ptr then crash "moving self-referential zombie aside"
      | _ => pure ()
      cnodeSwapSlots (s.cap ptr) ptr (s.cap slot) slot
  | _ => crash "reduceZombie expected a zombie cap"

/-- Finalise a slot until its capability can be removed, or only a cyclic zombie is left. -/
def finaliseSlot (del : Slot → Bool → Kern Unit) (slot : Slot) (immediate : Bool) :
    Nat → Kern (Bool × Cap)
  | 0 => throw .outOfFuel
  | fuel + 1 => do
    let s ← get
    let cap := s.cap slot
    if cap.isNull then return (true, .null)
    let result ← finalizeCap cap (s.caps.isFinalCapability slot)
    if !result.cleanupInfo.isNull && !result.remainder.isNull then
      crash "finaliseCap cleanup info requires a null remainder"
    if ← capRemovable result.remainder slot then return (true, result.cleanupInfo)
    modify (·.setCap slot result.remainder)
    if !immediate && capCyclicZombie result.remainder slot then
      return (false, result.cleanupInfo)
    reduceZombie del slot immediate
    cnodePreemptionPoint
    finaliseSlot del slot immediate fuel

/--
Delete the capability in a slot.

The first argument bounds how deeply deletion may call itself.
-/
def cteDelete : Nat → Slot → Bool → Kern Unit
  | 0, _, _ => throw .tooDeep
  | depth + 1, slot, exposed => do
    let fuel := (← get).env.fuel
    let (success, cleanupInfo) ← finaliseSlot (cteDelete depth) slot exposed fuel
    if exposed || success then emptyFinalizedSlot slot cleanupInfo

/-- Empty a slot, freeing what is behind its capability. -/
def deleteSlot (slot : Slot) : Kern Unit := do cteDelete (← get).env.fuel slot true

/-- Start counting work afresh. -/
def resetCnodeWorkUnits : Kern Unit := modify fun s => { s with workUnits := 0 }

/-- Delete the direct successor for as long as it is a child. -/
def revokeDescendants (slot : Slot) : Nat → Kern Unit
  | 0 => throw .outOfFuel
  | fuel + 1 => do
    let s ← get
    match (s.mdb slot).next with
    | some next =>
      if s.caps.mdbHasChildren slot then
        deleteSlot next
        cnodePreemptionPoint
        revokeDescendants slot fuel
    | none => pure ()

/-- Delete every descendant of the capability in a slot. -/
def cteRevoke (slot : Slot) : Kern Unit := do
  let s ← get
  if s.caps.mdbHasChildren slot then
    resetCnodeWorkUnits
    revokeDescendants slot s.env.fuel

end Rel4
