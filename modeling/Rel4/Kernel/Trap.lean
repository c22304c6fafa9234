import Rel4.Kernel.Syscall

/-! Kernel entry: system call dispatch, user faults, interrupts, and the way back to user mode. -/

namespace Rel4

/-- The label an error is reported with. -/
def SyscallError.toLabel : SyscallError → Word
  | invalidArgument => 1
  | invalidCapability => 2
  | illegalOperation => 3
  | rangeError => 4
  | alignmentError => 5
  | failedLookup => 6
  | truncatedMessage => 7
  | deleteFirst => 8
  | revokeFirst => 9
  | notEnoughMemory => 10
  | unsupported | preempted => 3

/-- Words a successful invocation answers with. -/
def successReplyLength (arch : Arch) (cap : Cap) (label : Word) : Nat :=
  match cap, InvocationLabel.ofRaw label, ArchInvocation.ofRaw arch label with
  | .thread _, some .tcbSetFlags, _ => 1
  | .frame .., _, some .pageGetAddress => 1
  | .ioPort .., _, some (.ioPortIn _) => 1
  | _, _, _ => 0

/-- Answer an invocation. -/
def writeReply (uc : Addr) (label : Word) (length : Nat) : Kern Unit :=
  modifyContext uc fun arch context =>
    let info : MessageInfo := { label, capsUnwrapped := 0, extraCaps := 0, length }
    (context.setCapReg arch 0).setMsgInfo arch info.toWord

/-- Hand an invocation to the handler of its capability. -/
def invoke (thread uc : Addr) (slot : Slot) (cap : Cap) (label length : Word) : Kern Unit := do
  match cap with
  | .untyped .. => handleUntyped thread uc slot cap label length
  | .cnode .. => handleCnode thread uc cap label length
  | .frame .. => handleFrame thread uc slot cap label length
  | .pageTable .. => handlePageTable thread uc slot cap label length
  | .thread _ => handleThread thread uc slot cap label length
  | .null => raise .invalidCapability
  | .domain => handleDomain thread uc label length
  | .asidControl => handleAsidControl thread uc label length
  | .asidPool .. => handleAsidPool thread uc cap label
  | .irqControl => handleIrqControl thread uc slot label length
  | .irqHandler _ => handleIrqHandler thread uc cap label
  | .ioPortControl =>
    if (← get).env.arch = .x8664 then handleIoPortControl thread uc slot label length
    else raise .illegalOperation
  | .ioPort .. =>
    if (← get).env.arch = .x8664 then handleIoPort uc cap label length
    else raise .illegalOperation
  | _ => raise .illegalOperation

/-- Without a buffer a message ends with the machine registers. -/
def messageLength (s : KState) (tcb : Addr) (info : MessageInfo) : Nat :=
  if nMsgRegisters < info.length ∧ (s.ipcBuffer tcb).isNone then nMsgRegisters else info.length

/-- Finish an invocation: answer it, or make it run again if it gave way to the timer. -/
def finishInvocation (uc : Addr) (cap : Cap) (label : Word) (result : Except SyscallError Unit) :
    Kern Unit := do
  let s ← get
  match result with
  | .ok () => writeReply uc 0 (successReplyLength s.env.arch cap label)
  | .error .preempted =>
    if s.threads.current.any s.threads.isRunnable then
      modifyContext uc fun arch context => context.applyWrittenPc arch context.restartPc
  | .error e => writeReply uc e.toLabel 0

/-- The call system call: a message to an endpoint, or an invocation of anything else. -/
def doCall (uc : Addr) : Kern Unit := do
  let s ← get
  let info ← getMsgInfo uc
  match s.threads.current with
  | none => writeReply uc SyscallError.invalidCapability.toLabel 0
  | some cur =>
    match s.lookupCap cur (← getCapReg uc) with
    | none => writeReply uc SyscallError.invalidCapability.toLabel 0
    | some (.endpoint _ _ canSend .., _) =>
      if canSend then ipcCall uc else writeReply uc SyscallError.invalidCapability.toLabel 0
    | some (cap, slot) =>
      let result ← attempt (invoke cur uc slot cap info.label (messageLength s cur info))
      finishInvocation uc cap info.label result

/-- The send system calls. -/
def doSend (uc : Addr) (blocking : Bool) : Kern Unit := do
  let s ← get
  let info ← getMsgInfo uc
  match s.threads.current with
  | none => pure ()
  | some cur =>
    match s.lookupCap cur (← getCapReg uc) with
    | some (.notification ntfn badge canSend _, _) =>
      if canSend ∧ ntfn ≠ 0 then set { s with threads := s.threads.signal s.env ntfn badge }
    | some (.endpoint .., _) => ipcSend uc blocking
    | some (.reply tcb canGrant isMaster, slot) =>
      handleReplySlot uc (.reply tcb canGrant isMaster) slot
    | some (.thread tcb, slot) =>
      let _ ← attempt
        (handleThreadSend cur uc slot (.thread tcb) info.label (messageLength s cur info))
    | _ => pure ()

/-- A receive that cannot go ahead is a fault, or answers with nothing. -/
def writeRecvCapFaultOrEmpty (uc : Addr) (cptr : Word) : Kern Unit := do
  if !(← sendCapFaultIpc uc cptr true) then writeEmptyReply uc

/-- The receive system calls. -/
def doRecv (uc : Addr) (blocking : Bool) : Kern Unit := do
  match (← get).threads.current with
  | none => writeEmptyReply uc
  | some cur =>
    deleteCallerCap cur
    let cptr ← getCapReg uc
    let s ← get
    match s.lookupCap cur cptr with
    | some (.endpoint .., _) => ipcRecv uc blocking
    | some (.notification ntfn _ _ canReceive, _) =>
      let bound := (s.threads.ntfns ntfn).boundTcb
      if ntfn = 0 ∨ !canReceive ∨ (bound.isSome ∧ bound ≠ some cur) then
        writeRecvCapFaultOrEmpty uc cptr
      else
        let (badge, threads) := s.threads.wait ntfn cur blocking
        set { s with threads }
        match badge with
        | some badge => writeBadgeReply uc cur badge
        | none => pure ()
    | _ => writeRecvCapFaultOrEmpty uc cptr

/-- The system calls. -/
inductive SyscallNumber
  | call
  | replyRecv
  | send
  | nonBlockingSend
  | recv
  | reply
  | yield
  | nonBlockingRecv
  | debugPutChar
  | debugDumpScheduler
  | debugHalt
  | debugCapIdentify
  | debugSnapshot
  | debugNameThread
  | debugSendIpi
  | setTlsBase
deriving DecidableEq

/-- The system calls in the order of their numbers, which count down from minus one. -/
def SyscallNumber.inOrder : List SyscallNumber :=
  [call, replyRecv, send, nonBlockingSend, recv, reply, yield, nonBlockingRecv, debugPutChar,
    debugDumpScheduler, debugHalt, debugCapIdentify, debugSnapshot, debugNameThread, debugSendIpi]

/-- The system call of a number, which is a signed word. -/
def SyscallNumber.ofRaw (w : Word) : Option SyscallNumber :=
  if 2 ^ 64 ≤ w then none
  else if w = 2 ^ 64 - 29 then some setTlsBase
  else inOrder[2 ^ 64 - 1 - w]?

/-- Where the number of a system call is: x86-64 tries two registers. -/
def KState.rawSysno (s : KState) (uc : Addr) : Word :=
  let regs := (s.threads.tcbs uc).context.regs
  match s.env.arch with
  | .riscv64 => regs 17
  | .x8664 =>
    if (SyscallNumber.ofRaw (regs 2)).isSome then regs 2
    else if (SyscallNumber.ofRaw (regs 8)).isSome then regs 8
    else regs 2

/-- The number of a capability's tag. -/
def Cap.tagRaw : Cap → Nat
  | .null => 0
  | .frame .. => 1
  | .untyped .. => 2
  | .pageTable .. => 3
  | .endpoint .. => 4
  | .notification .. => 6
  | .reply .. => 8
  | .cnode .. => 10
  | .asidControl => 11
  | .thread _ => 12
  | .asidPool .. => 13
  | .irqControl => 14
  | .irqHandler _ => 16
  | .zombie .. => 18
  | .domain => 20
  | .ioPortControl => 22
  | .ioPort .. => 23

/-- Whether a word has a zero byte, which ends a name. -/
def hasZeroByte (w : Word) : Bool := (List.range 8).any fun i => w / 2 ^ (8 * i) % 2 ^ 8 == 0

/-- Naming a thread halts the machine unless it is a thread and the name ends. -/
def handleDebugNameThread (uc : Addr) : Kern Unit := do
  let s ← get
  let cptr ← getCapReg uc
  let target := do
    let cur ← s.threads.current
    let (cap, _) ← s.lookupCap cur cptr
    threadOf cap
  match target, s.threads.current.bind s.ipcBuffer with
  | some _, some buffer =>
    if !(List.range msgMaxLength).any fun i => hasZeroByte (s.bufferWord buffer (1 + i)) then
      throw .halted
  | _, _ => throw .halted

/-- The words of the fault for a system call nobody knows. -/
def UserContext.unknownSyscallMrs (arch : Arch) (uc : UserContext) (sysno : Word) : List Word :=
  match arch with
  | .riscv64 => uc.restartPc :: [2, 1, 10, 11, 12, 13, 14, 15, 16].map uc.regs ++ [sysno]
  | .x8664 =>
    [2, 3, 19, 8, 1, 0, 4, 10, 11, 9, 18, 5, 6, 7, 12].map uc.regs ++
      [uc.pc, uc.regs 16, uc.regs 13, sysno]

/-- Dispatch a system call. -/
def handleSyscall (uc : Addr) : Kern Unit := do
  let s ← get
  let sysno := s.rawSysno uc
  match SyscallNumber.ofRaw sysno with
  | some .debugPutChar | some .debugDumpScheduler | some .debugSnapshot => pure ()
  | some .debugNameThread => handleDebugNameThread uc
  | some .debugCapIdentify =>
    let cptr ← getCapReg uc
    let tag := match s.threads.current.bind fun cur => s.lookupCap cur cptr with
      | some (cap, _) => cap.tagRaw
      | none => 0
    modifyContext uc fun arch context => context.setCapReg arch tag
  | some .debugHalt | some .debugSendIpi => throw .halted
  | some .setTlsBase =>
    modifyContext uc fun arch context => context.setReg arch.tlsReg (context.capReg arch)
  | some .yield =>
    match s.threads.current with
    | some cur => set { s with threads := s.threads.yieldCurrent s.env cur }
    | none => pure ()
  | some .call => doCall uc
  | some .send => doSend uc true
  | some .nonBlockingSend => doSend uc false
  | some .reply => ipcReply uc
  | some .recv => doRecv uc true
  | some .nonBlockingRecv => doRecv uc false
  | some .replyRecv => ipcReplyRecv uc
  | none =>
    let context ← getContext uc
    let mrs := context.unknownSyscallMrs s.env.arch sysno
    if !(← sendSyntheticFaultIpc .unknownSyscall mrs) then throw .halted

/-- What a user fault is reported as: its kind and its message. -/
def UserContext.faultMessage (arch : Arch) (uc : UserContext) (code addr : Word) :
    FaultLabel × List Word :=
  match arch with
  | .riscv64 =>
    -- Access faults and page faults are reported alike, by what was attempted.
    match code with
    | 1 | 12 => (.vmFault, [uc.pc, addr, 1, 1])
    | 5 | 13 => (.vmFault, [uc.pc, addr, 0, 5])
    | 7 | 15 => (.vmFault, [uc.pc, addr, 0, 7])
    | _ => (.userException, [uc.pc, uc.regs 2, code, 0])
  | .x8664 =>
    if code = 14 then (.vmFault, [uc.pc, addr, 0, uc.regs 2])
    else (.userException, [uc.pc, uc.regs 16, code, uc.regs 15])

/-- Report a user fault; without a handler the core stops, and a double fault has none. -/
def handleFault (uc : Addr) (code addr : Word) : Kern Unit := do
  let s ← get
  let context ← getContext uc
  let (label, mrs) := context.faultMessage s.env.arch code addr
  if s.env.arch = .x8664 ∧ code = 8 then throw .halted
  if !(← sendSyntheticFaultIpc label mrs) then throw .halted

/-- Why the kernel was entered. -/
inductive Trap
  | syscall
  | fault (code addr : Word)
  | timer (signals : Bool)
  | irq (irq : Nat)
  /-- Another core's interrupt, or the floating-point unit being lent: nothing to do here. -/
  | spurious

/-- The registers are saved with the address to restart from. -/
def UserContext.enter (arch : Arch) (trap : Trap) (uc : UserContext) : UserContext :=
  match arch, trap with
  | .riscv64, .syscall => { uc with restartPc := uc.pc, pc := (uc.pc + 4) % 2 ^ 64 }
  | .x8664, .syscall => { uc with restartPc := (uc.pc + (2 ^ 64 - 2)) % 2 ^ 64 }
  | _, _ => { uc with restartPc := uc.pc }

/--
The registers as the entry code saves them when the system call at an address traps.

On x86-64 the processor hands over the address of the next instruction, of which the entry code
keeps several copies, and the error word marks that the thread came by a system call.
-/
def UserContext.saveSyscall (arch : Arch) (addr : Word) (uc : UserContext) : UserContext :=
  match arch with
  | .riscv64 => { uc with pc := addr }
  | .x8664 =>
    let next := (addr + 2) % 2 ^ 64
    [(14, next), (15, 2 ^ 64 - 1), (17, next), (18, uc.regs 13), (19, next), (20, 0x23), (21, 0x1b)].foldl
      (fun uc (reg, value) => uc.setReg reg value) { uc with pc := next }

/-- The address the exit code loads; a thread that came by a system call leaves by its own exit. -/
def UserContext.loadedPc (arch : Arch) (uc : UserContext) : Word :=
  match arch with
  | .riscv64 => uc.pc
  | .x8664 => if uc.regs 15 = 2 ^ 64 - 1 then uc.regs 14 else uc.pc

/-- Handle a trap. -/
def handleTrap (uc : Addr) (trap : Trap) : Kern Unit := do
  modifyContext uc fun arch context => context.enter arch trap
  match trap with
  | .syscall => handleSyscall uc
  | .fault code addr => handleFault uc code addr
  | .timer signals => handleTimerInterrupt signals
  | .irq irq => signalIrq irq
  | .spurious => pure ()

end Rel4
