import Rel4.Kernel.Sched

/-! Several cores under one kernel lock, and the stalling of a thread that runs on another core. -/

namespace Rel4

/-- A piece of kernel work between taking the lock and the kernel exit. -/
inductive Work
  /-- Make sure that the thread is not current on another core. -/
  | stall (tcb : Addr)
  /-- What a suspension does once its thread is stalled. -/
  | halt (tcb : Addr)
  | resume (tcb : Addr)
  /-- Initialise the thread object that a retype has made. -/
  | init (tcb : Addr)
  | continueCurrentOnce (tcb : Addr)
  | timerTick
  | yieldCurrent
deriving DecidableEq

/-- A suspension stalls its thread first. -/
def Work.suspend (tcb : Addr) : List Work := [.stall tcb, .halt tcb]

/-- An invocation of a thread capability, as far as the scheduler sees it. -/
inductive TcbOp
  /-- An invocation that one of its checks turns down. -/
  | rejected
  | readRegisters (suspendSource : Bool)
  | writeRegisters (resumeTarget : Bool)
  | copyRegisters (source : Addr) (suspendSource resumeTarget : Bool)
  | suspend
  | resume
  /-- Installing roots or a buffer; the capabilities replaced are the last ones of these threads. -/
  | configure (finalised : List Addr)
  | setSpace (finalised : List Addr)
  | setIpcBuffer (finalised : List Addr)
  | setPriority
  | setMcPriority
  | setSchedParams
  | setTlsBase
  | setFlags
  | bindNotification
  | unbindNotification
deriving DecidableEq

/-- The work an invocation adds to the stall of its target. -/
def TcbOp.work (target : Addr) (caller : Option Addr) : TcbOp → List Work
  | readRegisters suspendSource =>
    if caller ≠ some target ∧ suspendSource then Work.suspend target else []
  | writeRegisters resumeTarget =>
    if caller ≠ some target ∧ resumeTarget then [.resume target] else []
  | copyRegisters source suspendSource resumeTarget =>
    (if suspendSource then Work.suspend source else []) ++
      if resumeTarget then [.resume target] else []
  | suspend => Work.suspend target
  | resume =>
    .resume target :: match caller with
      | some caller => if caller ≠ target then [.continueCurrentOnce caller] else []
      | none => []
  | configure finalised | setSpace finalised | setIpcBuffer finalised =>
    finalised.flatMap Work.suspend
  | rejected | setPriority | setMcPriority | setSchedParams | setTlsBase | setFlags
  | bindNotification | unbindNotification => []

/-- Why a core enters the kernel. -/
inductive Entry
  | softwareInterrupt
  | timer
  | yield
  | invoke (target : Addr) (op : TcbOp)
  /-- Make thread objects from untyped memory. -/
  | retype (tcbs : List Addr)
deriving DecidableEq

/-- The work of a trap; an invocation of a thread stalls its target before anything else. -/
def Entry.work (caller : Option Addr) : Entry → List Work
  | softwareInterrupt => []
  | timer => [.timerTick]
  | yield => [.yieldCurrent]
  | invoke target op => .stall target :: op.work target caller
  | retype tcbs => tcbs.map .init

/-- A thread capability names a machine address. -/
def Entry.wellNamed : Entry → Bool
  | invoke target _ => target < walkLimit
  | softwareInterrupt | timer | yield | retype _ => true

/-- Where a core is. -/
inductive Phase
  | user
  /-- Spinning for the lock; the flag says that a remote stall hit the current thread meanwhile. -/
  | spinning (entry : Entry) (stalledCurrent : Bool)
  /-- Holding the lock with this work left. -/
  | locked (stalledCurrent : Bool) (work : List Work)
  /-- Holding the lock and waiting for another core to service the posted operation. -/
  | waiting (work : List Work)
deriving DecidableEq

/-- The work left to a core that holds the lock. -/
def Phase.work : Phase → List Work
  | locked _ work | waiting work => work
  | user | spinning .. => []

/-- What the kernel keeps per core. -/
structure Cpu where
  current : Option Addr := none
  online : Bool := false
  runqueue : QueueEnds := {}
  continueCurrentOnce : Option Addr := none
  rescheduleRequired : Bool := false
  phase : Phase := .user
deriving DecidableEq

/-- The remote operation that stalls a thread: whom to ask, which thread, and whether it is done. -/
structure RemoteStall where
  core : Nat
  target : Addr
  done : Bool
deriving DecidableEq

/-- The scheduler of a kernel built for several cores. -/
structure Smp where
  maxNumNodes : Nat
  idleTcbs : Nat → Addr
  affinity : Addr → Nat
  states : Addr → ThreadState
  timeSlices : Addr → Nat
  links : Addr → Links
  cpus : Nat → Cpu
  kernelLocked : Bool
  remoteStall : Option RemoteStall

namespace Smp

variable (s : Smp)

/-- Change what the kernel keeps for one core. -/
def updCpu (core : Nat) (change : Cpu → Cpu) : Smp :=
  { s with cpus := Function.update s.cpus core (change (s.cpus core)) }

/-- Put a thread in a state. -/
def setState (tcb : Addr) (state : ThreadState) : Smp :=
  { s with states := Function.update s.states tcb state }

/-- The core whose runqueue a thread belongs on. -/
def homeCore (tcb : Addr) : Nat :=
  if s.affinity tcb < s.maxNumNodes then s.affinity tcb else 0

/-- One idle thread per core. -/
def isIdleThread (tcb : Addr) : Bool := (List.range s.maxNumNodes).any (s.idleTcbs · == tcb)

/-- Whether a thread may run. -/
def isRunnable (tcb : Addr) : Bool := (s.states tcb).isRunnable

/-- Whether a thread may run on this core. -/
def isRunnableOn (core : Nat) (tcb : Addr) : Bool := s.isRunnable tcb && s.homeCore tcb == core

/-- Whether a thread is on a core's runqueue. -/
def contains (core : Nat) (tcb : Addr) : Bool :=
  Lib.reaches s.links tcb walkLimit (s.cpus core).runqueue.head

/-- Append a thread to a core's runqueue. -/
def pushBack (core : Nat) (tcb : Addr) : Smp :=
  let (links, runqueue) := Lib.pushBack s.links (s.cpus core).runqueue tcb
  { s with links }.updCpu core fun cpu => { cpu with runqueue }

/-- Unlink a thread from a core's runqueue. -/
def remove (core : Nat) (tcb : Addr) : Smp :=
  let (links, runqueue) := Lib.remove s.links (s.cpus core).runqueue tcb
  { s with links }.updCpu core fun cpu => { cpu with runqueue }

/-- Add a thread to its home runqueue; nothing happens if it may not run or is queued already. -/
def enqueue (tcb : Addr) : Smp :=
  if s.isIdleThread tcb || !s.isRunnable tcb then s
  else if s.contains (s.homeCore tcb) tcb || !(s.links tcb).isUnlinked then s
  else s.pushBack (s.homeCore tcb) tcb

/-- Take a thread off whichever runqueue holds it. -/
def dequeue (tcb : Addr) : Smp :=
  match (List.range s.maxNumNodes).find? (s.contains · tcb) with
  | some core => s.remove core tcb
  | none => s

/-- A thread that belongs on another core goes on that core's runqueue. -/
def enqueueIfMigratedFrom (core : Nat) (tcb : Addr) : Smp :=
  if s.isIdleThread tcb then s
  else if s.isRunnable tcb && s.homeCore tcb != core then s.enqueue tcb
  else s

/-- Make a thread current on a core. -/
def setCurrent (core : Nat) (tcb : Addr) : Smp :=
  s.updCpu core fun cpu => { cpu with current := some tcb }

/-- Make a core's idle thread current. -/
def switchToIdleThread (core : Nat) : Smp := s.setCurrent core (s.idleTcbs core)

/-- A restarted thread runs once it is restored. -/
def prepareForUserRestore (tcb : Addr) : Smp :=
  if s.states tcb = .restart then s.setState tcb .running else s

/-- The core a thread is current on. -/
def currentCoreOfTcb (tcb : Addr) : Option Nat :=
  (List.range s.maxNumNodes).find? fun core =>
    (s.cpus core).online && (s.cpus core).current == some tcb

/-- The head of a core's runqueue that may run there; stale entries before it are discarded. -/
def peekSchedule (core : Nat) : Nat → Smp → Option Addr × Smp
  | 0, s => (none, s)
  | steps + 1, s =>
    match (s.cpus core).runqueue.head with
    | none => (none, s)
    | some candidate =>
      if s.isRunnableOn core candidate then (some candidate, s)
      else peekSchedule core steps (s.dequeue candidate)

/-- Choose a core's next thread and take it off the runqueue. -/
def schedule (core : Nat) : Option Addr × Smp :=
  match peekSchedule core walkLimit s with
  | (some candidate, s) => (some candidate, s.dequeue candidate)
  | (none, s) => (none, s)

/-- Charge a tick to the current thread of a core. -/
def timerTick (core : Nat) : Smp :=
  match (s.cpus core).current with
  | none => s
  | some cur =>
    if s.isIdleThread cur || s.states cur ≠ .running then s
    else if 1 < s.timeSlices cur then
      { s with timeSlices := Function.update s.timeSlices cur (s.timeSlices cur - 1) }
    else
      { s with timeSlices := Function.update s.timeSlices cur timeSliceTicks }.updCpu core
        fun cpu => { cpu with rescheduleRequired := true }

/-- Queue the current thread of a core and ask for rotation. -/
def yieldCurrent (core : Nat) : Smp :=
  match (s.cpus core).current with
  | none => s
  | some cur =>
    if s.isIdleThread cur then s
    else (s.enqueue cur).updCpu core fun cpu => { cpu with rescheduleRequired := true }

/-- Let a thread keep the core at the next kernel exit. -/
def continueCurrentOnce (core : Nat) (tcb : Addr) : Smp :=
  s.updCpu core fun cpu => { cpu with continueCurrentOnce := some tcb }

/-- Stop a thread that is stalled already. -/
def halt (tcb : Addr) : Smp :=
  if s.isIdleThread tcb then s else (s.dequeue tcb).setState tcb .inactive

/-- Restart a stopped thread. -/
def resume (tcb : Addr) : Smp :=
  if s.isIdleThread tcb || !(s.states tcb).isStopped then s
  else (s.setState tcb .restart).enqueue tcb

/-- A new thread is stopped, on no queue, and belongs to the core that makes it. -/
def initTcb (core : Nat) (tcb : Addr) : Smp where
  __ := s.setState tcb .inactive
  affinity := Function.update s.affinity tcb (core % 2 ^ 8)
  timeSlices := Function.update s.timeSlices tcb timeSliceTicks
  links := Function.update s.links tcb {}

/-- Restore the next thread of a core, or its idle thread. -/
def restoreScheduledOrIdle (core : Nat) : Smp :=
  match s.schedule core with
  | (some next, s) => (s.setCurrent core next).prepareForUserRestore next
  | (none, s) => s.switchToIdleThread core

/-- Pick the thread a core returns to. -/
def kernelExit (core : Nat) : Smp :=
  match (s.cpus core).current with
  | none => s.restoreScheduledOrIdle core
  | some cur =>
    let s := s.enqueueIfMigratedFrom core cur
    let continued := (s.cpus core).continueCurrentOnce = some cur
    let s :=
      if continued then s.updCpu core fun cpu => { cpu with continueCurrentOnce := none } else s
    if continued ∧ s.isRunnableOn core cur then s.prepareForUserRestore cur
    else
      let rotate := (s.cpus core).rescheduleRequired
      let s := s.updCpu core fun cpu => { cpu with rescheduleRequired := false }
      if s.isRunnableOn core cur ∧ ¬ rotate then s.prepareForUserRestore cur
      else
        let s := if s.isRunnableOn core cur then s.enqueue cur else s
        match s.schedule core with
        | (some next, s) => (s.setCurrent core next).prepareForUserRestore next
        | (none, s) =>
          if s.isRunnableOn core cur then s.prepareForUserRestore cur
          else s.switchToIdleThread core

/-- Do one piece of work on a core that holds the lock. -/
def doWork (core : Nat) (rest : List Work) : Work → Smp
  | .stall tcb =>
    let ready := s.updCpu core fun cpu => { cpu with phase := .locked false rest }
    if s.isIdleThread tcb then ready
    else match s.currentCoreOfTcb tcb with
      | none => ready
      | some other =>
        if other = core then ready
        else
          { s.updCpu core fun cpu => { cpu with phase := .waiting rest } with
            remoteStall := some { core := other, target := tcb, done := false } }
  | .halt tcb => (s.halt tcb).updCpu core fun cpu => { cpu with phase := .locked false rest }
  | .resume tcb => (s.resume tcb).updCpu core fun cpu => { cpu with phase := .locked false rest }
  | .init tcb =>
    (s.initTcb core tcb).updCpu core fun cpu => { cpu with phase := .locked false rest }
  | .continueCurrentOnce tcb =>
    (s.continueCurrentOnce core tcb).updCpu core fun cpu => { cpu with phase := .locked false rest }
  | .timerTick =>
    (s.timerTick core).updCpu core fun cpu => { cpu with phase := .locked false rest }
  | .yieldCurrent =>
    (s.yieldCurrent core).updCpu core fun cpu => { cpu with phase := .locked false rest }

/-- Return to user mode and give up the lock. -/
def finishKernelExit (core : Nat) : Smp :=
  { s.updCpu core fun cpu => { cpu with phase := .user } with kernelLocked := false }

/--
Service a stall posted for this core while it spins for the lock.

If the thread is current here the idle thread takes its place, and the trap that brought the core
in is dropped.
-/
def servicePendingRemoteCoreOp (core : Nat) (entry : Entry) (stalledCurrent : Bool)
    (posted : RemoteStall) : Smp :=
  let s := { s with remoteStall := some { posted with done := true } }
  if (s.cpus core).current = some posted.target then
    (s.switchToIdleThread core).updCpu core fun cpu => { cpu with phase := .spinning entry true }
  else s.updCpu core fun cpu => { cpu with phase := .spinning entry stalledCurrent }

/-- What one core can do next. -/
inductive Move
  | trap (core : Nat) (entry : Entry)
  | service (core : Nat)
  | acquire (core : Nat)
  | advance (core : Nat)
deriving DecidableEq

/-- One move of one core, if it can make it. -/
def step : Move → Option Smp
  | .trap core entry =>
    if (s.cpus core).online ∧ (s.cpus core).phase = .user ∧ entry.wellNamed then
      some (s.updCpu core fun cpu => { cpu with phase := .spinning entry false })
    else none
  | .service core =>
    match (s.cpus core).phase, s.remoteStall with
    | .spinning entry stalledCurrent, some posted =>
      if posted.core = core ∧ posted.done = false then
        some (s.servicePendingRemoteCoreOp core entry stalledCurrent posted)
      else none
    | _, _ => none
  | .acquire core =>
    match (s.cpus core).phase with
    | .spinning entry stalledCurrent =>
      if s.kernelLocked then none
      else
        let work := if stalledCurrent then [] else entry.work (s.cpus core).current
        some { s.updCpu core fun cpu => { cpu with phase := .locked stalledCurrent work } with
          kernelLocked := true }
    | _ => none
  | .advance core =>
    match (s.cpus core).phase with
    | .locked _ (item :: rest) => some (s.doWork core rest item)
    | .locked false [] => some ((s.kernelExit core).finishKernelExit core)
    | .locked true [] => some ((s.restoreScheduledOrIdle core).finishKernelExit core)
    | .waiting work =>
      match s.remoteStall with
      | some posted =>
        if posted.done then
          some { s.updCpu core fun cpu => { cpu with phase := .locked false work } with
            remoteStall := none }
        else none
      | none => none
    | _ => none

end Smp

end Rel4
