import Rel4.Kernel.Cap
import Rel4.Lib.Queue

/-! The kernel state: capability slots, threads, endpoints, notifications and the global tables. -/

namespace Rel4

/--
A slot's entry in the derivation list.

The last two fields are ghost data: the births of the capability and of its ancestors, newest
first, and the block of memory its object was carved from.
-/
@[ext]
structure MdbNode where
  prev : Option Slot := none
  next : Option Slot := none
  revocable : Bool := false
  firstBadged : Bool := false
  lineage : List Nat := []
  origin : Option (Addr × Nat) := none
deriving DecidableEq

/-- A capability table entry is a capability and its place in the derivation list. -/
structure Cte where
  cap : Cap := .null
  mdb : MdbNode := {}
deriving DecidableEq

/-- An empty entry holds no capability and no links; its flags are not looked at. -/
def Cte.isEmpty (cte : Cte) : Bool :=
  cte.cap.isNull && cte.mdb.prev.isNone && cte.mdb.next.isNone

/--
All capability slots of the machine, with the ghost count of capabilities born so far.

Memory that is no capability table reads as empty slots.
-/
structure CapStore where
  ctes : Slot → Cte := fun _ => {}
  births : Nat := 0

/-- The general registers and program counters saved at kernel entry. -/
structure UserContext where
  regs : Nat → Word := fun _ => 0
  pc : Word := 0
  restartPc : Word := 0
  status : Word := 0

/-- Scheduling states of a thread. -/
inductive ThreadState
  | inactive
  | restart
  | running
  | blockedOnReceive
  | blockedOnSend
  | blockedOnReply
  | blockedOnNotification
  | idle
deriving DecidableEq

/-- Only running and restarted threads may be scheduled. -/
def ThreadState.isRunnable : ThreadState → Bool
  | running | restart => true
  | _ => false

/-- The states a resume restarts from. -/
def ThreadState.isStopped : ThreadState → Bool
  | inactive | blockedOnReceive | blockedOnSend | blockedOnNotification | blockedOnReply => true
  | _ => false

/-- The object a blocked thread is queued on. -/
inductive WaitObject
  | endpoint (ep : Addr)
  | notification (ntfn : Addr)
deriving DecidableEq

/-- Ticks a thread runs before it is rotated. -/
def timeSliceTicks : Nat := 5

/-- Extra capabilities one message can name. -/
def tcbSenderExtraCaps : Nat := 3

/-- Message registers a fault message carries. -/
def faultIpcMrs : Nat := 20

/--
A thread control block.

Its embedded slots live in the capability store, and its queue links beside the other threads'.
The last field is ghost data: whether the operation the thread last stopped in was a fault.
-/
structure Tcb where
  context : UserContext := {}
  state : ThreadState := .inactive
  timeSlice : Nat := timeSliceTicks
  ipcBufferUva : Word := 0
  ipcBuffer : Option Addr := none
  faultEndpointCptr : Word := 0
  flags : Word := 0
  boundNotification : Option Addr := none
  waitingOn : Option WaitObject := none
  receiverCanGrant : Bool := false
  senderBadge : Word := 0
  senderExtraCapSlots : List (Option Slot) := List.replicate tcbSenderExtraCaps none
  senderCanGrant : Bool := false
  senderCanGrantReply : Bool := false
  senderIsCall : Bool := false
  senderIsFault : Bool := false
  faultLabel : Word := 0
  faultLen : Word := 0
  faultMrs : List Word := List.replicate faultIpcMrs 0
  blockedByFault : Bool := false

/-- Queue links and queue ends hold thread addresses. -/
abbrev Links := Lib.Links Addr

/-- The two ends of a runqueue or wait list. -/
abbrev QueueEnds := Lib.QueueEnds Addr

/-- Whether an endpoint holds nobody, senders, or receivers. -/
inductive EpState
  | idle
  | sending
  | receiving
deriving DecidableEq

/-- An endpoint is its state and the ends of its wait list. -/
structure Endpoint where
  state : EpState := .idle
  ends : QueueEnds := {}
deriving DecidableEq

/-- Whether a notification is empty, has waiters, or holds a latched signal. -/
inductive NtfnState
  | idle
  | waiting
  | active
deriving DecidableEq

/-- A notification object. -/
structure Notification where
  state : NtfnState := .idle
  ends : QueueEnds := {}
  badge : Word := 0
  boundTcb : Option Addr := none
deriving DecidableEq

/-- Everything the scheduler and message passing work on, for a kernel built for one core. -/
structure Threads where
  tcbs : Addr → Tcb := fun _ => {}
  /-- The queue links embedded in each thread. -/
  links : Addr → Links := fun _ => {}
  eps : Addr → Endpoint := fun _ => {}
  ntfns : Addr → Notification := fun _ => {}
  runqueue : QueueEnds := {}
  current : Option Addr := none
  continueCurrentOnce : Option Addr := none
  rescheduleRequired : Bool := false

/--
A page-table entry, as the flag bits both instruction sets give it.

On RISC-V the large-page and no-execute bits do not exist and stay clear; on x86-64 the present
bit is `valid`, and reading needs no bit of its own.
The last field is ghost data: whether a frame invocation installed the entry.
-/
structure Pte where
  pa : Nat := 0
  valid : Bool := false
  read : Bool := false
  write : Bool := false
  exec : Bool := false
  user : Bool := false
  accessed : Bool := false
  dirty : Bool := false
  global : Bool := false
  pageSize : Bool := false
  noExecute : Bool := false
  viaPageMap : Bool := false
deriving DecidableEq

/-- The table of address-space identifiers: roots by identifier, and the pools handed out. -/
structure AsidTable where
  roots : Nat → Addr := fun _ => 0
  poolActive : Nat → Bool := fun _ => false
  poolPtr : Nat → Addr := fun _ => 0

/-- Address spaces: the identifier table, and the entries of every table by physical address. -/
structure Vm where
  asids : AsidTable := {}
  tables : Nat → Nat → Pte := fun _ _ => {}
  /-- Pages taken from the boot pool of table pages. -/
  bootTables : Nat := 0

/-- What the machine and the kernel image fix before the first instruction runs. -/
structure Env where
  arch : Arch
  /-- The static idle thread of the only core. -/
  idleTcb : Addr
  /-- The kernel-owned node with one slot per interrupt. -/
  irqNode : Addr
  /-- The static pool of table pages. -/
  bootPtPool : Addr
  /-- Pins of the interrupt controller of an x86-64 machine. -/
  ioapicPins : Nat
  /-- Bound on the iterations of a loop; a longer one is reported, not cut short. -/
  fuel : Nat

/-- An access to the ports of an x86-64 machine: the port, its width, and what was written. -/
structure PortAccess where
  port : Nat
  size : Nat
  written : Option Word

/--
An entry of the interrupt controller's redirection table.

Every entry delivers to the core the kernel runs on.
-/
structure Rte where
  vector : Nat := 0
  masked : Bool := true
  level : Bool := false
  polarityLow : Bool := false
deriving DecidableEq

/-- The redirection table by pin, and the pin each interrupt is routed to. -/
structure Ioapic where
  rtes : Nat → Rte := fun _ => {}
  routes : Nat → Option Nat := fun _ => none

/-- The state of the machine as the kernel sees it. -/
structure KState where
  env : Env
  caps : CapStore := {}
  threads : Threads := {}
  vm : Vm := {}
  irqActive : Nat → Bool := fun _ => false
  ioPorts : Nat → Bool := fun _ => false
  ioapic : Ioapic := {}
  /-- Words of the frames used as message buffers, by kernel address and index. -/
  buffers : Addr → Nat → Word := fun _ _ => 0
  /-- Work done since the last look at the timer. -/
  workUnits : Nat := 0
  /-- For each later look at the timer: whether a tick is due, and whether it signals. -/
  timerDue : List (Option Bool) := []
  /-- What later reads of a port answer. -/
  portInputs : List Word := []
  /-- The port accesses made so far, newest first. -/
  portLog : List PortAccess := []

end Rel4
