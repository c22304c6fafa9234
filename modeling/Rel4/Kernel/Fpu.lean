import Rel4.Kernel.Monad

/-!
The floating-point unit of one RISC-V core.

The registers of the last thread that used the unit stay in it until another thread needs it, and whose they are is
kept in an owner pointer.
-/

namespace Rel4

/-- The registers of the unit. -/
structure FpuState where
  regs : Fin 32 → Word := fun _ => 0
  fcsr : Word := 0

/-- What a thread has to do with the unit: its save area, its flags, and whether it enters user mode with access. -/
structure FpuTcb where
  fpu : FpuState := {}
  flags : Word := 0
  contextEnabled : Bool := false

def FpuTcb.fpuDisabled (t : FpuTcb) : Bool := t.flags.testBit 0

structure FpuCore where
  owner : Option Addr := none
  accessEnabled : Bool := false
  hardware : FpuState
  tcbs : Addr → FpuTcb
  current : Option Addr := none

namespace FpuCore

variable (c : FpuCore)

def updTcb (t : Addr) (change : FpuTcb → FpuTcb) : FpuCore :=
  { c with tcbs := Function.update c.tcbs t (change (c.tcbs t)) }

def enableAccess : FpuCore := { c with accessEnabled := true }

def disableAccess : FpuCore := { c with accessEnabled := false }

def saveFpuState (t : Addr) : FpuCore := c.updTcb t fun tcb => { tcb with fpu := c.hardware }

def loadFpuState (t : Addr) : FpuCore := { c with hardware := (c.tcbs t).fpu }

def setFpuContextEnabled (t : Addr) (enabled : Bool) : FpuCore :=
  c.updTcb t fun tcb => { tcb with contextEnabled := enabled }

/-- Save the registers of the old owner, and load those of the new one. -/
def switchLocalOwner (newOwner : Option Addr) : FpuCore :=
  let c := c.enableAccess
  let c := match c.owner with
    | some old => c.saveFpuState old
    | none => c
  let c := match newOwner with
    | none => c.disableAccess
    | some new =>
      let c := c.loadFpuState new
      c.setFpuContextEnabled new c.accessEnabled
  { c with owner := newOwner }

def lazyRestore (t : Addr) : FpuCore :=
  if (c.tcbs t).fpuDisabled then c.disableAccess.setFpuContextEnabled t false
  else if c.owner = some t then
    let c := c.enableAccess
    c.setFpuContextEnabled t c.accessEnabled
  else c.switchLocalOwner (some t)

/-- Take the registers of a thread out of the unit. -/
def release (t : Addr) : FpuCore := if c.owner = some t then c.switchLocalOwner none else c

def setFlags (t : Addr) (clear set : Word) : FpuCore :=
  let flags := (c.tcbs t).flags
  let flags := flags - (flags &&& clear) ||| set % 2
  let c := c.updTcb t fun tcb => { tcb with flags }
  if flags.testBit 0 then (c.release t).setFpuContextEnabled t false
  else if c.current = some t then c.lazyRestore t
  else c

/-- What deleting a thread does here. -/
def finalize (t : Addr) : FpuCore := (c.release t).updTcb t fun tcb => { tcb with flags := 0 }

/-- A thread is made where none was, in memory that is all zero. -/
def create (t : Addr) : FpuCore := c.updTcb t fun _ => {}

/-- The kernel returns to user mode in a thread. -/
def exit (t : Addr) : FpuCore := { c.lazyRestore t with current := some t }

end FpuCore

/-- The core, the threads there are, the one in user mode, and the values each thread itself last had. -/
structure FpuSystem where
  core : FpuCore
  live : Addr → Bool
  running : Option Addr := none
  last : Addr → FpuState := fun _ => {}

inductive FpuEvent
  /-- The thread in user mode computes, and leaves these values in the registers. -/
  | compute (values : FpuState)
  | trap
  | setFlags (t : Addr) (clear set : Word)
  | delete (t : Addr)
  | create (t : Addr)
  /-- The kernel returns to user mode in a thread of its choice. -/
  | exit (t : Addr)

namespace FpuSystem

variable (s : FpuSystem)

/-- Without access an instruction for the unit traps, so only a thread with access computes. -/
def step : FpuEvent → Option FpuSystem
  | .compute values =>
    match s.running with
    | some t =>
      if (s.core.tcbs t).contextEnabled then
        some { s with core := { s.core with hardware := values }, last := Function.update s.last t values }
      else none
    | none => none
  | .trap => if s.running.isSome then some { s with running := none } else none
  | .setFlags t clear set =>
    if s.running = none ∧ s.live t = true then some { s with core := s.core.setFlags t clear set } else none
  | .delete t =>
    if s.running = none ∧ s.live t = true then
      some { s with core := s.core.finalize t, live := Function.update s.live t false }
    else none
  | .create t =>
    if s.running = none ∧ s.live t = false then
      some { s with
        core := s.core.create t, live := Function.update s.live t true, last := Function.update s.last t {} }
    else none
  | .exit t =>
    if s.running = none ∧ s.live t = true then some { s with core := s.core.exit t, running := some t } else none

def run (s : FpuSystem) : List FpuEvent → Option FpuSystem
  | [] => some s
  | event :: rest => (s.step event).bind fun s => s.run rest

/-- The kernel has booted with some threads; what the unit held before that is still in it. -/
def start (hardware : FpuState) (live : Addr → Bool) (flags : Addr → Word) : FpuSystem where
  core := { hardware, tcbs := fun t => { flags := flags t } }
  live

end FpuSystem

end Rel4
