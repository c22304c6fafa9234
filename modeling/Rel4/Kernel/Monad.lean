import Rel4.Kernel.State

/-! Kernel code as state transformers that may answer with an error or stop the machine. -/

namespace Rel4

/-- The errors an invocation answers its caller with. -/
inductive SyscallError
  | invalidArgument
  | invalidCapability
  | illegalOperation
  | rangeError
  | alignmentError
  | notEnoughMemory
  | deleteFirst
  | revokeFirst
  | truncatedMessage
  | failedLookup
  | unsupported
  | preempted
deriving DecidableEq

/-- Ways a kernel function ends other than by returning its value. -/
inductive Abort
  /-- The function returned this error to its caller. -/
  | error (e : SyscallError)
  /-- An assertion of the source failed. -/
  | panic (text : String)
  /-- The core stopped for good: a debug halt, or a fault nobody handles. -/
  | halted
  /-- A loop ran past the bound the state was given. -/
  | outOfFuel
  /-- Deletion called itself more deeply than the caller allowed. -/
  | tooDeep
deriving DecidableEq

/-- Kernel code: it reads and writes the state, and may abort. -/
abbrev Kern := EStateM Abort KState

/-- Answer the caller with an error. -/
def raise {α : Type} (e : SyscallError) : Kern α := throw (.error e)

/-- Run a function that may answer with an error, and hand its answer on as a value. -/
def attempt {α : Type} (prog : Kern α) : Kern (Except SyscallError α) := fun s =>
  match prog s with
  | .ok a s' => .ok (.ok a) s'
  | .error (.error e) s' => .ok (.error e) s'
  | .error stop s' => .error stop s'

/-- Stop at a failed assertion. -/
def crash {α : Type} (text : String) : Kern α := throw (.panic text)

namespace CapStore

/-- Change one slot. -/
def modify (cs : CapStore) (slot : Slot) (change : Cte → Cte) : CapStore :=
  { cs with ctes := Function.update cs.ctes slot (change (cs.ctes slot)) }

/-- Replace the capability of a slot, keeping its place in the derivation list. -/
def setCap (cs : CapStore) (slot : Slot) (cap : Cap) : CapStore :=
  cs.modify slot fun cte => { cte with cap }

/-- Replace the derivation entry of a slot. -/
def setMdb (cs : CapStore) (slot : Slot) (mdb : MdbNode) : CapStore :=
  cs.modify slot fun cte => { cte with mdb }

/-- Point a neighbour back at a slot, if there is a neighbour. -/
def setMdbPrev (cs : CapStore) (slot : Option Slot) (prev : Option Slot) : CapStore :=
  match slot with
  | some slot => cs.modify slot fun cte => { cte with mdb := { cte.mdb with prev } }
  | none => cs

/-- Point a neighbour forward at a slot, if there is a neighbour. -/
def setMdbNext (cs : CapStore) (slot : Option Slot) (next : Option Slot) : CapStore :=
  match slot with
  | some slot => cs.modify slot fun cte => { cte with mdb := { cte.mdb with next } }
  | none => cs

end CapStore

namespace KState

/-- The capability in a slot. -/
def cap (s : KState) (slot : Slot) : Cap := (s.caps.ctes slot).cap

/-- The derivation entry of a slot. -/
def mdb (s : KState) (slot : Slot) : MdbNode := (s.caps.ctes slot).mdb

/-- Replace the capability in a slot. -/
def setCap (s : KState) (slot : Slot) (cap : Cap) : KState :=
  { s with caps := s.caps.setCap slot cap }

/-- Change the bookkeeping fields of the capability in a slot. -/
def updateCap (s : KState) (slot : Slot) (change : Cap → Cap) : KState :=
  s.setCap slot (change (s.cap slot))

end KState

/-- A handle for an object whose stored address may be zero. -/
def fromKva (kva : Addr) : Option Addr := if kva = 0 then none else some kva

/-- The slot at a position of a run of slots. -/
def slotAt (base : Addr) (index : Nat) : Slot := base + 2 ^ slotBits * index

end Rel4
