import Mathlib.Algebra.Group.Nat.Defs
import Mathlib.Data.Nat.Bits

/-! Capabilities as the kernel reads them: one constructor per tag, with the fields of its words. -/

namespace Rel4

/-- A kernel virtual address; zero is the null handle. -/
abbrev Addr := Nat

/-- A machine word as user space supplies it. -/
abbrev Word := Nat

/-- The address of a capability table entry. -/
abbrev Slot := Addr

/-- The two instruction sets the kernel is built for. -/
inductive Arch
  | riscv64
  | x8664
deriving DecidableEq

/-- Bytes of a capability table entry, as a power of two. -/
def slotBits : Nat := 5
/-- Bytes of a thread control block, as a power of two. -/
def tcbBits : Nat := 11
/-- Bytes of an endpoint, as a power of two. -/
def endpointBits : Nat := 4
/-- Bytes of a notification, as a power of two. -/
def notificationBits : Nat := 5
/-- Bytes of a page table, as a power of two. -/
def pageTableBits : Nat := 12
/-- Bytes of an address-space identifier pool, as a power of two. -/
def asidPoolBits : Nat := 12
/-- The smallest untyped block, and the unit its free index counts in. -/
def minUntypedBits : Nat := 4
/-- The largest untyped block. -/
def maxUntypedBits : Nat := 38

/-- What a zombie is the remainder of: a capability node, or a thread's embedded slots. -/
inductive ZombieType
  | cnode (radix : Nat)
  | tcb
deriving DecidableEq

/-- Number of slots of a thread's embedded node, as a power of two. -/
def tcbCNodeRadix : Nat := 4

/-- The radix of the slot range a zombie still has to tear down. -/
def ZombieType.bits : ZombieType → Nat
  | .cnode radix => radix
  | .tcb => tcbCNodeRadix

/-- The three frame sizes, smallest first. -/
inductive FrameSize
  | page4K
  | megapage
  | gigapage
deriving DecidableEq

/-- Bytes of a frame, as a power of two. -/
def FrameSize.bits : FrameSize → Nat
  | .page4K => 12
  | .megapage => 21
  | .gigapage => 30

/-- The virtual-memory rights a frame capability carries. -/
inductive VmRights
  | kernelOnly
  | readOnly
  | readWrite
deriving DecidableEq

/-- A capability, one constructor per tag. -/
inductive Cap
  | null
  | frame (base : Addr) (size : FrameSize) (rights : VmRights) (isDevice : Bool)
      (mappedAddr mappedAsid : Nat)
  | untyped (ptr : Addr) (blockBits freeIndex : Nat) (isDevice : Bool)
  | pageTable (base : Addr) (isMapped : Bool) (mappedAddr mappedAsid : Nat)
  | endpoint (ptr : Addr) (badge : Word) (canSend canReceive canGrant canGrantReply : Bool)
  | notification (ptr : Addr) (badge : Word) (canSend canReceive : Bool)
  | reply (tcb : Addr) (canGrant isMaster : Bool)
  | cnode (ptr : Addr) (radix guard guardSize : Nat)
  | asidControl
  | thread (ptr : Addr)
  | asidPool (base : Nat) (ptr : Addr)
  | irqControl
  | irqHandler (irq : Nat)
  | zombie (ptr : Addr) (type : ZombieType) (number : Nat)
  | domain
  | ioPortControl
  | ioPort (first last : Nat)
deriving DecidableEq

namespace Cap

/-- The null capability fills every empty slot. -/
def isNull : Cap → Bool
  | null => true
  | _ => false

@[simp] theorem isNull_iff {cap : Cap} : cap.isNull = true ↔ cap = null := by
  cases cap <;> simp [isNull]

@[simp] theorem isNull_eq_false {cap : Cap} : cap.isNull = false ↔ cap ≠ null := by
  cases cap <;> simp [isNull]

/-- Only the low thirty-nine bits of a mapped address are stored, and bit 38 is its sign. -/
def signExtendPtr (addr : Nat) : Nat :=
  let low := addr % 2 ^ 39
  if 2 ^ 38 ≤ low then low + (2 ^ 64 - 2 ^ 39) else low

/-- A freshly retyped endpoint carries every right and no badge. -/
def newEndpoint (ptr : Addr) : Cap := endpoint ptr 0 true true true true

/-- A freshly retyped notification carries every right and no badge. -/
def newNotification (ptr : Addr) : Cap := notification ptr 0 true true

/-- A frame starts unmapped. -/
def newFrame (base : Addr) (size : FrameSize) (rights : VmRights) (isDevice : Bool) : Cap :=
  frame base size rights isDevice 0 0

/-- A page table starts unmapped. -/
def newPageTable (base : Addr) : Cap := pageTable base false 0 0

/-- The zombie word packs the slot count into the low bits of the pointer. -/
def newZombie (number : Nat) (type : ZombieType) (ptr : Addr) : Cap :=
  zombie (ptr - ptr % 2 ^ (type.bits + 1)) type (number % 2 ^ (type.bits + 1))

/-- The remainder of a capability node with this many slots left. -/
def newCNodeZombie (number radix : Nat) (ptr : Addr) : Cap := newZombie number (.cnode radix) ptr

/-- The remainder of a thread's embedded slots. -/
def newTcbZombie (number : Nat) (ptr : Addr) : Cap := newZombie number .tcb ptr

/-- Only the slot count of a zombie ever changes. -/
def setZombieNumber (number : Nat) : Cap → Cap
  | zombie ptr type _ => zombie ptr type (number % 2 ^ (type.bits + 1))
  | cap => cap

/-- The free index counts sixteen-byte units from the start of the block. -/
def setUntypedFreeIndex (freeIndex : Nat) : Cap → Cap
  | untyped ptr bits _ isDevice => untyped ptr bits (freeIndex % 2 ^ 39) isDevice
  | cap => cap

/-- Recording a mapped address keeps thirty-nine bits of it. -/
def setFrameMappedAddr (addr : Nat) : Cap → Cap
  | frame base size rights dev _ asid => frame base size rights dev (signExtendPtr addr) asid
  | cap => cap

/-- The zero identifier marks a frame as unmapped. -/
def setFrameMappedAsid (asid : Nat) : Cap → Cap
  | frame base size rights dev addr _ => frame base size rights dev addr (asid % 2 ^ 16)
  | cap => cap

/-- Recording where a page table was linked marks it as mapped. -/
def setPageTableMapping (asid addr : Nat) : Cap → Cap
  | pageTable base _ _ _ => pageTable base true (signExtendPtr addr) (asid % 2 ^ 16)
  | cap => cap

/-- Where the object of a physical capability lies, and its size as a power of two. -/
def physicalRegion : Cap → Option (Addr × Nat)
  | untyped ptr bits _ _ => some (ptr, bits)
  | endpoint ptr .. => some (ptr, endpointBits)
  | notification ptr .. => some (ptr, notificationBits)
  | cnode ptr radix .. => some (ptr, radix + slotBits)
  | thread ptr => some (ptr, tcbBits)
  | zombie ptr .tcb _ => some (ptr, tcbBits)
  | zombie ptr (.cnode radix) _ => some (ptr, radix + slotBits)
  | frame base size .. => some (base, size.bits)
  | pageTable base .. => some (base, pageTableBits)
  | asidPool _ ptr => some (ptr, asidPoolBits)
  | _ => none

/--
Whether two capabilities name one object.

An untyped block is nobody's copy, and a control capability is not the object it issues.
-/
def sameObjectAs : Cap → Cap → Bool
  | endpoint p .., endpoint q .. => p == q
  | notification p .., notification q .. => p == q
  | cnode p r .., cnode q t .. => p == q && r == t
  | thread p, thread q => p == q
  | reply p .., reply q .. => p == q
  | irqHandler i, irqHandler j => i == j
  | ioPort f l, ioPort g m => f == g && l == m
  | domain, domain => true
  | asidControl, asidControl => true
  | pageTable p .., pageTable q .. => p == q
  | asidPool _ p, asidPool _ q => p == q
  | frame p s _ d .., frame q t _ e .. => p == q && s == t && d == e
  | _, _ => false

/--
Whether a capability inserted next to its source may itself be revoked.

A badge that differs starts a branch of its own, and so does a freshly issued handler.
-/
def isRevocable (new src : Cap) : Bool :=
  match new with
  | untyped .. => true
  | endpoint _ badge .. =>
    match src with
    | endpoint _ badge' .. => badge != badge'
    | _ => badge != 0
  | notification _ badge .. =>
    match src with
    | notification _ badge' .. => badge != badge'
    | _ => badge != 0
  | irqHandler _ => src == irqControl
  | _ => false

end Cap

end Rel4
