import Rel4.Kernel.Monad

/-! Capability slots and the derivation list: insertion, moves, swaps, removal and parenthood. -/

namespace Rel4

namespace CapStore

/-- A capability born from the one in a slot continues its lineage. -/
def bornFrom (cs : CapStore) (parent : Slot) : List Nat :=
  cs.births :: (cs.ctes parent).mdb.lineage

/-- What is made from an untyped block is carved from it; a copy has the origin of its source. -/
def originFrom (cs : CapStore) (parent : Slot) (new : Cap) : Option (Addr × Nat) :=
  match (cs.ctes parent).cap, new with
  | .untyped .., .untyped .. => (cs.ctes parent).mdb.origin
  | .untyped ptr bits _ _, _ => some (ptr, bits)
  | _, _ => (cs.ctes parent).mdb.origin

/-- Publish a freshly created object as a revocable child right after its untyped block. -/
def insertNewCap (cs : CapStore) (parent slot : Slot) (cap : Cap) : CapStore :=
  let next := (cs.ctes parent).mdb.next
  let born : MdbNode :=
    { prev := some parent, next, revocable := true, firstBadged := true,
      lineage := cs.bornFrom parent, origin := (cs.ctes parent).cap.physicalRegion }
  let cs' := { cs with births := cs.births + 1 }
  let cs' := cs'.modify slot fun _ => { cap, mdb := born }
  let cs' := cs'.setMdbPrev next (some slot)
  cs'.setMdbNext (some parent) (some slot)

/-- Copying an untyped capability marks the source as fully allocated. -/
def setUntypedCapAsFull (cs : CapStore) (slot : Slot) (src new : Cap) : CapStore :=
  match src, new with
  | .untyped ptr bits _ _, .untyped ptr' bits' _ _ =>
    if ptr ≠ ptr' ∨ bits ≠ bits' ∨ bits < minUntypedBits then cs
    else cs.setCap slot ((cs.ctes slot).cap.setUntypedFreeIndex (2 ^ (bits - minUntypedBits)))
  | _, _ => cs

/-- Install a derived capability right after its source. -/
def cteInsert (cs : CapStore) (src : Slot) (new : Cap) (dest : Slot) : CapStore :=
  let srcCte := cs.ctes src
  let revocable := new.isRevocable srcCte.cap
  let born : MdbNode :=
    { prev := some src, next := srcCte.mdb.next, revocable, firstBadged := revocable,
      lineage := cs.bornFrom src, origin := cs.originFrom src new }
  let cs' := { cs with births := cs.births + 1 }
  let cs' := cs'.setUntypedCapAsFull src srcCte.cap new
  let cs' := cs'.modify dest fun _ => { cap := new, mdb := born }
  let cs' := cs'.setMdbNext (some src) (some dest)
  cs'.setMdbPrev srcCte.mdb.next (some dest)

/-- Install a capability that nothing else derives from: boot capabilities and reply masters. -/
def installRoot (cs : CapStore) (slot : Slot) (cap : Cap) : CapStore :=
  let root : MdbNode := { revocable := true, firstBadged := true, lineage := [cs.births] }
  { cs with births := cs.births + 1 }.modify slot fun _ => { cap, mdb := root }

/-- Point the neighbours recorded in a derivation entry at the slot the entry moved to. -/
def relinkMdbNeighbors (cs : CapStore) (newSlot : Slot) (mdb : MdbNode) : CapStore :=
  (cs.setMdbNext mdb.prev (some newSlot)).setMdbPrev mdb.next (some newSlot)

/-- Move a capability and its derivation entry to an empty slot, storing a possibly changed one. -/
def moveSlot (cs : CapStore) (src dst : Slot) (newCap : Cap) : CapStore :=
  let moved := (cs.ctes src).mdb
  let cs' := cs.setCap dst newCap
  let cs' := cs'.setCap src .null
  let cs' := cs'.setMdb dst moved
  let cs' := cs'.setMdb src {}
  cs'.relinkMdbNeighbors dst moved

/-- Exchange two slots, capabilities and derivation entries alike. -/
def swapSlots (cs : CapStore) (cap1 : Cap) (slot1 : Slot) (cap2 : Cap) (slot2 : Slot) : CapStore :=
  let cs' := cs.setCap slot1 cap2
  let cs' := cs'.setCap slot2 cap1
  let mdb1 := (cs'.ctes slot1).mdb
  let cs' := cs'.relinkMdbNeighbors slot2 mdb1
  let mdb2 := (cs'.ctes slot2).mdb
  let cs' := cs'.setMdb slot1 mdb2
  let cs' := cs'.setMdb slot2 mdb1
  cs'.relinkMdbNeighbors slot1 mdb2

/-- The successor of a deleted first badged capability becomes the first of its branch. -/
def inheritFirstBadged (cs : CapStore) (next : Option Slot) : CapStore :=
  match next with
  | some next => cs.modify next fun cte => { cte with mdb := { cte.mdb with firstBadged := true } }
  | none => cs

/-- Splice a slot out of the derivation list and empty it. -/
def emptySlot (cs : CapStore) (slot : Slot) : CapStore :=
  let mdb := (cs.ctes slot).mdb
  let cs' := cs.setMdbNext mdb.prev mdb.next
  let cs' := cs'.setMdbPrev mdb.next mdb.prev
  let cs' := if mdb.firstBadged then cs'.inheritFirstBadged mdb.next else cs'
  (cs'.setCap slot .null).setMdb slot {}

end CapStore

/-- Last byte of a region. -/
def regionTop (base bits : Nat) : Nat := base + (2 ^ bits - 1)

/-- Whether one region lies within another. -/
def regionWithin (base bits base' bits' : Nat) : Bool :=
  base' ≤ base && regionTop base bits ≤ regionTop base' bits'

/--
Whether the first entry is a parent of the second in the derivation list.

The parent must be revocable, and the two must meet on one region.
A badged parent only owns entries of its own badge that do not start a branch.
-/
def isMdbParentOf (parent child : Cte) : Bool :=
  parent.mdb.revocable &&
  match parent.cap, child.cap with
  | .untyped ptr bits _ _, cap =>
    match cap.physicalRegion with
    | some (base, bits') => regionWithin base bits' ptr bits
    | none => false
  | .endpoint p badge .., .endpoint q badge' .. =>
    p == q && (badge == 0 || (badge == badge' && !child.mdb.firstBadged))
  | .notification p badge .., .notification q badge' .. =>
    p == q && (badge == 0 || (badge == badge' && !child.mdb.firstBadged))
  | .cnode p r .., .cnode q t .. => p == q && r == t
  | .thread p, .thread q => p == q
  | .reply p .., .reply q .. => p == q
  | .irqControl, .irqControl => true
  | .irqControl, .irqHandler _ => true
  | .irqHandler i, .irqHandler j => i == j
  | .frame p s .., .frame q t .. => regionWithin q t.bits p s.bits
  | .pageTable p .., .pageTable q .. => p == q
  | .domain, .domain => true
  | .asidControl, .asidControl => true
  | .asidPool _ p, .asidPool _ q => p == q
  | _, _ => false

/-- Only the direct successor can show that a slot has children. -/
def CapStore.mdbHasChildren (cs : CapStore) (slot : Slot) : Bool :=
  match (cs.ctes slot).mdb.next with
  | some next => isMdbParentOf (cs.ctes slot) (cs.ctes next)
  | none => false

/-- Whether neither neighbour in the derivation list names the same object. -/
def CapStore.isFinalCapability (cs : CapStore) (slot : Slot) : Bool :=
  let cte := cs.ctes slot
  let prevSame := match cte.mdb.prev with
    | some prev => (cs.ctes prev).cap.sameObjectAs cte.cap
    | none => false
  let nextSame := match cte.mdb.next with
    | some next => cte.cap.sameObjectAs (cs.ctes next).cap
    | none => false
  !prevSame && !nextSame

/-- Insert a new object's capability, checking the destination as the source does. -/
def insertNewCap (parent slot : Slot) (cap : Cap) : Kern Unit := do
  let s ← get
  if parent = slot then crash "insertNewCap parent and destination must differ"
  if !(s.caps.ctes slot).isEmpty then crash "insertNewCap to non-empty destination"
  set { s with caps := s.caps.insertNewCap parent slot cap }

/-- Insert a derived capability, checking the destination as the source does. -/
def cteInsert (src : Slot) (new : Cap) (dest : Slot) : Kern Unit := do
  let s ← get
  if src = dest then crash "cteInsert source and destination must differ"
  if !(s.caps.ctes dest).isEmpty then crash "cteInsert to non-empty destination"
  set { s with caps := s.caps.cteInsert src new dest }

/-- Move a capability to an empty slot. -/
def cnodeMoveSlot (src dst : Slot) (newCap : Cap) : Kern Unit := do
  let s ← get
  if src = dst then crash "cteMove source and destination must differ"
  if (s.cap src).isNull then crash "cteMove from empty source"
  if !(s.cap dst).isNull then crash "cteMove to non-empty destination"
  if (s.mdb dst).next.isSome || (s.mdb dst).prev.isSome then
    crash "cteMove destination MDB entry must be empty"
  set { s with caps := s.caps.moveSlot src dst newCap }

/-- Exchange two slots. -/
def cnodeSwapSlots (cap1 : Cap) (slot1 : Slot) (cap2 : Cap) (slot2 : Slot) : Kern Unit := do
  if slot1 = slot2 then crash "cteSwap slots must differ"
  modify fun s => { s with caps := s.caps.swapSlots cap1 slot1 cap2 slot2 }

end Rel4
