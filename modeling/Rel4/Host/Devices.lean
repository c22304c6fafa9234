import Rel4.Kernel.Untyped
import Rel4.Kernel.UntypedChunks

/-!
Device memory of the host: pages at given physical addresses, cut from untyped blocks.

The host keeps for every block the address that it believes the kernel will carve next.
-/

namespace Rel4.Host

section Kernel

/-- The root node, and which of its blocks have children. -/
structure RootNode where
  caps : Nat → Cap
  hasChildren : Nat → Bool

/-- A block with its new free index, and the object that was carved from it. -/
def RootNode.carve (node : RootNode) (slot : Nat) (block : Cap) (dest : Nat) (object : Cap) :
    RootNode where
  caps := Function.update (Function.update node.caps slot block) dest object
  hasChildren := Function.update (Function.update node.hasChildren slot true) dest false

/-- Create one object in an empty slot of the root node: it is carved at the aligned free index of
the block. -/
def RootNode.retype (node : RootNode) (slot : Nat) (type : ObjectType) (userSize dest : Nat) :
    Except SyscallError RootNode :=
  match node.caps slot with
  | .untyped base blockBits storedIndex isDevice =>
    let bits := type.sizeBits userSize
    if wordBits ≤ userSize ∨ maxUntypedBits < bits then .error .rangeError
    else if type = .capTable ∧ userSize = 0 ∨ type = .untyped ∧ userSize < minUntypedBits then
      .error .invalidArgument
    else if !(node.caps dest).isNull then .error .deleteFirst
    else
      -- A block without children starts again from its base.
      let used := (if node.hasChildren slot then storedIndex else 0) * 2 ^ minUntypedBits
      let start := alignUp used bits
      if 2 ^ blockBits < start + 2 ^ bits then .error .notEnoughMemory
      else if isDevice && !type.deviceRetypeAllowed then .error .invalidArgument
      else
        let index := (start + 2 ^ bits) / 2 ^ minUntypedBits
        .ok (node.carve slot (.untyped base blockBits index isDevice) dest
          (type.createCap (base + start) userSize isDevice))
  | _ => .error .invalidCapability

end Kernel

/-- A block of device memory: its slot, the next address to carve, and its end. -/
structure DeviceRegion where
  slot : Nat
  cursorPa : Nat
  topPa : Nat
deriving DecidableEq

/-- What an object leaves of the region that it is carved from. -/
def DeviceRegion.after (region : DeviceRegion) (size : Nat) : DeviceRegion :=
  { region with cursorPa := region.cursorPa + size }

/-- Why the host stops for good. -/
inductive DeviceHalt
  | outOfSlots
  | tooManyRegions
  | invalidRequest
  | lostAlignment
  | refused (error : SyscallError)
deriving DecidableEq

def maxDeviceRegions : Nat := 256
def devicePage : Nat := 4096

/-- The allocator of the host and the root node. -/
structure DeviceHost where
  nextSlot : Nat
  emptyEnd : Nat
  /-- Slots that were given back, the last one first. -/
  recycled : List Nat
  deviceRegions : List DeviceRegion
  node : RootNode

/-- A call of the allocator; a halt leaves the state it is found in. -/
abbrev DeviceM := EStateM DeviceHalt DeviceHost

/-- An entry of the list of untyped blocks that the kernel hands over at boot. -/
structure UntypedDesc where
  paddr : Nat
  sizeBits : Nat
  isDevice : Bool

/-- The device blocks of a page or more that are recorded at boot; the slots of the blocks follow
each other, and their list is shorter than the table. -/
def bootRegions : Nat → List UntypedDesc → List DeviceRegion
  | _, [] => []
  | slot, desc :: rest =>
    if desc.isDevice ∧ 12 ≤ desc.sizeBits then
      ⟨slot, desc.paddr, min (desc.paddr + 2 ^ desc.sizeBits) (2 ^ 64 - 1)⟩ ::
        bootRegions (slot + 1) rest
    else bootRegions (slot + 1) rest

/-- Whether a page at an address can come from a region. -/
def DeviceRegion.Suits (region : DeviceRegion) (paddr : Nat) : Prop :=
  region.slot ≠ 0 ∧ region.cursorPa ≤ paddr ∧ min (paddr + devicePage) (2 ^ 64 - 1) ≤ region.topPa

instance (region : DeviceRegion) (paddr : Nat) : Decidable (region.Suits paddr) := by
  unfold DeviceRegion.Suits
  infer_instance

/-- A turn of the search, with the position and the size of the best region so far. -/
def smaller (paddr : Nat) (best : Option Nat × Nat) (entry : DeviceRegion × Nat) : Option Nat × Nat :=
  let size := entry.1.topPa - entry.1.cursorPa
  if entry.1.Suits paddr ∧ size < best.2 then (some entry.2, size) else best

namespace DeviceHost

variable (h : DeviceHost)

/-- The smallest region with room for a page at an address; the first of several. -/
def findDeviceRegion (paddr : Nat) : Option Nat :=
  (h.deviceRegions.zipIdx.foldl (smaller paddr) (none, 2 ^ 64 - 1)).1

def region (index : Nat) : DeviceRegion := h.deviceRegions.getD index ⟨0, 0, 0⟩

/-- Move the cursor of a region on. -/
def advance (index size : Nat) : DeviceHost :=
  { h with deviceRegions := h.deviceRegions.modify index (·.after size) }

end DeviceHost

def allocSlot : DeviceM Nat := do
  let h ← get
  match h.recycled with
  | slot :: rest =>
    set { h with recycled := rest }
    return slot
  | [] =>
    if h.emptyEnd ≤ h.nextSlot then throw .outOfSlots
    set { h with nextSlot := h.nextSlot + 1 }
    return h.nextSlot

def retypeOneFrom (untypedSlot : Nat) (type : ObjectType) (userSize : Nat) : DeviceM Nat := do
  let slot ← allocSlot
  let h ← get
  match h.node.retype untypedSlot type userSize slot with
  | .error error => throw (.refused error)
  | .ok node =>
    set { h with node }
    return slot

def addDeviceRegion (region : DeviceRegion) : DeviceM Unit := do
  let h ← get
  if maxDeviceRegions ≤ h.deviceRegions.length then throw .tooManyRegions
  set { h with deviceRegions := h.deviceRegions ++ [region] }

def largestAlignedChunkBits (cursor remaining : Nat) : DeviceM Nat := do
  let maxBySize := Nat.log2 remaining
  let maxByAlign := if cursor = 0 then 63 else trailingZeros cursor
  let bits := min maxBySize maxByAlign
  if bits < 12 then throw .lostAlignment
  return bits

/-- Split off the largest block that starts at the cursor of a region and ends before an address. -/
def skipRound (index paddr : Nat) : DeviceM Unit := do
  let region := (← get).region index
  let sizeBits ← largestAlignedChunkBits region.cursorPa (paddr - region.cursorPa)
  let slot ← retypeOneFrom region.slot .untyped sizeBits
  addDeviceRegion ⟨slot, region.cursorPa, region.cursorPa + 2 ^ sizeBits⟩
  modify (·.advance index (2 ^ sizeBits))

/-- The loop up to an address; every round moves the cursor. -/
def skipTo (index paddr : Nat) : Nat → DeviceM Unit
  | 0 => pure ()
  | rounds + 1 => do
    if ((← get).region index).cursorPa < paddr then
      skipRound index paddr
      skipTo index paddr rounds

def retypeDevice4kAt (paddr : Nat) : DeviceM Nat := do
  if paddr % devicePage ≠ 0 then throw .invalidRequest
  match (← get).findDeviceRegion paddr with
  | none => throw .invalidRequest
  | some index =>
    skipTo index paddr paddr
    let frame ← retypeOneFrom ((← get).region index).slot (.frame .page4K) 0
    modify (·.advance index devicePage)
    return frame

/-- Requests one after the other, with the slots of their frames. -/
def retypeAll : List Nat → DeviceM (List Nat)
  | [] => pure []
  | paddr :: rest => do
    let frame ← retypeDevice4kAt paddr
    let frames ← retypeAll rest
    return frame :: frames

end Rel4.Host
