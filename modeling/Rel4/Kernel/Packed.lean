import Rel4.Kernel.Monad
import Rel4.Lib.Fields

/-!
The words that capabilities, tree nodes and notifications are packed into on RISC-V.

A field is named by its lowest bit and its length; the comments of the source give the same positions.
-/

namespace Rel4

open Lib

/-- Bit 38 of a pointer stands for all the bits above it. -/
def signExtend39 (low : Nat) : Nat :=
  if low &&& (1 <<< 38) ≠ 0 then low ||| 0xFFFFFF8000000000 else low

/-- A capability in two words. -/
structure PackedCap where
  word0 : Nat
  word1 : Nat

namespace PackedCap

section Constructors

@[simp] def new (tag : Nat) (fields0 word1 : Nat) : PackedCap :=
  ⟨putField tag 59 5 ||| fields0, word1⟩

@[simp] def null : PackedCap := ⟨0, 0⟩

@[simp] def newUntyped (ptr blockSizeBits freeIndex : Nat) (isDevice : Bool) : PackedCap :=
  new 2 (putField ptr 0 39)
    (putField freeIndex 25 39 ||| putField isDevice.toNat 6 1 ||| putField blockSizeBits 0 6)

@[simp] def newCNode (ptr radix guard guardSize : Nat) : PackedCap :=
  new 10 (putField guardSize 53 6 ||| putField radix 47 6 |||
    putField (getField ptr 0 39 >>> 1) 0 38) guard

@[simp] def newThread (ptr : Nat) : PackedCap := new 12 (putField ptr 0 39) 0

@[simp] def newDomain : PackedCap := new 20 0 0

@[simp] def newIrqControl : PackedCap := new 14 0 0

/-- The slot count takes the low bits of the pointer. -/
@[simp] def newZombie (type bits number ptr : Nat) : PackedCap :=
  new 18 type (setField ptr 0 (bits + 1) number)

@[simp] def newCNodeZombie (number radix ptr : Nat) : PackedCap :=
  newZombie (putField radix 0 7) radix number ptr

@[simp] def newTcbZombie (number ptr : Nat) : PackedCap :=
  newZombie (1 <<< 6) tcbCNodeRadix number ptr

@[simp] def newIoPortControl : PackedCap := new 22 0 0

@[simp] def newIoPort (firstPort lastPort : Nat) : PackedCap :=
  new 23 (putField firstPort 0 16) (putField lastPort 0 16)

@[simp] def newIrqHandler (irq : Nat) : PackedCap := new 16 0 (putField irq 0 12)

@[simp] def newAsidControl : PackedCap := new 11 0 0

@[simp] def newAsidPool (base ptr : Nat) : PackedCap :=
  new 13 (putField base 43 16 ||| putField (getField ptr 0 39 >>> 2) 0 37) 0

@[simp] def newFrame (basePtr sizeClass rights : Nat) (isDevice : Bool) : PackedCap :=
  new 1 (putField sizeClass 57 2 ||| putField rights 55 2 ||| putField isDevice.toNat 54 1)
    (putField basePtr 9 39)

@[simp] def newPageTable (basePtr : Nat) : PackedCap := new 3 0 (putField basePtr 9 39)

@[simp] def newEndpoint (ptr : Nat) : PackedCap :=
  new 4 (putField 1 58 1 ||| putField 1 57 1 ||| putField 1 56 1 ||| putField 1 55 1 |||
    putField ptr 0 39) 0

@[simp] def newNotification (ptr : Nat) : PackedCap :=
  new 6 (putField 1 58 1 ||| putField 1 57 1 ||| putField ptr 0 39) 0

@[simp] def newReply (tcbPtr : Nat) (canGrant master : Bool) : PackedCap :=
  new 8 (putField canGrant.toNat 58 1 ||| putField master.toNat 57 1) tcbPtr

end Constructors

section Accessors

variable (c : PackedCap)

@[simp] def tagRaw : Nat := getField c.word0 59 5

/-- The pointer in the low bits of the first word: of an untyped block, a thread, an endpoint or a notification, and the
mapped address of a frame or a page table. -/
@[simp] def lowPtr : Nat := signExtend39 (getField c.word0 0 39)

/-- The base of a frame or a page table. -/
@[simp] def basePtr : Nat := signExtend39 (getField c.word1 9 39)

@[simp] def mappedAsid : Nat := getField c.word1 48 16

@[simp] def flag0 (bit : Nat) : Bool := getField c.word0 bit 1 != 0

@[simp] def untypedBlockSizeBits : Nat := getField c.word1 0 6
@[simp] def untypedIsDevice : Bool := getField c.word1 6 1 != 0
@[simp] def untypedFreeIndex : Nat := getField c.word1 25 39
@[simp] def cnodeRadix : Nat := getField c.word0 47 6
@[simp] def cnodeGuardSize : Nat := getField c.word0 53 6
@[simp] def cnodeGuard : Nat := c.word1
@[simp] def cnodePtr : Nat := signExtend39 (getField c.word0 0 38 <<< 1)
@[simp] def zombieType : Nat := getField c.word0 0 7
@[simp] def zombieIsTcb : Bool := c.zombieType == 1 <<< 6
@[simp] def zombieBits : Nat := if c.zombieIsTcb then tcbCNodeRadix else c.zombieType
@[simp] def zombieNumber : Nat := getField c.word1 0 (c.zombieBits + 1)
@[simp] def zombiePtr : Nat := clearField c.word1 0 (c.zombieBits + 1)
@[simp] def ioPortFirst : Nat := getField c.word0 0 16
@[simp] def ioPortLast : Nat := getField c.word1 0 16
@[simp] def irqHandlerIrq : Nat := getField c.word1 0 12
@[simp] def asidPoolBase : Nat := getField c.word0 43 16
@[simp] def asidPoolPtr : Nat := signExtend39 (getField c.word0 0 37 <<< 2)
@[simp] def frameVmRights : Nat := getField c.word0 55 2
@[simp] def frameSize : Nat := getField c.word0 57 2
@[simp] def frameIsDevice : Bool := c.flag0 54
@[simp] def pageTableIsMapped : Bool := c.flag0 39

/-- Store into a field of the first word. -/
@[simp] def set0 (lo len v : Nat) : PackedCap := { c with word0 := setField c.word0 lo len v }

/-- Clear a field of the first word. -/
@[simp] def clear0 (lo len : Nat) : PackedCap := { c with word0 := clearField c.word0 lo len }

/-- Store into a field of the second word. -/
@[simp] def set1 (lo len v : Nat) : PackedCap := { c with word1 := setField c.word1 lo len v }

end Accessors

end PackedCap

/-- The setters, and the bits of rights that are taken away when a capability is copied. -/
inductive CapSetter
  | untypedFreeIndex (v : Nat)
  | zombieNumber (number : Nat)
  | frameMappedAsid (asid : Nat)
  | frameMappedAddr (addr : Nat)
  | frameVmRights (rights : VmRights)
  | pageTableMapping (asid addr : Nat)
  | clearPageTableMapping
  | clearPageTableIsMapped
  | endpointBadge (badge : Nat)
  | notificationBadge (badge : Nat)
  | replyCanGrant (canGrant : Bool)
  | clearEndpointSend
  | clearEndpointReceive
  | clearEndpointGrant
  | clearEndpointGrantReply
  | clearNotificationSend
  | clearNotificationReceive

def VmRights.raw : VmRights → Nat
  | .kernelOnly => 1
  | .readOnly => 2
  | .readWrite => 3

def FrameSize.raw : FrameSize → Nat
  | .page4K => 0
  | .megapage => 1
  | .gigapage => 2

/-- The rights and the size with a number; one number of each field stands for nothing. -/
def VmRights.ofRaw : Nat → Option VmRights
  | 1 => some .kernelOnly
  | 2 => some .readOnly
  | 3 => some .readWrite
  | _ => none

def FrameSize.ofRaw : Nat → Option FrameSize
  | 0 => some .page4K
  | 1 => some .megapage
  | 2 => some .gigapage
  | _ => none

def PackedCap.set (c : PackedCap) : CapSetter → PackedCap
  | .untypedFreeIndex v => c.set1 25 39 v
  | .zombieNumber number => c.set1 0 (c.zombieBits + 1) number
  | .frameMappedAsid asid => c.set1 48 16 asid
  | .frameMappedAddr addr => c.set0 0 39 addr
  | .frameVmRights rights => c.set0 55 2 rights.raw
  | .pageTableMapping asid addr =>
    set1 { c with word0 := clearField c.word0 0 40 ||| (putField addr 0 39 ||| putField 1 39 1) }
      48 16 asid
  | .clearPageTableMapping => { c.clear0 0 40 with word1 := clearField c.word1 48 16 }
  | .clearPageTableIsMapped => c.clear0 39 1
  | .endpointBadge badge | .notificationBadge badge => { c with word1 := badge }
  | .replyCanGrant canGrant => c.set0 58 1 canGrant.toNat
  | .clearEndpointSend => c.clear0 55 1
  | .clearEndpointReceive => c.clear0 56 1
  | .clearEndpointGrant | .clearNotificationSend => c.clear0 57 1
  | .clearEndpointGrantReply | .clearNotificationReceive => c.clear0 58 1

/-- What all the getters of its kind say about a packed capability, if the words are those of one. -/
def PackedCap.decode (c : PackedCap) : Option Cap :=
  match c.tagRaw with
  | 0 => some .null
  | 1 => do
    let size ← FrameSize.ofRaw c.frameSize
    let rights ← VmRights.ofRaw c.frameVmRights
    return .frame c.basePtr size rights c.frameIsDevice c.lowPtr c.mappedAsid
  | 2 => some (.untyped c.lowPtr c.untypedBlockSizeBits c.untypedFreeIndex c.untypedIsDevice)
  | 3 => some (.pageTable c.basePtr c.pageTableIsMapped c.lowPtr c.mappedAsid)
  | 4 => some (.endpoint c.lowPtr c.word1 (c.flag0 55) (c.flag0 56) (c.flag0 57) (c.flag0 58))
  | 6 => some (.notification c.lowPtr c.word1 (c.flag0 57) (c.flag0 58))
  | 8 => some (.reply c.word1 (c.flag0 58) (c.flag0 57))
  | 10 => some (.cnode c.cnodePtr c.cnodeRadix c.cnodeGuard c.cnodeGuardSize)
  | 11 => some .asidControl
  | 12 => some (.thread c.lowPtr)
  | 13 => some (.asidPool c.asidPoolBase c.asidPoolPtr)
  | 14 => some .irqControl
  | 16 => some (.irqHandler c.irqHandlerIrq)
  | 18 =>
    some (.zombie c.zombiePtr (if c.zombieIsTcb then .tcb else .cnode c.zombieType) c.zombieNumber)
  | 20 => some .domain
  | 22 => some .ioPortControl
  | 23 => some (.ioPort c.ioPortFirst c.ioPortLast)
  | _ => none

/-- The fields of a tree node. -/
structure MdbFields where
  prev : Nat
  next : Nat
  revocable : Bool
  firstBadged : Bool
deriving DecidableEq

/-- A tree node in two words. -/
structure PackedMdb where
  word0 : Nat
  word1 : Nat

namespace PackedMdb

/-- The two low bits of a pointer are not stored. -/
def new (prev next : Nat) (revocable firstBadged : Bool) : PackedMdb :=
  ⟨prev, putField (next >>> 2) 2 37 ||| putField revocable.toNat 1 1 |||
    putField firstBadged.toNat 0 1⟩

def decode (m : PackedMdb) : MdbFields where
  prev := m.word0
  next := signExtend39 (getField m.word1 2 37 <<< 2)
  revocable := getField m.word1 1 1 != 0
  firstBadged := getField m.word1 0 1 != 0

end PackedMdb

/-- The setters of a tree node. -/
inductive MdbSetter
  | prev (v : Nat)
  | next (v : Nat)
  | revocable (v : Bool)
  | firstBadged (v : Bool)

def PackedMdb.set (m : PackedMdb) : MdbSetter → PackedMdb
  | .prev v => { m with word0 := v }
  | .next v => { m with word1 := setField m.word1 2 37 (v >>> 2) }
  | .revocable v => { m with word1 := setField m.word1 1 1 v.toNat }
  | .firstBadged v => { m with word1 := setField m.word1 0 1 v.toNat }

/-- A notification in four words. -/
structure PackedNotification where
  word0 : Nat := 0
  word1 : Nat := 0
  word2 : Nat := 0
  word3 : Nat := 0

def kvaOrZero (tcb : Option Addr) : Nat := tcb.getD 0

def NtfnState.raw : NtfnState → Nat
  | .idle => 0
  | .waiting => 1
  | .active => 2

/-- What the getters say; the tail is next to the state, cut to 39 bits. -/
def PackedNotification.decode (n : PackedNotification) : Notification where
  state := if getField n.word0 0 2 = 1 then .waiting
    else if getField n.word0 0 2 = 2 then .active else .idle
  ends := {
    head := fromKva n.word1
    tail := if getField n.word0 25 39 = 0 then none
      else fromKva (signExtend39 (getField n.word0 25 39)) }
  badge := n.word2
  boundTcb := fromKva n.word3

/-- The setters of a notification. -/
inductive NtfnSetter
  | state (state : NtfnState)
  | badge (badge : Nat)
  | boundTcb (tcb : Option Addr)
  | head (head : Option Addr)
  | tail (tail : Option Addr)

def PackedNotification.set (n : PackedNotification) : NtfnSetter → PackedNotification
  | .state state => { n with word0 := setField n.word0 0 2 state.raw }
  | .badge badge => { n with word2 := badge }
  | .boundTcb tcb => { n with word3 := kvaOrZero tcb }
  | .head head => { n with word1 := kvaOrZero head }
  | .tail tail => { n with word0 := setField n.word0 25 39 (kvaOrZero tail) }

end Rel4
