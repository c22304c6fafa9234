import Rel4.Kernel.Trap

/-!
The pages of processes, the copies the host makes to and from them, and the fault at a page of the heap.

The table of mappings is a map here, and the host reads and writes the frame of a page itself. Its own second mapping
of that frame, the capability slots and the page tables are not here. Without an entry of the table or a frame for a
page the host stops for good, and what a function says from there on does not happen.
-/

namespace Rel4.Host

def pageSize : Nat := 4096
def childStackPages : Nat := 16
def maxMappings : Nat := 4096
def sbrkMappingHeadroom : Nat := 256

def userMaxva : Arch → Nat
  | .riscv64 => 2 ^ 38
  | .x8664 => 2 ^ 47

/-- The heap ends below the page for trap frames, which lies below the one for the trampoline. -/
def childHeapLimit (arch : Arch) : Nat := userMaxva arch - pageSize - pageSize

/-- A page of a process, with what its frame holds. -/
structure Page where
  bytes : Nat → UInt8
  writable : Bool
  executable : Bool

structure Memory where
  /-- The pages that are mapped, by process and number. -/
  pages : Nat → Nat → Option Page
  /-- How many entries of the table of mappings are in use. -/
  mappingCount : Nat
  /-- The frames of pages that were given up, with what they still hold. -/
  framePool : List (Nat → UInt8)
  /-- How many frames the kernel has memory for. -/
  freshFrames : Nat
  /-- The host has stopped. -/
  halted : Bool := false

/-- The fields of a process table entry that are used here. -/
structure Task where
  pid : Nat
  entry : Nat
  brk : Nat
  heapStart : Nat
  heapMappedEnd : Nat
  elfPhdr : Nat
  elfPhent : Nat
  elfPhnum : Nat
  execPath : List UInt8
deriving DecidableEq

namespace Memory

variable (s : Memory)

def mappingSlotsAvailable : Nat := maxMappings - s.mappingCount

def framePoolAvailable : Nat := s.framePool.length

/-- A frame, and whether it has to be cleared; the kernel hands out new ones cleared, as long as it has memory. -/
def allocProcessFrame : (Nat → UInt8) × Bool × Memory :=
  match s.framePool, s.freshFrames with
  | frame :: rest, _ => (frame, true, { s with framePool := rest })
  | [], left + 1 => (fun _ => 0, false, { s with freshFrames := left })
  | [], 0 => (fun _ => 0, false, { s with halted := true })

/-- The entry for a mapping comes first, and a full table stops the host. -/
def mapExistingFrame (pid page : Nat) (frame : Nat → UInt8) (writable executable zeroFrame : Bool) : Memory :=
  if maxMappings ≤ s.mappingCount then { s with halted := true }
  else
    let bytes := if zeroFrame then fun _ => 0 else frame
    { s with
      pages := fun p q => if p = pid ∧ q = page then some { bytes, writable, executable } else s.pages p q
      mappingCount := s.mappingCount + 1 }

/-- A page is mapped unless it is there already, with whatever permissions. -/
def mapChildPage (child : Task) (childVa : Nat) (writable executable : Bool) : Memory :=
  let page := childVa / pageSize
  match s.pages child.pid page with
  | some _ => s
  | none =>
    let (frame, needsZero, s) := s.allocProcessFrame
    s.mapExistingFrame child.pid page frame writable executable needsZero

/-- The host has no mapping of such a page until it needs one. -/
def mapLazyChildPage (child : Task) (childVa : Nat) (writable executable : Bool) : Memory :=
  s.mapChildPage child childVa writable executable

def isChildPageMapped (child : Task) (va : Nat) : Bool := (s.pages child.pid (va / pageSize)).isSome

end Memory

def isLazyHeapAddr (arch : Arch) (child : Task) (va : Nat) : Bool :=
  child.heapStart ≤ va && va < child.brk && va < childHeapLimit arch

namespace Memory

variable (s : Memory) (arch : Arch)

/-- Whether the host gets at an address of a process; a page of the heap may be mapped for it. -/
def childPtr (child : Task) (va : Nat) (write allowLazy : Bool) : Bool × Memory :=
  let s :=
    if (s.pages child.pid (va / pageSize)).isNone && allowLazy && isLazyHeapAddr arch child va then
      s.mapLazyChildPage child va true false
    else s
  match s.pages child.pid (va / pageSize) with
  | none => (false, s)
  | some page => (!(write && !page.writable), s)

/-- Store bytes that do not cross a page. -/
def storeBytes (pid va : Nat) (bytes : List UInt8) : Memory :=
  { s with
    pages := fun p q =>
      if p = pid ∧ q = va / pageSize then
        (s.pages p q).map fun page =>
          { page with
            bytes := fun i =>
              if va % pageSize ≤ i ∧ i < va % pageSize + bytes.length then bytes.getD (i - va % pageSize) 0
              else page.bytes i }
      else s.pages p q }

/-- The byte at an address of a process. -/
def byteAt (pid va : Nat) : UInt8 :=
  match s.pages pid (va / pageSize) with
  | none => 0
  | some page => page.bytes (va % pageSize)

def loadBytes (pid va count : Nat) : List UInt8 := (List.range count).map fun i => s.byteAt pid (va + i)

/--
Copy to a process page by page; every round moves at least one byte.

An address beyond the last is not reached, since no page there is mapped.
-/
def copyToLoop (child : Task) (write allowLazy : Bool) : Nat → Memory → Nat → List UInt8 → Bool × Memory
  | 0, s, _, _ => (true, s)
  | rounds + 1, s, cur, src =>
    if src.isEmpty then (true, s)
    else
      let n := min (pageSize - cur % pageSize) src.length
      let (found, s) := s.childPtr arch child cur write allowLazy
      if found then
        copyToLoop child write allowLazy rounds (s.storeBytes child.pid cur (src.take n)) (cur + n) (src.drop n)
      else (false, s)

def copyToChild (child : Task) (va : Nat) (src : List UInt8) : Bool × Memory :=
  copyToLoop arch child true true src.length s va src

def copyFromLoop (child : Task) : Nat → Memory → Nat → Nat → Option (List UInt8) × Memory
  | 0, s, _, _ => (some [], s)
  | rounds + 1, s, cur, left =>
    if left = 0 then (some [], s)
    else
      let n := min (pageSize - cur % pageSize) left
      let (found, s) := s.childPtr arch child cur false true
      if found then
        let (rest, s') := copyFromLoop child rounds s (cur + n) (left - n)
        (rest.map (s.loadBytes child.pid cur n ++ ·), s')
      else (none, s)

def copyFromChild (child : Task) (va len : Nat) : Option (List UInt8) × Memory :=
  copyFromLoop arch child len s va len

/-- Whether a fault was at a page of the heap that had not been touched, and could be mapped. -/
def handleLazyPageFault (slotsAvailable : Nat) (child : Task) (faultAddr fsr : Nat) : Bool × Memory :=
  if faultAddr < child.heapStart ∨ child.brk ≤ faultAddr ∨ childHeapLimit arch ≤ faultAddr then (false, s)
  else if s.isChildPageMapped child faultAddr then (false, s)
  else if fsr ≠ 5 ∧ fsr ≠ 7 then (false, s)
  else if s.mappingSlotsAvailable ≤ sbrkMappingHeadroom then (false, s)
  else if s.framePoolAvailable = 0 ∧ slotsAvailable ≤ sbrkMappingHeadroom then (false, s)
  else (true, s.mapLazyChildPage child faultAddr true false)

end Memory

/-- What the host does with a fault. -/
inductive FaultOutcome
  /-- It answers with a frame of zeros, and the process goes on where it was. -/
  | resumed
  | killed
deriving DecidableEq

def vmFaultAddr (mrs : List Word) : Nat := mrs.getD 1 0
def vmFaultStatus (mrs : List Word) : Nat := mrs.getD 3 0

def handleLinuxFault (arch : Arch) (s : Memory) (slotsAvailable : Nat) (child : Task) (label : FaultLabel)
    (mrs : List Word) : FaultOutcome × Memory :=
  match label with
  | .vmFault =>
    let (handled, s) := s.handleLazyPageFault arch slotsAvailable child (vmFaultAddr mrs) (vmFaultStatus mrs)
    (if handled then .resumed else .killed, s)
  | _ => (.killed, s)

end Rel4.Host
