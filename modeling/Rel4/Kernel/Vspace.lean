import Rel4.Kernel.Cspace

/-! Page tables of both instruction sets: walks, mapping and unmapping of frames and tables. -/

namespace Rel4

/-- Start of the window through which the kernel reaches physical memory. -/
def pptrBase : Addr := 0xFFFFFFC000000000
/-- End of that window. -/
def pptrTop : Addr := 0xFFFFFFFF80000000

/-- Where the kernel image lies in physical memory. -/
def Arch.physBaseRaw : Arch → Nat
  | riscv64 => 0x80200000
  | x8664 => 0x00200000

/-- Start of the kernel image window. -/
def Arch.kernelElfBase : Arch → Addr
  | riscv64 => pptrTop + 0x80200000 % 2 ^ 30
  | x8664 => pptrTop + 0x00200000

/-- The physical address behind a kernel address. -/
def Arch.kvaToPa (arch : Arch) (kva : Addr) : Nat :=
  if arch.kernelElfBase ≤ kva then kva - arch.kernelElfBase + arch.physBaseRaw
  else kva - pptrBase

/-- The physical address of a page table, if its address lies in one of the two windows. -/
def Arch.pageTablePaddr (arch : Arch) (kva : Addr) : Option Nat :=
  if pptrBase ≤ kva ∧ kva < pptrTop then some (kva - pptrBase)
  else if arch.kernelElfBase ≤ kva then some (kva - arch.kernelElfBase + arch.physBaseRaw)
  else none

/-- The kernel address through which a walk reaches the next table. -/
def paddrToPptr (pa : Nat) : Addr := pa + pptrBase

/-- The level of a root table; level zero holds four-kilobyte pages. -/
def Arch.rootLevel : Arch → Nat
  | riscv64 => 2
  | x8664 => 3

/-- First address above user space. -/
def Arch.userTop : Arch → Nat
  | riscv64 => 2 ^ 38
  | x8664 => 2 ^ 47

/-- Bytes an entry of a level covers, as a power of two. -/
def coverageBits (level : Nat) : Nat := 12 + 9 * level

/-- The entry of a table that translates an address. -/
def ptIndex (vaddr level : Nat) : Nat := vaddr / 2 ^ coverageBits level % 2 ^ 9

namespace Pte

/-- An entry is a leaf by its permission bits on RISC-V, by its size bit on x86-64. -/
def isLeaf (arch : Arch) (e : Pte) : Bool :=
  match arch with
  | .riscv64 => e.valid && (e.read || e.write || e.exec)
  | .x8664 => e.valid && e.pageSize

/-- An entry that points at the next table. -/
def nextTable (arch : Arch) (pa : Nat) : Pte :=
  match arch with
  | .riscv64 => { pa := pa - pa % 2 ^ 12, valid := true }
  | .x8664 => { pa := pa - pa % 2 ^ 12, valid := true, write := true, user := true }

/-- The permission bits of a frame's entry, before the defaults are added. -/
def userFrameFlags (arch : Arch) (read write exec : Bool) : Pte :=
  match arch with
  | .riscv64 => { valid := true, user := true, accessed := true, dirty := true, read, write, exec }
  | .x8664 =>
    match read, write, exec with
    | true, true, true =>
      { valid := true, write := true, user := true, accessed := true, dirty := true }
    | true, true, false =>
      { valid := true, write := true, user := true, noExecute := true, accessed := true,
        dirty := true }
    | true, false, true => { valid := true, user := true, accessed := true, dirty := true }
    | _, _, _ => {}

/-- A frame's entry: the flags with the default bits, over the frame's address. -/
def frameLeaf (arch : Arch) (pa bits : Nat) (flags : Pte) : Pte :=
  { flags with
    pa := pa - pa % 2 ^ 12, valid := true, user := true, accessed := true, dirty := true,
    pageSize := flags.pageSize || (arch == .x8664 && decide (12 < bits)), viaPageMap := true }

end Pte

/-- Where a walk stopped: a table, an index into it, and the bits the entry covers. -/
structure PtSlot where
  table : Nat
  index : Nat
  bitsLeft : Nat

namespace Vm

variable (arch : Arch) (vm : Vm)

/-- Walk down from a table of some level until an entry that is not a table pointer. -/
def walk (vaddr : Nat) : Nat → Nat → PtSlot
  | 0, table => { table, index := ptIndex vaddr 0, bitsLeft := coverageBits 0 }
  | level + 1, table =>
    let entry := vm.tables table (ptIndex vaddr (level + 1))
    if !entry.valid || entry.isLeaf arch then
      { table, index := ptIndex vaddr (level + 1), bitsLeft := coverageBits (level + 1) }
    else walk vaddr level entry.pa

/-- Write one entry. -/
def setEntry (slot : PtSlot) (entry : Pte) : Vm :=
  { vm with
    tables := Function.update vm.tables slot.table
      (Function.update (vm.tables slot.table) slot.index entry) }

/-- Read one entry. -/
def entry (slot : PtSlot) : Pte := vm.tables slot.table slot.index

/-- Clear every entry of a table. -/
def clearTable (table : Nat) : Vm :=
  { vm with tables := Function.update vm.tables table fun _ => {} }

/-- The slot a user address ends in, below a root table given by its kernel address. -/
def lookupPtSlotUser (root : Addr) (vaddr : Nat) : Option PtSlot :=
  if root = 0 ∨ arch.userTop ≤ vaddr then none
  else some (vm.walk arch vaddr arch.rootLevel (arch.kvaToPa root))

end Vm

/-- Why a mapping was refused. -/
inductive UserMapError
  | invalidArgument
  | failedLookup (bitsLeft : Nat)
  | deleteFirst
deriving DecidableEq

/-- Whether an address is aligned for a size and the range ends below the top of user space. -/
def userRangeAligned (arch : Arch) (vaddr bits : Nat) : Bool :=
  vaddr % 2 ^ bits = 0 ∧ vaddr + 2 ^ bits ≤ arch.userTop

/-- An entry worked out but not installed yet. -/
structure PreparedUserFrameMap where
  slot : PtSlot
  pte : Pte

/-- Work out the entry a frame mapping would install. -/
def prepareUserFrameMapAt (arch : Arch) (vm : Vm) (root : Addr) (vaddr paddr : Nat)
    (size : FrameSize) (flags : Pte) (replaceExistingLeaf : Bool) :
    Except UserMapError PreparedUserFrameMap :=
  let bits := size.bits
  if !userRangeAligned arch vaddr bits ∨ paddr % 2 ^ bits ≠ 0 then .error .invalidArgument
  else match vm.lookupPtSlotUser arch root vaddr with
    | none => .error .invalidArgument
    | some slot =>
      if slot.bitsLeft ≠ bits then .error (.failedLookup slot.bitsLeft)
      else
        let entry := vm.entry slot
        -- On x86-64 an entry of the last level is a leaf whatever its size bit says.
        let existingLeaf := (arch == .x8664 && bits == 12) || entry.isLeaf arch
        if entry.valid ∧ (!existingLeaf ∨ !replaceExistingLeaf) then .error .deleteFirst
        else .ok { slot, pte := .frameLeaf arch paddr bits flags }

/-- Install a prepared entry. -/
def commitUserFrameMap (vm : Vm) (prepared : PreparedUserFrameMap) : Vm :=
  vm.setEntry prepared.slot prepared.pte

/-- A table link worked out but not installed yet. -/
structure PreparedUserPageTableMap where
  slot : PtSlot
  pte : Pte
  mappedAddr : Nat

/-- Round an address down to a power of two. -/
def alignDown (v bits : Nat) : Nat := v - v % 2 ^ bits

/-- Round an address up to a power of two. -/
def alignUp (v bits : Nat) : Nat := alignDown (v + (2 ^ bits - 1)) bits

/--
Work out where a page table would be linked.

An expected coverage of zero accepts any level; x86-64 first rounds the address down to it.
-/
def prepareUserPageTableMap (arch : Arch) (vm : Vm) (root : Addr) (vaddr : Nat) (pt : Addr)
    (expectedCoverage : Nat) : Except UserMapError PreparedUserPageTableMap :=
  if root = 0 ∨ pt = 0 ∨ arch.userTop ≤ vaddr then .error .invalidArgument
  else
    let aligned :=
      if arch = .x8664 ∧ expectedCoverage ≠ 0 then alignDown vaddr expectedCoverage else vaddr
    if arch = .x8664 ∧ expectedCoverage ≠ 0 ∧ !userRangeAligned arch aligned expectedCoverage then
      .error .invalidArgument
    else match arch.pageTablePaddr pt, vm.lookupPtSlotUser arch root aligned with
      | some pa, some slot =>
        if expectedCoverage ≠ 0 ∧ slot.bitsLeft ≠ expectedCoverage then
          .error (.failedLookup slot.bitsLeft)
        else if expectedCoverage = 0 ∧ slot.bitsLeft = 12 then .error .deleteFirst
        else if (vm.entry slot).valid then .error .deleteFirst
        else
          .ok { slot, pte := .nextTable arch pa, mappedAddr := alignDown aligned slot.bitsLeft }
      | _, _ => .error .invalidArgument

/-- Link a prepared table. -/
def commitUserPageTableMap (vm : Vm) (prepared : PreparedUserPageTableMap) : Vm :=
  vm.setEntry prepared.slot prepared.pte

/-- Follow table pointers down and clear the one that points at the target. -/
def unlinkTable (arch : Arch) (vm : Vm) (vaddr : Nat) (target : Addr) : Nat → Nat → Vm
  | 0, _ => vm
  | level + 1, table =>
    let slot : PtSlot :=
      { table, index := ptIndex vaddr (level + 1), bitsLeft := coverageBits (level + 1) }
    let entry := vm.entry slot
    if !entry.valid || entry.isLeaf arch then vm
    else if paddrToPptr entry.pa = target then vm.setEntry slot {}
    else unlinkTable arch vm vaddr target level entry.pa

/-- Unlink a page table from its address space. -/
def unmapUserPageTable (arch : Arch) (vm : Vm) (root : Addr) (vaddr : Nat) (target : Addr) : Vm :=
  if root = 0 ∨ target = 0 ∨ root = target ∨ arch.userTop ≤ vaddr then vm
  else unlinkTable arch vm vaddr target arch.rootLevel (arch.kvaToPa root)

/-- Clear a frame's entry, if the walk ends at a leaf of its size over its address. -/
def unmapUserFrame (arch : Arch) (vm : Vm) (root : Addr) (vaddr : Nat) (size : FrameSize)
    (expectedPa : Nat) : Vm :=
  let bits := size.bits
  if root = 0 ∨ !userRangeAligned arch vaddr bits then vm
  else match vm.lookupPtSlotUser arch root vaddr with
    | none => vm
    | some slot =>
      let entry := vm.entry slot
      let isMapping :=
        entry.valid && ((arch == .x8664 && bits == 12) || entry.isLeaf arch)
      if slot.bitsLeft ≠ bits ∨ !isMapping ∨ entry.pa ≠ expectedPa then vm
      else vm.setEntry slot {}

/-- Pages of the boot pool. -/
def bootPtPoolPages : Nat := 1024

/-- The kernel window of a root table; x86-64 takes a page of the boot pool for it. -/
def copyKernelMappingsTo (root : Addr) : Kern Unit := do
  let s ← get
  let table := s.env.arch.kvaToPa root
  let window : Pte := { valid := true, read := true, write := true, global := true }
  match s.env.arch with
  | .riscv64 =>
    let kernel := { window with pa := 0x80000000, exec := true, accessed := true, dirty := true }
    let image : PtSlot := { table, index := 510, bitsLeft := coverageBits 2 }
    let addPspace (vm : Vm) (i : Nat) : Vm :=
      vm.setEntry { table, index := 256 + i, bitsLeft := coverageBits 2 }
        { window with pa := i * 2 ^ 30, accessed := true, dirty := true }
    set { s with vm := (List.range 8).foldl addPspace (s.vm.setEntry image kernel) }
  | .x8664 =>
    let top : PtSlot := { table, index := 511, bitsLeft := coverageBits 3 }
    if (s.vm.entry top).valid then pure ()
    else if bootPtPoolPages ≤ s.vm.bootTables then crash "boot PT pool exhausted"
    else
      let page := s.env.arch.kvaToPa (s.env.bootPtPool + 2 ^ 12 * s.vm.bootTables)
      let vm := s.vm.setEntry top (.nextTable .x8664 page)
      set { s with vm := { vm with bootTables := vm.bootTables + 1 } }

end Rel4
