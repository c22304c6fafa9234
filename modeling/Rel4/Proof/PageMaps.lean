import Rel4.Proof.FrameEntry
import Rel4.Proof.Translate

/-! What mapping a frame or a page table does to the translations of an address space. -/

namespace Rel4

open Lib Vm

variable {arch : Arch} {vm : Vm} {root : Addr} {vaddr paddr va : Nat} {size : FrameSize}
  {flags : Pte} {replace : Bool} {s : KState}

/-- The message register a mapping request takes its address from. -/
def KState.requestedAddress (s : KState) (uc : Addr) : Nat :=
  (s.threads.tcbs uc).context.mr s.env.arch 0

section Frames

/-- A prepared mapping is of an aligned range below the top of user space. -/
theorem prepareUserFrameMapAt_aligned {prepared : PreparedUserFrameMap}
    (accepted : prepareUserFrameMapAt arch vm root vaddr paddr size flags replace = .ok prepared) :
    vaddr % 2 ^ size.bits = 0 ∧ vaddr + 2 ^ size.bits ≤ arch.userTop ∧
      paddr % 2 ^ size.bits = 0 := by
  simp only [prepareUserFrameMapAt, userRangeAligned] at accepted
  grind

/-- A walk for a user address ends in a table that the hardware consults. -/
theorem lookupPtSlotUser_consults {slot : PtSlot}
    (found : vm.lookupPtSlotUser arch root vaddr = some slot) :
    vaddr < arch.userTop ∧ ∃ l, slot.bitsLeft = coverageBits l ∧ slot.index = ptIndex vaddr l ∧
      Consults arch vm vaddr arch.rootLevel (arch.kvaToPa root) l slot.table := by
  unfold lookupPtSlotUser at found
  split at found
  · cases found
  · rename_i user
    cases found
    exact ⟨by omega, walk_consults vaddr arch.rootLevel (arch.kvaToPa root)⟩

/-- A frame that may be read gets a leaf on RISC-V. -/
theorem frameLeaf_decode (size : FrameSize) (write exec : Bool) (level : Nat) (aligned : paddr % 2 ^ 12 = 0) :
    (Pte.frameLeaf .riscv64 paddr size.bits (.userFrameFlags .riscv64 true write exec)).decode
      .riscv64 level = .leaf paddr := by
  -- The entry keeps only whole pages, which is all there is.
  have whole : paddr - paddr % 2 ^ 12 = paddr := by omega
  rw [Pte.frameLeaf, whole]
  rfl

theorem FrameSize.mod_page (size : FrameSize) (aligned : paddr % 2 ^ size.bits = 0) :
    paddr % 2 ^ 12 = 0 := by
  apply Nat.mod_eq_zero_of_dvd
  refine Nat.dvd_trans (Nat.pow_dvd_pow 2 ?_) (Nat.dvd_of_mod_eq_zero aligned)
  cases size <;> decide

/-- A committed mapping translates the range of the frame to it, and nothing else anew. -/
theorem commitUserFrameMap_translate {prepared : PreparedUserFrameMap} {write exec : Bool}
    (tree : NoSharing .riscv64 vm (Arch.riscv64.kvaToPa root))
    (accepted : prepareUserFrameMapAt .riscv64 vm root vaddr paddr size
      (.userFrameFlags .riscv64 true write exec) replace = .ok prepared)
    (user : va < Arch.riscv64.userTop) :
    (commitUserFrameMap vm prepared).translate .riscv64 va 2 (Arch.riscv64.kvaToPa root) =
      if vaddr ≤ va ∧ va < vaddr + 2 ^ size.bits then some (paddr + (va - vaddr))
      else vm.translate .riscv64 va 2 (Arch.riscv64.kvaToPa root) := by
  -- The walk stopped at the level whose entries cover exactly a frame of this size.
  obtain ⟨found, fits, entry⟩ := prepareUserFrameMapAt_ok accepted
  obtain ⟨range, -, frame⟩ := prepareUserFrameMapAt_aligned accepted
  obtain ⟨user', l, bits, index, path⟩ := lookupPtSlotUser_consults found
  rw [fits] at bits
  have leaf := frameLeaf_decode size write exec l (size.mod_page frame)
  -- So the leaf translates the block of the entry, which is the range of the frame.
  have written := translate_setEntry_leaf tree user' user path index leaf
  rw [← entry] at written
  refine written.trans ?_
  rw [← bits]
  simp only [div_eq_iff_in_block range]
  refine ite_congr rfl (fun inside => ?_) fun _ => rfl
  -- The offset in the block is the distance from its start.
  have offset : va % 2 ^ size.bits = va - vaddr := by
    obtain ⟨more, rfl⟩ := Nat.exists_eq_add_of_le inside.1
    rw [Nat.add_mod, range, Nat.zero_add, Nat.mod_mod, Nat.add_sub_cancel_left]
    exact Nat.mod_eq_of_lt (by omega)
  rw [leafAddress, ← bits, if_pos frame, offset]

/-- A successful mapping of a frame that may be read. -/
theorem returns_pageMap {thread uc : Addr} {slot : Slot} {base : Addr} {rights : VmRights}
    {dev : Bool} {addr asid asid' : Nat} {length : Word} (riscv : s.env.arch = .riscv64)
    (found : lookupVspace thread s = .ok (root, asid) s)
    (tree : NoSharing .riscv64 s.vm (Arch.riscv64.kvaToPa root))
    (readable : (maskFrameVmRights rights (s.requestedRights uc)).allowRead = true) :
    Returns (pageMap thread uc slot (.frame base size rights dev addr asid') length)
      (fun _ s' => ∀ va, va < Arch.riscv64.userTop →
        s'.vm.translate .riscv64 va 2 (Arch.riscv64.kvaToPa root) =
          if s.requestedAddress uc ≤ va ∧ va < s.requestedAddress uc + 2 ^ size.bits then
            some (Arch.riscv64.kvaToPa base + (va - s.requestedAddress uc))
          else s.vm.translate .riscv64 va 2 (Arch.riscv64.kvaToPa root)) s := by
  simp only [Returns, pageMap, wp_bind, wp_ite, wp_raise, implies_true, true_and]
  intro
  refine (requireExtraCaps_readOnly uc 1).wp_of (fun _ _ => ?_) fun _ _ => trivial
  simp only [wp_getMr]
  refine (lookupVspace_readOnly thread).wp_of (fun vspace here => ?_) fun _ _ => trivial
  rw [found] at here
  cases here
  simp only [wp_get, Bool.not_eq_true', Bool.not_eq_false]
  intro same
  obtain ⟨rights', addr', asid', held⟩ := sameObjectAs_frame same
  rw [held]
  simp only [wp_bind, wp_ite, wp_raise, implies_true, true_and]
  intro _ _
  split
  · exact wp_mono (userMapErrorReply_vm uc _ s) (fun _ _ h => h) fun _ _ _ => trivial
  · rename_i prepared accepted
    simp only [wp_bind, wp_modify]
    intro va user
    -- The two updates of the capability come first and leave the tables alone.
    change prepareUserFrameMapAt s.env.arch s.vm root (s.requestedAddress uc) _ size
      (.userFrameFlags s.env.arch (maskFrameVmRights rights (s.requestedRights uc)).allowRead _ _)
      _ = _ at accepted
    rw [readable, riscv] at accepted
    exact commitUserFrameMap_translate tree accepted user

end Frames

section Tables

/-- The table behind a kernel address has no valid entry. -/
def Vm.EmptyTable (arch : Arch) (vm : Vm) (base : Addr) : Prop :=
  ∀ i, i < 2 ^ 9 → (vm.tables (arch.kvaToPa base) i).valid = false

/-- A prepared link points at the table, from an entry that is not valid. -/
theorem prepareUserPageTableMap_ok {base : Addr} {coverage : Nat}
    {prepared : PreparedUserPageTableMap}
    (accepted : prepareUserPageTableMap arch vm root vaddr base coverage = .ok prepared) :
    (vm.entry prepared.slot).valid = false ∧
      ∃ pa, arch.pageTablePaddr base = some pa ∧ prepared.pte = .nextTable arch pa := by
  simp only [prepareUserPageTableMap] at accepted
  grind

/-- Both ways to the physical address of a table agree where the stricter one answers. -/
theorem pageTablePaddr_eq {base : Addr} {pa : Nat} (inside : arch.pageTablePaddr base = some pa) :
    pa = arch.kvaToPa base := by
  -- The image window starts above the physical one, so no address is in both.
  have above : pptrTop ≤ arch.kernelElfBase := by cases arch <;> decide
  unfold Arch.pageTablePaddr at inside
  unfold Arch.kvaToPa
  split at inside
  · rename_i window
    rw [if_neg (Nat.not_le.mpr (Nat.lt_of_lt_of_le window.2 above))]
    exact (Option.some.inj inside).symm
  · split at inside
    · rename_i image
      rw [if_pos image]
      exact (Option.some.inj inside).symm
    · cases inside

/-- The windows of physical memory are aligned to pages. -/
theorem kvaToPa_aligned {base : Nat} (aligned : base % 2 ^ 12 = 0) :
    Arch.riscv64.kvaToPa base % 2 ^ 12 = 0 := by
  have window : 2 ^ 12 ∣ pptrBase := by decide
  have image : 2 ^ 12 ∣ Arch.riscv64.kernelElfBase := by decide
  have memory : 2 ^ 12 ∣ Arch.riscv64.physBaseRaw := by decide
  apply Nat.mod_eq_zero_of_dvd
  unfold Arch.kvaToPa
  split
  · exact Nat.dvd_add (Nat.dvd_sub (Nat.dvd_of_mod_eq_zero aligned) image) memory
  · exact Nat.dvd_sub (Nat.dvd_of_mod_eq_zero aligned) window

/-- Two page-table capabilities for one object name the same table. -/
theorem sameObjectAs_pageTable {cap : Cap} {base : Addr} {mapped : Bool} {addr asid : Nat}
    (same : cap.sameObjectAs (.pageTable base mapped addr asid)) :
    ∃ mapped' addr' asid', cap = .pageTable base mapped' addr' asid' := by
  cases cap <;> simp_all [Cap.sameObjectAs]

theorem nextTable_decode {pa : Nat} (aligned : pa % 2 ^ 12 = 0) (level : Nat) :
    (Pte.nextTable .riscv64 pa).decode .riscv64 level = .table pa := by
  have whole : pa - pa % 2 ^ 12 = pa := by omega
  rw [Pte.nextTable, whole]
  rfl

/-- A successful linking of an empty table. -/
theorem returns_pageTableMap {thread uc : Addr} {slot : Slot} {base : Addr} {mapped : Bool}
    {addr asid : Nat} {coverage : Nat} {length : Word} (riscv : s.env.arch = .riscv64)
    (aligned : base % 2 ^ 12 = 0) (empty : s.vm.EmptyTable .riscv64 base) :
    Returns (pageTableMap thread uc slot (.pageTable base mapped addr asid) coverage length)
      (fun _ s' => ∀ va level table,
        s'.vm.translate .riscv64 va level table = s.vm.translate .riscv64 va level table) s := by
  simp only [Returns, pageTableMap, wp_bind, wp_ite, wp_raise, implies_true, true_and]
  intro
  refine (requireExtraCaps_readOnly uc 1).wp_of (fun _ _ => ?_) fun _ _ => trivial
  split
  · trivial
  simp only [wp_bind, wp_getMr]
  refine (lookupVspace_readOnly thread).wp_of (fun vspace _ => ?_) fun _ _ => trivial
  simp only [wp_bind, wp_get, wp_ite, wp_raise, implies_true, true_and, Bool.not_eq_true',
    Bool.not_eq_false]
  intro same
  obtain ⟨mapped', addr', asid', held⟩ := sameObjectAs_pageTable same
  rw [held]
  simp only [wp_bind, wp_ite, wp_raise, implies_true, true_and]
  intro _
  split
  · exact wp_mono (userMapErrorReply_vm uc _ s) (fun _ _ h => h) fun _ _ _ => trivial
  · rename_i prepared accepted
    simp only [wp_bind, wp_modify]
    intro va level table
    rw [riscv] at accepted
    -- The entry was not valid before, and the table it now points at has no valid entry.
    obtain ⟨free, pa, inside, entry⟩ := prepareUserPageTableMap_ok accepted
    obtain rfl := pageTablePaddr_eq inside
    refine translate_setEntry_link (fun l => ?_) empty free
    rw [entry]
    exact nextTable_decode (kvaToPa_aligned aligned) l

end Tables

/--
What the mapping calls do to the translations below a registered root that is a tree.

A frame that may be read is translated over its whole range, and every other user address as before.
An empty page table changes no translation, below this root or any other table.
-/
theorem mapping_calls_translate (thread uc : Addr) (slot : Slot) (label length : Word) {asid : Nat}
    (riscv : s.env.arch = .riscv64) (found : lookupVspace thread s = .ok (root, asid) s)
    (tree : NoSharing .riscv64 s.vm (Arch.riscv64.kvaToPa root)) :
    (∀ base size rights dev addr asid', ArchInvocation.ofRaw .riscv64 label = some .pageMap →
      (maskFrameVmRights rights (s.requestedRights uc)).allowRead = true →
      Returns (handleFrame thread uc slot (.frame base size rights dev addr asid') label length)
        (fun _ s' => ∀ va, va < Arch.riscv64.userTop →
          s'.vm.translate .riscv64 va 2 (Arch.riscv64.kvaToPa root) =
            if s.requestedAddress uc ≤ va ∧ va < s.requestedAddress uc + 2 ^ size.bits then
              some (Arch.riscv64.kvaToPa base + (va - s.requestedAddress uc))
            else s.vm.translate .riscv64 va 2 (Arch.riscv64.kvaToPa root)) s) ∧
      (∀ coverage base mapped addr asid',
        ArchInvocation.ofRaw .riscv64 label = some (.pageTableMap coverage) →
        base % 2 ^ 12 = 0 → s.vm.EmptyTable .riscv64 base →
        Returns (handlePageTable thread uc slot (.pageTable base mapped addr asid') label length)
          (fun _ s' => ∀ va level table, s'.vm.translate .riscv64 va level table =
            s.vm.translate .riscv64 va level table) s) := by
  constructor
  · -- The label picks the mapping of a frame.
    intro base size rights dev addr asid' call readable
    simp only [Returns, handleFrame, wp_bind, wp_archLabelOf, riscv, call]
    exact returns_pageMap riscv found tree readable
  · -- The label picks the linking of a table.
    intro coverage base mapped addr asid' call aligned empty
    simp only [Returns, handlePageTable, wp_bind, wp_archLabelOf, riscv, call]
    exact returns_pageTableMap riscv aligned empty

/--
A thread that may map a one-gigabyte frame for reading, or link a page table, at one gigabyte.

The root table has no entries yet.
-/
def mappingRequest : KState :=
  let s := rightlessMapping .riscv64
  let context : UserContext :=
    ((({} : UserContext).setMsgInfo .riscv64 (2 ^ 7 + 3)).setMr .riscv64 0 (2 ^ 30)).setMr .riscv64 1 2
  let table : Cap := .pageTable (pptrBase + 0x7000) false 0 0
  { s with
    caps := { s.caps with ctes := Function.update s.caps.ctes 0x40000 { cap := table } }
    threads := { s.threads with tcbs := fun _ => { context, ipcBuffer := some 0x30000 } } }

theorem mappingRequest_tree : NoSharing .riscv64 mappingRequest.vm 0x5000 := by
  -- No entry is valid, so every walk looks at the root alone.
  have root : ∀ va l t, Consults .riscv64 mappingRequest.vm va 2 0x5000 l t → l = 2 ∧ t = 0x5000 := by
    intro va l t path
    cases path with
    | start => exact ⟨rfl, rfl⟩
    | next above link => cases link
  intro va va' l l' t user user' path path'
  obtain ⟨rfl, -⟩ := root va l t path
  obtain ⟨rfl, -⟩ := root va' l' t path'
  refine ⟨rfl, ?_⟩
  -- User addresses agree above what the root covers: there is nothing there.
  have small : Arch.riscv64.userTop < 2 ^ coverageBits 3 := by decide
  rw [Nat.div_eq_of_lt (Nat.lt_trans user small), Nat.div_eq_of_lt (Nat.lt_trans user' small)]

theorem mappingRequest_found :
    lookupVspace 0x10000 mappingRequest = .ok (pptrBase + 0x5000, 1) mappingRequest := by
  have found : (lookupVspace 0x10000).run' mappingRequest = some (pptrBase + 0x5000, 1) := by
    decide +kernel
  obtain ⟨s', run⟩ := ok_of_run' found
  -- The lookup is read only, so the state it returns is the one it started from.
  have unchanged := lookupVspace_readOnly 0x10000 mappingRequest
  rw [wp, run] at unchanged
  rw [run, unchanged]

theorem mappingRequest_unmapped (va : Nat) : mappingRequest.vm.translate .riscv64 va 2 0x5000 = none :=
  translate_of_fault rfl

/-- Both calls succeed there. -/
theorem mappingRequest_translates :
    (∃ s', handleFrame 0x10000 0x10000 0x20000 (mappingRequest.cap 0x20000) 35 3 mappingRequest
        = .ok () s' ∧ ∀ va, va < 2 ^ 38 → s'.vm.translate .riscv64 va 2 0x5000 =
          if 2 ^ 30 ≤ va ∧ va < 2 ^ 30 + 2 ^ 30 then some (2 ^ 30 + (va - 2 ^ 30)) else none) ∧
      ∃ s', handlePageTable 0x10000 0x10000 0x40000 (mappingRequest.cap 0x40000) 33 3 mappingRequest
        = .ok () s' ∧ ∀ va, s'.vm.translate .riscv64 va 2 0x5000 = none := by
  constructor
  · obtain ⟨s', run⟩ := ok_of_run'
      (show (handleFrame 0x10000 0x10000 0x20000 (mappingRequest.cap 0x20000) 35 3).run' mappingRequest
        = some () by decide +kernel)
    refine ⟨s', run, fun va user => ?_⟩
    have mapped := (mapping_calls_translate 0x10000 0x10000 0x20000 35 3 rfl mappingRequest_found
      mappingRequest_tree).1 (pptrBase + 2 ^ 30) .gigapage .readWrite false 0 0 (by decide) (by decide)
    rw [← mappingRequest_unmapped va]
    exact ok_of_wp mapped run va user
  · obtain ⟨s', run⟩ := ok_of_run'
      (show (handlePageTable 0x10000 0x10000 0x40000 (mappingRequest.cap 0x40000) 33 3).run'
        mappingRequest = some () by decide +kernel)
    refine ⟨s', run, fun va => ?_⟩
    have linked := (mapping_calls_translate 0x10000 0x10000 0x40000 33 3 rfl mappingRequest_found
      mappingRequest_tree).2 0 (pptrBase + 0x7000) false 0 0 (by decide) (by decide) fun _ _ => rfl
    rw [← mappingRequest_unmapped va]
    exact ok_of_wp linked run va 2 0x5000

end Rel4
