import Rel4.Proof.PageMaps

/-! What unmapping a page table leaves behind. -/

namespace Rel4

open Lib Vm

variable {s : KState} {slot : Slot} {base : Addr} {addr asid : Nat}

/-- A page table that its slot, the address space it was in and its own memory have let go. -/
structure KState.TableGone (s : KState) (slot : Slot) (base root : Addr) : Prop where
  unmapped : ∃ addr asid, s.cap slot = .pageTable base false addr asid
  unlinked : root ≠ 0 → ∀ va l t,
    Consults s.env.arch s.vm va s.env.arch.rootLevel (s.env.arch.kvaToPa root) l t →
      (s.vm.tables t (ptIndex va l)).decode s.env.arch l ≠ .table (s.env.arch.kvaToPa base)
  cleared : ∀ i, i < 2 ^ 9 → s.vm.tables (s.env.arch.kvaToPa base) i = {}

/-- The address spaces once a linked page table is unmapped. -/
def KState.vmWithoutTable (s : KState) (base : Addr) (addr asid : Nat) : Vm :=
  let root := s.vm.asids.lookup asid
  let vm := if root ≠ 0 then unmapUserPageTable s.env.arch s.vm root addr base else s.vm
  vm.clearTable (s.env.arch.kvaToPa base)

/-- Unmapping a linked table that is not a root: refused, or done to the address spaces alone. -/
theorem wp_pageTableUnmap_of_linked {post : Unit → KState → Prop} {fail : Abort → KState → Prop}
    (held : s.cap slot = .pageTable base true addr asid) (inner : s.vm.asids.lookup asid ≠ base) :
    wp (pageTableUnmap slot (s.cap slot)) post fail s ↔
      if s.caps.isFinalCapability slot then post () { s with vm := s.vmWithoutTable base addr asid }
      else fail (.error .revokeFirst) s := by
  -- The capability is compared with the one in the slot, which it was read from.
  have same : (s.cap slot).sameObjectAs (s.cap slot) = true := by simp [held, Cap.sameObjectAs]
  simp only [pageTableUnmap, wp_bind, wp_get, same]
  -- Only the last capability for a table may unmap it.
  cases s.caps.isFinalCapability slot with
  | false => simp
  | true => simp [held, inner, KState.vmWithoutTable]

/--
Unmapping lets a linked page table go exactly if it is refused.

Whenever it is accepted, the slot goes on saying that the table is mapped.
-/
theorem handlePageTable_unmap_iff (thread uc : Addr) (label length : Word)
    (call : ArchInvocation.ofRaw s.env.arch label = some .pageTableUnmap)
    (held : s.cap slot = .pageTable base true addr asid)
    (inner : s.vm.asids.lookup asid ≠ base) :
    Returns (handlePageTable thread uc slot (s.cap slot) label length)
        (fun _ s' => s'.TableGone slot base (s.vm.asids.lookup asid)) s ↔
      s.caps.isFinalCapability slot = false := by
  simp only [Returns, handlePageTable, wp_bind, wp_archLabelOf, call]
  -- The call writes to the address spaces alone, so the slot holds what it held.
  rw [wp_pageTableUnmap_of_linked held inner]
  cases final : s.caps.isFinalCapability slot with
  | false => simp
  | true =>
    simp only [if_true, Bool.true_eq_false, iff_false]
    intro gone
    -- A table that is gone would be held unmapped by a slot that still says mapped.
    obtain ⟨addr', asid', now⟩ := gone.unmapped
    cases held.symm.trans now

/--
A table linked below the root of an address space, at the second entry of the root.

Its capability is the only one, and says where it is linked, in the 39 bits it has for an address.
-/
def linkedTable (arch : Arch) (base : Addr) : KState :=
  let table := arch.kvaToPa base
  let held : Cap := .pageTable base true (2 ^ coverageBits arch.rootLevel % 2 ^ 39) 1
  { rightlessMapping arch with
    caps := { ctes := fun slot => if slot = 0x40000 then { cap := held } else {} }
    vm :=
      { asids := { roots := fun _ => pptrBase + 0x5000 }
        tables := fun t i => if t = 0x5000 ∧ i = 1 then .nextTable arch table else {} } }

/-- What a successful unmapping leaves in the slot of the table and in the entry that linked it. -/
def unmappedTable (arch : Arch) (base : Addr) (label : Word) : Option (Cap × Pte) :=
  let s := linkedTable arch base
  match handlePageTable 0x10000 0x10000 0x40000 (s.cap 0x40000) label 0 s with
  | .ok _ s' => some (s'.cap 0x40000, s'.vm.tables 0x5000 1)
  | .error _ _ => none

/--
Neither way to hold a table loses the mark.

The tables of the boot stay linked as well, and so does one whose address does not fit the field.
-/
theorem unmappedTable_kept :
    unmappedTable .riscv64 (pptrBase + 0x7000) 34 =
        some (.pageTable (pptrBase + 0x7000) true (2 ^ 30) 1, {}) ∧
      unmappedTable .riscv64 (Arch.riscv64.kernelElfBase + 0x7000) 34 =
        some (.pageTable (Arch.riscv64.kernelElfBase + 0x7000) true (2 ^ 30) 1,
          .nextTable .riscv64 (Arch.riscv64.physBaseRaw + 0x7000)) ∧
      unmappedTable .x8664 (pptrBase + 0x7000) 34 =
        some (.pageTable (pptrBase + 0x7000) true 0 1, .nextTable .x8664 0x7000) := by
  decide +kernel

/-- The same table with a second capability to it, next to the first. -/
def linkedTwice (arch : Arch) (base : Addr) : KState :=
  let s := linkedTable arch base
  let first : Cte := { cap := s.cap 0x40000, mdb := { next := some 0x40020 } }
  let second : Cte := { cap := s.cap 0x40000, mdb := { prev := some 0x40000 } }
  { s with
    caps :=
      { ctes := fun slot =>
          if slot = 0x40000 then first else if slot = 0x40020 then second else {} } }

/-- There the call is refused. -/
theorem linkedTwice_refused :
    (linkedTwice .riscv64 (pptrBase + 0x7000)).caps.isFinalCapability 0x40000 = false ∧
      Returns (handlePageTable 0x10000 0x10000 0x40000
          ((linkedTwice .riscv64 (pptrBase + 0x7000)).cap 0x40000) 34 0)
        (fun _ s' => s'.TableGone 0x40000 (pptrBase + 0x7000) (pptrBase + 0x5000))
        (linkedTwice .riscv64 (pptrBase + 0x7000)) :=
  have shared : (linkedTwice .riscv64 (pptrBase + 0x7000)).caps.isFinalCapability 0x40000 = false := by
    decide
  ⟨shared, (handlePageTable_unmap_iff 0x10000 0x10000 34 0 (by decide) rfl (by decide)).mpr shared⟩

end Rel4
