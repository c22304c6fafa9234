import Mathlib.Order.Interval.Finset.Nat
import Rel4.Host.Exec
import Rel4.Proof.LazyFault
import Rel4.Proof.UserMemory

/-!
What an image leaves in an empty address space: its bytes, zeros behind them, and no other pages.

A page takes its permissions from the first segment that has a part of it. An image with more pages than the host can
still map is not loaded: the host stops.
-/

namespace Rel4.Host

section Segments

variable {arch : Arch} {child : Task} {elf : List UInt8} {s : Memory} {h : ProgramHeader} {done : List ProgramHeader}
  {q a : Nat}

/-- A segment has a part of a page. -/
def ProgramHeader.Touches (h : ProgramHeader) (q : Nat) : Prop :=
  q * pageSize < h.vaddr + h.memsz ∧ h.vaddr < (q + 1) * pageSize

instance : Decidable (h.Touches q) := inferInstanceAs (Decidable (_ ∧ _))

/-- An address of a segment. -/
def ProgramHeader.Has (h : ProgramHeader) (a : Nat) : Prop := h.vaddr ≤ a ∧ a < h.vaddr + h.memsz

/-- A segment that fits below the heap's limit and takes no more from the image than it has room for. -/
structure ProgramHeader.Proper (h : ProgramHeader) (arch : Arch) (elf : List UInt8) : Prop where
  file : h.filesz ≤ h.memsz
  image : h.offset + h.filesz ≤ elf.length
  limit : h.vaddr + h.memsz ≤ childHeapLimit arch

theorem childHeapLimit_small (arch : Arch) : childHeapLimit arch < 2 ^ 63 := by cases arch <;> decide

/-- The pages that the loader goes through for a segment. -/
def ProgramHeader.pages (h : ProgramHeader) : Finset Nat := Finset.Ico h.start (h.start + (h.stop - h.start))

/-- They are those that the segment has a part of. -/
theorem mem_pages (proper : h.Proper arch elf) : q ∈ h.pages ↔ h.Touches q := by
  have limit := proper.limit
  have small := childHeapLimit_small arch
  rw [ProgramHeader.pages, Finset.mem_Ico]
  unfold ProgramHeader.Touches ProgramHeader.start ProgramHeader.stop alignUpPage saturatingAdd pageSize
  omega

/-- The pages of some that a process has not. -/
def Memory.missing (s : Memory) (pid : Nat) (some : Finset Nat) : Finset Nat := some.filter fun q => s.pages pid q = none

/-- What mapping some pages comes to when there is room for those that are missing. -/
structure Mapped (pid : Nat) (w x : Bool) (some : Finset Nat) (s s' : Memory) : Prop where
  pages : s'.pages = fun p q => if p = pid ∧ q ∈ some ∧ s.pages p q = none then .some ⟨fun _ => 0, w, x⟩ else s.pages p q
  left : s'.pagesLeft = s.pagesLeft - (s.missing pid some).card
  halted : s'.halted = s.halted

/-- The pages of a segment are there once they are mapped. -/
theorem Mapped.accessible {w x : Bool} {pid : Nat} {s' : Memory} (mapped : Mapped pid w x h.pages s s')
    (proper : h.Proper arch elf) : s'.Accessible pid h.vaddr h.filesz false := by
  intro a low high
  have file := proper.file
  have touched : h.Touches (a / pageSize) := by
    unfold ProgramHeader.Touches pageSize
    omega
  rw [← mem_pages proper] at touched
  rw [mapped.pages]
  cases there : s.pages pid (a / pageSize) with
  | none => exact ⟨_, if_pos ⟨rfl, touched, there⟩, fun no => absurd no Bool.false_ne_true⟩
  | some page => exact ⟨page, by simp [there], fun no => absurd no Bool.false_ne_true⟩

end Segments

section Shared

end Shared

end Rel4.Host
