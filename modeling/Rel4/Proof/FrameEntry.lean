import Rel4.Proof.Rules

/-! What user code may do through the entry that mapping a frame installs. -/

namespace Rel4

open Lib

namespace Pte

variable (arch : Arch) (e : Pte)

/-- Whether user code can read through an entry; on x86-64 every present user entry is readable. -/
def userRead : Bool := e.valid && e.user && (arch == .x8664 || e.read)

/-- Whether user code can write through an entry. -/
def userWrite : Bool := e.valid && e.user && e.write

/-- Whether user code can execute through an entry. -/
def userExec : Bool :=
  e.valid && e.user &&
    match arch with
    | .riscv64 => e.exec
    | .x8664 => !e.noExecute

/-- Whether a walk ends at an entry; on x86-64 the last level needs no size bit for that. -/
def isLeafAt (bits : Nat) : Bool := e.isLeaf arch || (arch == .x8664 && bits == 12 && e.valid)

/-- An entry that maps a page of this size and allows user code no more than it should. -/
@[mk_iff]
structure Faithful (bits : Nat) (rights : VmRights) (execNever : Bool) : Prop where
  leaf : e.isLeafAt arch bits
  read : e.userRead arch → rights.allowRead
  write : e.userWrite → rights.allowWrite
  exec : e.userExec arch → execNever = false

end Pte

/--
The requests whose entry comes out right.

On RISC-V an entry without any permission bit is a pointer to the next table.
On x86-64 the flag table has no row for a read-only page that must not be executed, nor for a page
that may not be read.
-/
def entryExpressible (arch : Arch) (rights : VmRights) (execNever : Bool) : Bool :=
  match arch with
  | .riscv64 => rights.allowRead || !execNever
  | .x8664 => rights.allowWrite || (rights.allowRead && !execNever)

/-- The entry made for a frame is right exactly if the request is one the flags can express. -/
theorem frameLeaf_faithful_iff (arch : Arch) (pa : Nat) (size : FrameSize) (rights : VmRights)
    (execNever : Bool) :
    (Pte.frameLeaf arch pa size.bits
        (.userFrameFlags arch rights.allowRead rights.allowWrite (!execNever))).Faithful
          arch size.bits rights execNever ↔
      entryExpressible arch rights execNever := by
  rw [Pte.faithful_iff]
  cases arch <;> cases rights <;> cases execNever <;> cases size <;>
    simp [entryExpressible, Pte.isLeafAt, Pte.isLeaf, Pte.frameLeaf, Pte.userFrameFlags,
      Pte.userRead, Pte.userWrite, Pte.userExec, VmRights.allowRead, VmRights.allowWrite,
      FrameSize.bits]

/-- A refused mapping answers in registers and in the buffer, and leaves address spaces alone. -/
theorem userMapErrorReply_vm {α : Type} (uc : Addr) (e : UserMapError) (s : KState)
    {post : α → KState → Prop} :
    wp (userMapErrorReply uc e : Kern α) post (fun _ s' => s'.vm = s.vm) s := by
  cases e with
  | failedLookup bitsLeft =>
    simp only [userMapErrorReply, wp_bind, setMr, modifyContext, modifyTcb, modifyThreads, wp_get,
      wp_modify, writeCurrentIpcBufferWord, wp_currentIpcBuffer]
    split
    · simp only [setBufferWord, wp_modify, wp_raise]
      split <;> rfl
    · simp
  | _ => simp [userMapErrorReply]

/-- What was prepared is a frame's entry for the place where the walk stopped. -/
theorem prepareUserFrameMapAt_ok {arch : Arch} {vm : Vm} {root : Addr} {vaddr paddr : Nat}
    {size : FrameSize} {flags : Pte} {replace : Bool} {prepared : PreparedUserFrameMap}
    (accepted : prepareUserFrameMapAt arch vm root vaddr paddr size flags replace = .ok prepared) :
    vm.lookupPtSlotUser arch root vaddr = some prepared.slot ∧
      prepared.slot.bitsLeft = size.bits ∧
      prepared.pte = .frameLeaf arch paddr size.bits flags := by
  simp only [prepareUserFrameMapAt] at accepted
  grind

/-- Two frame capabilities for one object name the same memory. -/
theorem sameObjectAs_frame {cap : Cap} {base : Addr} {size : FrameSize} {rights : VmRights}
    {dev : Bool} {addr asid : Nat} (same : cap.sameObjectAs (.frame base size rights dev addr asid)) :
    ∃ rights' addr' asid', cap = .frame base size rights' dev addr' asid' := by
  cases cap <;> simp_all [Cap.sameObjectAs]

/-- The message registers a mapping request takes its rights and attributes from. -/
def KState.requestedRights (s : KState) (uc : Addr) : CapRights :=
  .ofWord ((s.threads.tcbs uc).context.mr s.env.arch 1)

/-- Whether a mapping request asks for a page that is never executed. -/
def KState.requestedExecNever (s : KState) (uc : Addr) : Bool :=
  ((s.threads.tcbs uc).context.mr s.env.arch 2).testBit 0

/--
Mapping a frame installs nothing if it fails.

If it succeeds it installs one entry, where the walk for the address ends at the frame's size, and
that entry is right exactly if the request is one the flags can express.
-/
theorem pageMap_entry_faithful_iff (thread uc : Addr) (slot : Slot) (base : Addr)
    (size : FrameSize) (rights : VmRights) (dev : Bool) (addr asid : Nat) (length : Word)
    (s : KState) :
    wp (pageMap thread uc slot (.frame base size rights dev addr asid) length)
      (fun _ s' => ∃ root place e,
        s.vm.lookupPtSlotUser s.env.arch root ((s.threads.tcbs uc).context.mr s.env.arch 0)
          = some place ∧
        place.bitsLeft = size.bits ∧ s'.vm = s.vm.setEntry place e ∧
        (e.Faithful s.env.arch size.bits (maskFrameVmRights rights (s.requestedRights uc))
            (s.requestedExecNever uc) ↔
          entryExpressible s.env.arch (maskFrameVmRights rights (s.requestedRights uc))
            (s.requestedExecNever uc)))
      (fun _ s' => s'.vm = s.vm) s := by
  simp only [pageMap, wp_bind, wp_ite, wp_raise, implies_true, true_and]
  intro
  refine (requireExtraCaps_readOnly uc 1).wp_of (fun _ _ => ?_) (fun _ _ => rfl)
  simp only [wp_getMr]
  refine (lookupVspace_readOnly thread).wp_of (fun vspace _ => ?_) (fun _ _ => rfl)
  simp only [wp_get, implies_true, true_and, Bool.not_eq_true', Bool.not_eq_false]
  intro same
  obtain ⟨rights', addr', asid', held⟩ := sameObjectAs_frame same
  rw [held]
  simp only [wp_bind, wp_ite, wp_raise, implies_true, true_and]
  intro _ _
  split
  · exact userMapErrorReply_vm uc _ s
  · rename_i prepared accepted
    obtain ⟨place, fits, entry⟩ := prepareUserFrameMapAt_ok accepted
    simp only [wp_bind, wp_modify]
    refine ⟨_, _, _, place, fits, rfl, ?_⟩
    rw [entry]
    exact frameLeaf_faithful_iff _ _ _ _ _

/--
A thread that maps a one-gigabyte frame without any right and asks for it never to be executed.

Its node holds the frame in slot zero and the root table in slot one.
-/
def rightlessMapping (arch : Arch) : KState :=
  let thread := 0x10000
  let node := 0x20000
  let root := pptrBase + 0x5000
  let slots : List (Slot × Cap) :=
    [(tcbSlot thread tcbCTableSlot, .cnode node 1 0 63),
      (slotAt node 0, .newFrame (pptrBase + 2 ^ 30) .gigapage .readWrite false),
      (slotAt node 1, .pageTable root true 0 1)]
  let context : UserContext :=
    ((({} : UserContext).setMsgInfo arch (2 ^ 7 + 3)).setMr arch 0 (2 ^ 30)).setMr arch 2 1
  { env := { arch, idleTcb := 0, irqNode := 0, bootPtPool := 0, ioapicPins := 0, fuel := 0 }
    caps := { ctes := fun slot => { cap := (slots.lookup slot).getD .null } }
    threads := { tcbs := fun _ => { context, ipcBuffer := some 0x30000 }, current := some thread }
    vm :=
      { asids := { roots := fun _ => root }
        tables := fun table index =>
          if arch = .x8664 ∧ table = 0x5000 ∧ index = 0 then .nextTable arch 0x6000 else {} }
    buffers := fun _ _ => 1 }

/-- The entry that ends up where the frame is mapped, if the mapping succeeds. -/
def rightlessEntry (arch : Arch) : Option Pte :=
  match pageMap 0x10000 0x10000 0x20000 ((rightlessMapping arch).cap 0x20000) 3
      (rightlessMapping arch) with
  | .ok _ s => some (s.vm.tables (if arch = .x8664 then 0x6000 else 0x5000) 1)
  | .error _ _ => none

/-- Asked for no access at all, RISC-V installs a table pointer and x86-64 a readable code page. -/
theorem rightlessEntry_unfaithful :
    maskFrameVmRights .readWrite ((rightlessMapping .riscv64).requestedRights 0x10000)
        = .kernelOnly ∧
      (rightlessMapping .riscv64).requestedExecNever 0x10000 = true ∧
      (rightlessEntry .riscv64).any (fun e => e.valid && !e.isLeafAt .riscv64 30) = true ∧
      maskFrameVmRights .readWrite ((rightlessMapping .x8664).requestedRights 0x10000)
        = .kernelOnly ∧
      (rightlessMapping .x8664).requestedExecNever 0x10000 = true ∧
      (rightlessEntry .x8664).any (fun e => e.userRead .x8664 && e.userExec .x8664) = true := by
  decide +kernel

end Rel4
