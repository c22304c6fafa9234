import Rel4.Host.Memory
import Rel4.Proof.FaultReply

/-!
Faults at pages of the heap, from the kernel's message to the answer of the host.

On RISC-V the message tells what was attempted; on x86-64 a general register stands in its place.
-/

namespace Rel4.Host

open Lib

/-- What a process attempts when a page fault stops it. -/
inductive Access
  | load
  | store
  | fetch
deriving DecidableEq

/-- The code of a page fault, as the processor reports it. -/
def Access.code : Arch → Access → Word
  | .riscv64, .load => 13
  | .riscv64, .store => 15
  | .riscv64, .fetch => 12
  | .x8664, _ => 14

/-- What the host makes of the page fault of a process. -/
def pageFault (arch : Arch) (s : Memory) (slotsAvailable : Nat) (child : Task) (uc : UserContext) (access : Access)
    (addr : Word) : FaultOutcome × Memory :=
  let fault := uc.faultMessage arch (access.code arch) addr
  handleLinuxFault arch s slotsAvailable child fault.1 fault.2

/-- The status word of the message is one of the two that the host takes for a load or a store. -/
def TellsData (arch : Arch) (uc : UserContext) (access : Access) : Prop :=
  match arch with
  | .riscv64 => access ≠ .fetch
  | .x8664 => uc.regs 2 = 5 ∨ uc.regs 2 = 7

/-- An address of the heap without a page. -/
def Untouched (arch : Arch) (s : Memory) (child : Task) (addr : Nat) : Prop :=
  child.heapStart ≤ addr ∧ addr < child.brk ∧ addr < childHeapLimit arch ∧ s.pages child.pid (addr / pageSize) = none

/-- More than the headroom is left, of entries and of what a frame needs. -/
def Room (s : Memory) (slotsAvailable : Nat) : Prop :=
  sbrkMappingHeadroom < s.mappingSlotsAvailable ∧ (0 < s.framePoolAvailable ∨ sbrkMappingHeadroom < slotsAvailable)

variable {arch : Arch} {s : Memory} {slots : Nat} {child : Task} {uc : UserContext} {access : Access} {addr va : Nat}

/-- How many pages the host can still map before it stops. -/
def Memory.pagesLeft (s : Memory) : Nat := min s.mappingSlotsAvailable (s.framePoolAvailable + s.freshFrames)

/-- Whatever the frame held before, a page that is mapped holds zeros. -/
theorem mapChildPage_room {w x : Bool} (absent : s.pages child.pid (va / pageSize) = none) (room : 0 < s.pagesLeft) :
    (s.mapChildPage child va w x).pages = (fun p q =>
      if p = child.pid ∧ q = va / pageSize then some ⟨fun _ => 0, w, x⟩ else s.pages p q) ∧
    (s.mapChildPage child va w x).pagesLeft = s.pagesLeft - 1 ∧ (s.mapChildPage child va w x).halted = s.halted := by
  obtain ⟨pages, count, pool, fresh, halted⟩ := s
  simp only [Memory.pagesLeft, Memory.mappingSlotsAvailable, Memory.framePoolAvailable] at absent room ⊢
  have entries : ¬ maxMappings ≤ count := by omega
  simp only [Memory.mapChildPage, absent, Memory.allocProcessFrame]
  -- A frame from the pool is cleared; one that is new was cleared by the kernel.
  cases pool with
  | cons frame rest =>
    simp only [Memory.mapExistingFrame, entries, if_false, if_true, List.length_cons, true_and, and_true]
    omega
  | nil =>
    cases fresh with
    | zero => simp at room
    | succ left =>
      simp only [Memory.mapExistingFrame, entries, if_false, Bool.false_eq_true, List.length_nil, true_and, and_true]
      omega

/-- On both instruction sets a page fault is reported as one, with its address and a status. -/
theorem faultMessage_pageFault (arch : Arch) (uc : UserContext) (access : Access) (addr : Nat) :
    ∃ status, uc.faultMessage arch (access.code arch) addr =
      (.vmFault, [uc.pc, addr, if arch = .riscv64 ∧ access = .fetch then 1 else 0, status]) ∧
    (status = 5 ∨ status = 7 ↔ TellsData arch uc access) := by
  cases arch with
  | riscv64 => cases access <;> exact ⟨_, rfl, by simp [TellsData]⟩
  | x8664 => exact ⟨uc.regs 2, by simp [UserContext.faultMessage, Access.code], Iff.rfl⟩

/-- What makes the host map a page for a fault. -/
def Resolves (arch : Arch) (s : Memory) (slots : Nat) (child : Task) (addr : Nat) (data : Prop) : Prop :=
  Untouched arch s child addr ∧ data ∧ Room s slots

theorem handleLazyPageFault_of (status : Nat) (resolves : Resolves arch s slots child addr (status = 5 ∨ status = 7)) :
    s.handleLazyPageFault arch slots child addr status = (true, s.mapLazyChildPage child addr true false) := by
  obtain ⟨⟨low, high, limit, absent⟩, data, entries, frames⟩ := resolves
  unfold Memory.handleLazyPageFault
  rw [if_neg (by omega), if_neg (by simp [Memory.isChildPageMapped, absent]), if_neg (by omega),
    if_neg (Nat.not_le.mpr entries), if_neg (by omega)]

theorem handleLazyPageFault_not (status : Nat)
    (unresolved : ¬ Resolves arch s slots child addr (status = 5 ∨ status = 7)) :
    s.handleLazyPageFault arch slots child addr status = (false, s) := by
  unfold Memory.handleLazyPageFault
  -- Every check that fails leaves the memory alone; if all of them pass, the fault is one to resolve.
  repeat' split
  all_goals first | rfl | skip
  rename_i inside unmapped data entries frames
  refine absurd ⟨⟨by omega, by omega, by omega, ?_⟩, by omega, Nat.lt_of_not_le entries, by omega⟩ unresolved
  simpa [Memory.isChildPageMapped] using unmapped

theorem pageFault_of (resolves : Resolves arch s slots child addr (TellsData arch uc access)) :
    pageFault arch s slots child uc access addr = (.resumed, s.mapLazyChildPage child addr true false) := by
  obtain ⟨status, message, data⟩ := faultMessage_pageFault arch uc access addr
  have resolves : Resolves arch s slots child addr (status = 5 ∨ status = 7) := ⟨resolves.1, data.mpr resolves.2.1, resolves.2.2⟩
  simp [pageFault, message, handleLinuxFault, vmFaultAddr, vmFaultStatus, handleLazyPageFault_of status resolves]

theorem pageFault_not (unresolved : ¬ Resolves arch s slots child addr (TellsData arch uc access)) :
    pageFault arch s slots child uc access addr = (.killed, s) := by
  obtain ⟨status, message, data⟩ := faultMessage_pageFault arch uc access addr
  have unresolved : ¬ Resolves arch s slots child addr (status = 5 ∨ status = 7) := fun resolves =>
    unresolved ⟨resolves.1, data.mp resolves.2.1, resolves.2.2⟩
  simp [pageFault, message, handleLinuxFault, vmFaultAddr, vmFaultStatus, handleLazyPageFault_not status unresolved]

/-- Room for the headroom and memory for a frame leave room for one more page. -/
theorem pagesLeft_pos (entries : sbrkMappingHeadroom < s.mappingSlotsAvailable)
    (memory : 0 < s.framePoolAvailable + s.freshFrames) : 0 < s.pagesLeft :=
  Nat.lt_min.mpr ⟨Nat.zero_lt_of_lt entries, memory⟩

/--
A page fault that is none of the heap's, or that the message does not tell for a load or a store, changes nothing and
ends the process.

With more than the headroom free and memory for a frame, a page fault is resolved just when it is a load or a store at
an address of the heap without a page, if and only if the message tells loads and stores from fetches there. What
resolves it is one page of zeros that can be written, and nothing else changes. A thread that was stopped by such a
fault goes on with the registers it had.
-/
theorem lazy_fault_resolved_iff {s : Memory} {child : Task} :
    let result := pageFault arch s slots child uc access addr
    (¬ (Untouched arch s child addr ∧ TellsData arch uc access) → result = (.killed, s)) ∧
    (result.1 = .killed → result.2 = s) ∧
    (∀ (_ : sbrkMappingHeadroom < s.mappingSlotsAvailable) (_ : sbrkMappingHeadroom < slots)
      (_memory : 0 < s.framePoolAvailable + s.freshFrames),
      ((result.1 = .resumed ↔ access ≠ .fetch ∧ Untouched arch s child addr) ↔
        (Untouched arch s child addr → (TellsData arch uc access ↔ access ≠ .fetch))) ∧
      (result.1 = .resumed → result.2.halted = s.halted ∧ result.2.pages = fun p q =>
        if p = child.pid ∧ q = addr / pageSize then some ⟨fun _ => 0, true, false⟩ else s.pages p q)) ∧
    ∀ (k : KState) (cur replier t : Addr) (canGrant : Bool), k.threads.current = some cur →
      (k.threads.tcbs t).senderIsFault = true → (k.threads.tcbs t).faultLabel = FaultLabel.vmFault.raw →
      (MessageInfo.ofWord ((k.threads.tcbs replier).context.msgInfo k.env.arch)).label = 0 →
      wp (replyToTcb replier t canGrant)
        (fun _ k' => (k'.threads.tcbs t).state = .running ∧
          (k'.threads.tcbs t).context = (k.threads.tcbs t).context) (fun _ _ => False) k := by
  intro result
  refine ⟨?_, ?_, ?_, ?_⟩
  · intro not
    exact pageFault_not fun resolves => not ⟨resolves.1, resolves.2.1⟩
  · intro killed
    by_cases resolves : Resolves arch s slots child addr (TellsData arch uc access)
    · simp [result, pageFault_of resolves] at killed
    · simp [result, pageFault_not resolves]
  · intro entries free memory
    have decided : result.1 = .resumed ↔ Untouched arch s child addr ∧ TellsData arch uc access := by
      by_cases resolves : Resolves arch s slots child addr (TellsData arch uc access)
      · simp [result, pageFault_of resolves, resolves.1, resolves.2.1]
      · simp only [result, pageFault_not resolves, reduceCtorEq, false_iff]
        exact fun both => resolves ⟨both.1, both.2, entries, .inr free⟩
    refine ⟨?_, fun resumed => ?_⟩
    · rw [decided]
      constructor
      · intro agrees here
        exact ⟨fun data => (agrees.mp ⟨here, data⟩).1, fun data => (agrees.mpr ⟨data, here⟩).2⟩
      · intro tells
        exact ⟨fun both => ⟨(tells both.1).mp both.2, both.1⟩, fun both => ⟨both.2, (tells both.2).mpr both.1⟩⟩
    · have here := decided.mp resumed
      obtain ⟨pages, _, halted⟩ := mapChildPage_room (w := true) (x := false) here.1.2.2.2 (pagesLeft_pos entries memory)
      simp only [result, pageFault_of ⟨here.1, here.2, entries, .inr free⟩]
      exact ⟨halted, pages⟩
  · intro k cur replier t canGrant current fault kind resumes
    refine wp_mono (replyToTcb_resumes canGrant current fault rfl resumes) ?_ fun _ _ => id
    rintro - k' ⟨running, after⟩
    refine ⟨running, after.trans ?_⟩
    -- A fault of this kind takes no words from the answer.
    unfold KState.answered
    simp [kind, FaultLabel.raw]

/-- A process whose heap has no page yet. -/
def bareHeap : Task :=
  { pid := 2, entry := 0, brk := 0x20000, heapStart := 0x10000, heapMappedEnd := 0x10000, elfPhdr := 0, elfPhent := 0,
    elfPhnum := 0, execPath := [] }

/-- On RISC-V the first store to the heap gets a page. -/
theorem lazy_fault_resolved_riscv64 :
    let s : Memory := { pages := fun _ _ => none, mappingCount := 0, framePool := [fun _ => 7], freshFrames := 0 }
    let result := pageFault .riscv64 s 300 bareHeap { pc := 0x400 } .store 0x10008
    ((result.1 = .resumed ↔ Access.store ≠ .fetch ∧ Untouched .riscv64 s bareHeap 0x10008) ↔
      (Untouched .riscv64 s bareHeap 0x10008 → (TellsData .riscv64 { pc := 0x400 } .store ↔ Access.store ≠ .fetch))) ∧
    result.1 = .resumed := by
  intro s
  exact ⟨(lazy_fault_resolved_iff.2.2.1 (by decide) (by decide) (by decide)).1, by decide⟩

/-- On x86-64 the same store ends the process, and a fetch gets a page, depending on what is in a register. -/
theorem lazy_fault_killed_x8664 :
    let s : Memory := { pages := fun _ _ => none, mappingCount := 0, framePool := [], freshFrames := 1 }
    (pageFault .x8664 s 300 bareHeap { pc := 0x400 } .store 0x10008).1 = .killed ∧
      (pageFault .x8664 s 300 bareHeap { pc := 0x400, regs := fun i => if i = 2 then 5 else 0 } .fetch 0x10008).1 =
        .resumed := by
  decide

end Rel4.Host
