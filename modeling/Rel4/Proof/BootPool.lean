import Rel4.Lib.Interleave
import Rel4.Proof.Atomic

/-! The boot pool of table pages: assignments take pages from it, and nothing gives one back. -/

namespace Rel4

open Lib

variable {s s' : KState}

/-- The same number of pages has been taken from the boot pool. -/
def SamePool (s s' : KState) : Prop := s'.vm.bootTables = s.vm.bootTables

instance : IsPreorder KState SamePool where
  refl _ := rfl
  trans _ _ _ first second := second.trans first

section Assignment

variable {thread uc root : Addr} {cap : Cap} {label : Word} {slot : Slot}

/-- An assignment passes its checks, and is about the root in a slot. -/
structure KState.Assigns (s : KState) (thread uc : Addr) (cap : Cap) (label : Word) (root : Addr)
    (slot : Slot) : Prop where
  labelled : ArchInvocation.ofRaw s.env.arch label = some .asidPoolAssign
  extra : s.hasExtraCap uc
  found : ∃ addr, s.lookupCap thread (s.currentBufferWord 122) = some (.pageTable root false addr 0, slot)
  pool : ∃ base ptr asid, cap = .asidPool base ptr ∧ s.vm.asids.nextFreeFromPool base ptr = .ok asid

/-- An assignment is about one root. -/
theorem KState.Assigns.only {root' : Addr} {slot' : Slot}
    (passes : s.Assigns thread uc cap label root slot)
    (passes' : s.Assigns thread uc cap label root' slot') : root = root' ∧ slot = slot' := by
  obtain ⟨_, found⟩ := passes.found
  obtain ⟨_, found'⟩ := passes'.found
  cases found.symm.trans found'
  exact ⟨rfl, rfl⟩

/-- The entry of a root table that leads to the kernel window of an x86-64 machine. -/
def KState.windowSlot (s : KState) (root : Addr) : PtSlot :=
  { table := s.env.arch.kvaToPa root, index := 511, bitsLeft := coverageBits 3 }

/-- The identifier that is found free can be published for a root. -/
theorem AsidTable.publish_nextFree {st : AsidTable} {base asid : Nat} {ptr : Addr}
    (free : st.nextFreeFromPool base ptr = .ok asid) (object : root ≠ 0) :
    st.publishPoolAssignment base ptr asid root =
      some { st with roots := Function.update st.roots asid root } := by
  unfold nextFreeFromPool at free
  simp only at free
  split at free
  · cases free
  rename_i active
  split at free
  · cases free
  rename_i same
  split at free
  · rename_i asid' here
    cases free
    have unused := List.find?_some here
    obtain ⟨i, inPool, rfl⟩ := List.mem_map.mp (List.mem_of_find?_eq_some here)
    have small : i < asidPoolSize := List.mem_range.mp inPool
    have within : (base / asidPoolSize * asidPoolSize + i) / asidPoolSize = base / asidPoolSize := by
      rw [Nat.mul_comm, Nat.mul_add_div (by decide), Nat.div_eq_of_lt small, Nat.add_zero]
    unfold publishPoolAssignment
    simp only
    apply if_neg
    simp only [not_or, Nat.not_le, not_not] at active same
    simp only [decide_eq_true_eq] at unused
    simp only [not_or, Nat.not_le, not_not]
    exact ⟨active.1, active.2.1, object, unused.1, within, active.2.2, same, unused.2⟩
  · cases free

/-- An assignment answers with an error and does nothing, or its checks pass and it goes ahead. -/
theorem wp_handleAsidPool {post : Unit → KState → Prop} {fail : Abort → KState → Prop}
    (refused : (∀ root slot, ¬ s.Assigns thread uc cap label root slot) → ∀ e, fail (.error e) s)
    (assigned : ∀ root slot base ptr asid addr, s.Assigns thread uc cap label root slot →
      s.cap slot = .pageTable root false addr 0 → s.vm.asids.nextFreeFromPool base ptr = .ok asid →
      wp (copyKernelMappingsTo root)
        (fun _ s' => match s'.vm.asids.publishPoolAssignment base ptr asid root with
          | some asids => post () { s' with vm := { s'.vm with asids } }
          | none => fail (.panic "ASID pool assignment changed before publication") s')
        fail (s.updateCap slot (Cap.setPageTableMapping asid 0))) :
    wp (handleAsidPool thread uc cap label) post fail s := by
  have refused' : ∀ e, (∀ root slot, s.Assigns thread uc cap label root slot → False) →
      fail (.error e) s := fun e none => refused none e
  simp only [handleAsidPool, wp_bind, wp_archLabelOf, wp_ite, wp_raise, wp_requireExtraCap,
    lookupExtraCapSlot, lookupCapOr, readExtraCap, wp_get, wp_currentIpcBufferWord]
  refine ⟨fun unlabelled => refused' _ fun _ _ passes => unlabelled passes.labelled,
    fun labelled => ⟨fun extra => ?_, fun missing => refused' _ fun _ _ passes => missing passes.extra⟩⟩
  split
  · rename_i found here
    obtain ⟨vspace, slot⟩ := found
    -- Whatever the assignment is about sits in the slot that was found.
    have only : ∀ root' slot', s.Assigns thread uc cap label root' slot' →
        slot' = slot ∧ ∃ addr, vspace = .pageTable root' false addr 0 := by
      intro root' slot' passes
      obtain ⟨addr, found⟩ := passes.found
      cases found.symm.trans here
      exact ⟨rfl, addr, rfl⟩
    simp only [wp_pure]
    split
    · rename_i base ptr root isMapped addr mappedAsid
      simp only [wp_bind, wp_ite, wp_raise, wp_get]
      refine ⟨fun mapped => refused' _ fun root' slot' passes => ?_, fun unmapped => ?_⟩
      · obtain ⟨-, _, eq⟩ := only root' slot' passes
        cases eq
        simp at mapped
      obtain ⟨rfl, rfl⟩ : isMapped = false ∧ mappedAsid = 0 := by simpa using unmapped
      split
      · rename_i e none
        refine refused' _ fun root' slot' passes => ?_
        obtain ⟨base', ptr', asid, eq, free⟩ := passes.pool
        cases eq
        cases none.symm.trans free
      · rename_i asid free
        simp only [wp_bind, wp_modify, wp_get]
        have passes : s.Assigns thread uc (.asidPool base ptr) label root slot :=
          ⟨by simpa using labelled, extra, ⟨_, here⟩, ⟨_, _, _, rfl, free⟩⟩
        refine wp_mono (assigned root slot base ptr asid addr passes (KState.lookupCap_cap here) free)
          (fun _ s' after => ?_) fun _ _ => id
        split
        · simp_all
        · simp_all
    · rename_i otherwise
      refine refused' _ fun root' slot' passes => ?_
      obtain ⟨base', ptr', asid, rfl, free⟩ := passes.pool
      obtain ⟨-, _, rfl⟩ := only root' slot' passes
      exact otherwise _ _ _ _ _ _ rfl rfl
  · rename_i nothing
    refine refused' _ fun root' slot' passes => ?_
    obtain ⟨_, found⟩ := passes.found
    cases nothing.symm.trans found

/-- Giving a root its kernel window takes a page of the pool unless the window is there. -/
theorem copyKernelMappingsTo_pool (x86 : s.env.arch = .x8664) :
    wp (copyKernelMappingsTo root)
      (fun _ s' => s'.env = s.env ∧ s'.caps = s.caps ∧ s'.vm.asids = s.vm.asids ∧
        s'.vm.bootTables = s.vm.bootTables + if (s.vm.entry (s.windowSlot root)).valid then 0 else 1)
      (fun stop _ => (∃ text, stop = .panic text) ∧ (s.vm.entry (s.windowSlot root)).valid = false) s := by
  have window : s.windowSlot root =
      { table := Arch.x8664.kvaToPa root, index := 511, bitsLeft := coverageBits 3 } := by
    simp [KState.windowSlot, x86]
  simp only [copyKernelMappingsTo, wp_bind, wp_get, x86, ← window, wp_ite, wp_pure, wp_crash, wp_set]
  refine ⟨fun there => ?_, fun missing => ⟨fun exhausted => ?_, fun _ => ?_⟩⟩
  · simp [there]
  · exact ⟨⟨_, rfl⟩, by simpa using missing⟩
  · simp [missing, Vm.setEntry]

/-- Where the window is there already, no page is taken; RISC-V machines never take one. -/
theorem copyKernelMappingsTo_same (there : (s.vm.entry (s.windowSlot root)).valid) :
    Follows SamePool (copyKernelMappingsTo root) s := by
  cases arch : s.env.arch with
  | x8664 =>
    refine wp_mono (copyKernelMappingsTo_pool arch) (fun _ s' after => ?_) fun _ _ panics => ?_
    · simpa [SamePool, there] using after.2.2.2
    · simp [there] at panics
  | riscv64 =>
    unfold Follows
    simp only [copyKernelMappingsTo, wp_bind, wp_get, arch, wp_set]
    rfl

/-- An assignment that finds the window in place takes no page. -/
theorem handleAsidPool_same
    (there : ∀ root slot, s.Assigns thread uc cap label root slot →
      (s.vm.entry (s.windowSlot root)).valid) :
    Follows SamePool (handleAsidPool thread uc cap label) s := by
  refine wp_handleAsidPool (fun _ _ => rfl) fun root slot base ptr asid addr passes held free => ?_
  have same : Follows SamePool (copyKernelMappingsTo root)
      (s.updateCap slot (Cap.setPageTableMapping asid 0)) :=
    copyKernelMappingsTo_same (there root slot passes)
  refine same.wp_of (R := SamePool) rfl (fun _ s' _ sofar => ?_) fun _ _ => id
  split
  · exact sofar
  · exact sofar

/-- An assignment that passes its checks goes through unless the pool is exhausted. -/
theorem handleAsidPool_assigned (passes : s.Assigns thread uc cap label root slot)
    (object : root ≠ 0) (x86 : s.env.arch = .x8664) :
    wp (handleAsidPool thread uc cap label)
      (fun _ s' => s'.env = s.env ∧ (∃ addr asid, s'.cap slot = .pageTable root true addr asid) ∧
        s'.vm.bootTables = s.vm.bootTables + if (s.vm.entry (s.windowSlot root)).valid then 0 else 1)
      (fun stop _ => (∃ text, stop = .panic text) ∧ (s.vm.entry (s.windowSlot root)).valid = false) s := by
  refine wp_handleAsidPool (fun none => absurd passes (none root slot))
    fun root' slot' base ptr asid addr passes' held free => ?_
  obtain ⟨rfl, rfl⟩ := passes'.only passes
  have recorded : (s.updateCap slot' (Cap.setPageTableMapping asid 0)).cap slot' =
      (Cap.pageTable root' false addr 0).setPageTableMapping asid 0 := by
    rw [← held]
    exact (CapStore.setCap_cap ..).trans (if_pos rfl)
  refine wp_mono (copyKernelMappingsTo_pool x86) (fun _ s' after => ?_) fun _ _ => id
  obtain ⟨env, caps, asids, pages⟩ := after
  rw [asids, show (s.updateCap slot' (Cap.setPageTableMapping asid 0)).vm = s.vm from rfl,
    AsidTable.publish_nextFree free object]
  have kept : s'.cap slot' = (s.updateCap slot' (Cap.setPageTableMapping asid 0)).cap slot' :=
    congrArg (CapStore.cap · slot') caps
  exact ⟨env, ⟨_, _, kept.trans recorded⟩, pages⟩

/-- The calls that take pages from the pool or might give some back. -/
inductive PoolCall
  | assign (thread uc : Addr) (cap : Cap) (label : Word)
  | delete (slot : Slot)
  | revoke (slot : Slot)

/-- What a call runs. -/
def PoolCall.prog : PoolCall → Kern Unit
  | assign thread uc cap label => handleAsidPool thread uc cap label
  | delete slot => deleteSlot slot
  | revoke slot => cteRevoke slot

/-- A call is over when it succeeds or answers with an error. -/
def PoolCall.step (s : KState) (call : PoolCall) : Option KState :=
  match call.prog s with
  | .ok _ s' | .error (.error _) s' => some s'
  | .error _ _ => none

/-- An assignment finds the kernel window in place in the root it is about. -/
def KState.WindowThere (s : KState) (thread uc : Addr) (cap : Cap) (label : Word) : Prop :=
  ∀ root slot, s.Assigns thread uc cap label root slot → (s.vm.entry (s.windowSlot root)).valid

/-- Every other assignment of a run finds the window in place. -/
def PoolCall.FindsWindow (s : KState) : PoolCall → Prop
  | assign thread uc cap label => s.WindowThere thread uc cap label
  | _ => True

/-- A page table goes at once. -/
theorem finalizeAtOnce_pageTable (isFinal isMapped : Bool) (addr asid : Nat) :
    wp (finalizeAtOnce (.pageTable root isMapped addr asid) isFinal) (fun done _ => done = true)
      (fun _ _ => False) s := by
  simp [finalizeAtOnce, wp_bind, wp_get, wp_ite, wp_set, wp_pure]

/-- Deleting the capability to a page table empties its slot. -/
theorem deleteSlot_pageTable {isMapped : Bool} {addr asid : Nat} (fuel : 0 < s.env.fuel)
    (held : s.cap slot = .pageTable root isMapped addr asid) :
    wp (deleteSlot slot) (fun _ s' => s'.cap slot = .null) (fun _ _ => False) s := by
  obtain ⟨fuel, eq⟩ := Nat.exists_eq_succ_of_ne_zero (Nat.ne_of_gt fuel)
  have empties : ∀ s' : KState, wp (emptyFinalizedSlot slot .null)
      (fun _ s' => s'.cap slot = .null) (fun _ _ => False) s' := fun s' =>
    wp_mono (emptyFinalizedSlot_cap slot .null s') (fun _ _ after => by simp [after.1 slot])
      fun _ _ => id
  have finalised : wp (finalizeCap (s.cap slot) (s.caps.isFinalCapability slot))
      (fun result _ => result = {}) (fun _ _ => False) s := by
    rw [held]
    unfold finalizeCap
    simp only [wp_bind, wp_ite, wp_pure]
    refine wp_mono (finalizeAtOnce_pageTable ..) (fun done s' done => ?_) fun _ _ => id
    exact ⟨fun _ => trivial, fun no => absurd done no⟩
  simp only [deleteSlot, wp_bind, wp_get, eq, cteDelete, finaliseSlot, wp_ite, wp_pure, wp_crash]
  refine ⟨fun null => by simp [held, Cap.isNull] at null, fun _ => ?_⟩
  refine wp_mono finalised (fun result s' isEmpty => ?_) fun _ _ => id
  subst isEmpty
  simp only [capRemovable, wp_pure]
  exact ⟨fun no => absurd no (by decide), fun _ => ⟨fun _ => ⟨fun _ => empties s',
    fun no => absurd rfl no⟩, fun no => absurd trivial no⟩⟩

/-- No call of a run takes a page as long as the assignments find the window in place. -/
theorem PoolCall.step_pool {call : PoolCall} (step : call.step s = some s')
    (finds : call.FindsWindow s) : SamePool s s' := by
  have same : Follows SamePool call.prog s := by
    cases call with
    | delete slot => exact (deleteSlot_deletes slot s).mono fun _ => Deletes.pool
    | revoke slot => exact (cteRevoke_deletes slot s).mono fun _ => Deletes.pool
    | assign thread uc cap label => exact handleAsidPool_same finds
  unfold Follows wp at same
  unfold PoolCall.step at step
  split at step
  · rename_i run
    rw [run] at same
    exact Option.some.inj step ▸ same
  · rename_i run
    rw [run] at same
    exact Option.some.inj step ▸ same
  · cases step

/-- No run takes a page as long as the assignments find the window in place. -/
theorem PoolCall.run_pool (run : Run PoolCall.step PoolCall.FindsWindow s s') : SamePool s s' :=
  run.keeps (SamePool s) rfl fun _ _ _ sofar step finds =>
    (step_pool step finds).trans sofar

/--
An assignment does not panic, and the pages it took are there again once the address space is
deleted, exactly if the root it is about has its kernel window already.

The calls that follow the assignment are any deletions and revocations, and assignments that find
the window in place.
-/
theorem assigned_pages_return_iff (x86 : s.env.arch = .x8664) (fuel : 0 < s.env.fuel)
    (objects : ∀ root slot, s.Assigns thread uc cap label root slot → root ≠ 0) :
    ((∀ text s', handleAsidPool thread uc cap label s ≠ .error (.panic text) s') ∧
      ∀ s' s'', handleAsidPool thread uc cap label s = .ok () s' →
        Run PoolCall.step PoolCall.FindsWindow s' s'' →
        (∀ root slot, s.Assigns thread uc cap label root slot → s''.cap slot = .null) →
        s''.vm.bootTables = s.vm.bootTables) ↔
      s.WindowThere thread uc cap label := by
  constructor
  · rintro ⟨calm, returned⟩ root slot passes
    by_contra missing
    have assigned := handleAsidPool_assigned passes (objects root slot passes) x86
    cases run : handleAsidPool thread uc cap label s with
    | ok _ s' =>
      obtain ⟨env, ⟨addr, asid, held⟩, pages⟩ := ok_of_wp assigned run
      -- Deleting the root at once leaves the page taken.
      obtain ⟨_, s'', deleted, gone⟩ := exists_ok_of_wp (deleteSlot_pageTable (env ▸ fuel) held)
      have step : (PoolCall.delete slot).step s' = some s'' := by
        simp only [PoolCall.step, PoolCall.prog, deleted]
      have only : ∀ root' slot', s.Assigns thread uc cap label root' slot' → s''.cap slot' = .null := by
        intro root' slot' passes'
        rw [(passes'.only passes).2]
        exact gone
      have back := returned s' s'' run (.move .start _ step trivial) only
      have same : s''.vm.bootTables = s'.vm.bootTables := PoolCall.step_pool step trivial
      rw [if_neg missing] at pages
      omega
    | error stop s' =>
      obtain ⟨⟨text, rfl⟩, -⟩ := error_of_wp assigned run
      exact calm text s' run
  · intro there
    constructor
    · intro text s' panics
      by_cases passes : ∃ root slot, s.Assigns thread uc cap label root slot
      · obtain ⟨root, slot, passes⟩ := passes
        have assigned := handleAsidPool_assigned passes (objects root slot passes) x86
        cases (there root slot passes).symm.trans (error_of_wp assigned panics).2
      · have refused : wp (handleAsidPool thread uc cap label) (fun _ _ => True)
            (fun stop _ => ∃ e, stop = .error e) s :=
          wp_handleAsidPool (fun _ e => ⟨e, rfl⟩)
            fun root slot _ _ _ _ passes' => absurd ⟨root, slot, passes'⟩ passes
        obtain ⟨_, eq⟩ := error_of_wp refused panics
        cases eq
    · intro s' s'' run later _
      have same := ok_of_wp (handleAsidPool_same there) run
      exact (PoolCall.run_pool later).trans same

/--
A thread that has a page table in each of two slots and a pool of identifiers.

Its message buffer names the first of the slots; the boot pool has one page left.
-/
def assigningCaller : KState where
  env :=
    { arch := .x8664, idleTcb := 1024, irqNode := 2048, bootPtPool := 2 ^ 20, ioapicPins := 24,
      fuel := 8 }
  caps :=
    { ctes := fun slot =>
        if slot = tcbSlot 4096 tcbCTableSlot then { cap := .cnode 65536 4 0 60 }
        else if slot = slotAt 65536 1 then { cap := .asidPool 512 131072 }
        else if slot = slotAt 65536 2 then { cap := .newPageTable (pptrBase + 262144) }
        else if slot = slotAt 65536 3 then { cap := .newPageTable (pptrBase + 266240) }
        else {} }
  threads :=
    { current := some 4096
      tcbs := fun tcb =>
        if tcb = 4096 then
          { state := .running, ipcBuffer := some 32768
            context := (UserContext.init .x8664).setMsgInfo .x8664 (2 ^ 7) }
        else {} }
  vm :=
    { asids := { poolActive := fun pool => pool = 1, poolPtr := fun pool => if pool = 1 then 131072 else 0 }
      bootTables := 1023 }
  buffers := fun buffer i => if buffer = 32768 ∧ i = 122 then 2 else 0

/-- The same, with the kernel window in place in the first page table. -/
def windowedCaller : KState :=
  { assigningCaller with
    vm := assigningCaller.vm.setEntry (assigningCaller.windowSlot (pptrBase + 262144)) { valid := true } }

/-- An assignment of that thread can only be about its first page table. -/
theorem windowedCaller_assigns {cap : Cap} {label : Word}
    (passes : windowedCaller.Assigns 4096 4096 cap label root slot) : root = pptrBase + 262144 := by
  obtain ⟨addr, found⟩ := passes.found
  have first : windowedCaller.lookupCap 4096 (windowedCaller.currentBufferWord 122) =
      some (.newPageTable (pptrBase + 262144), slotAt 65536 2) := by decide +kernel
  cases found.symm.trans first
  rfl

/-- Such a thread's assignment takes no page. -/
theorem assigned_pages_return_once :
    (∀ text s', handleAsidPool 4096 4096 (.asidPool 512 131072) 43 windowedCaller ≠
        .error (.panic text) s') ∧
      ∀ s' s'', handleAsidPool 4096 4096 (.asidPool 512 131072) 43 windowedCaller = .ok () s' →
        Run PoolCall.step PoolCall.FindsWindow s' s'' →
        (∀ root slot, windowedCaller.Assigns 4096 4096 (.asidPool 512 131072) 43 root slot →
          s''.cap slot = .null) →
        s''.vm.bootTables = windowedCaller.vm.bootTables := by
  refine (assigned_pages_return_iff rfl (by decide) fun root slot passes => ?_).mpr
    fun root slot passes => ?_
  · rw [windowedCaller_assigns passes]
    decide
  · rw [windowedCaller_assigns passes]
    decide +kernel

/-- The thread names its other page table. -/
def namingOther (s : KState) : KState :=
  { s with buffers := fun buffer i => if buffer = 32768 ∧ i = 122 then 3 else 0 }

set_option maxRecDepth 20000 in
/-- After one root is assigned and deleted, its page is still taken, and assigning another panics. -/
theorem assignments_exhaust_pool :
    ∃ s₁ s₂ s₃, handleAsidPool 4096 4096 (.asidPool 512 131072) 43 assigningCaller = .ok () s₁ ∧
      deleteSlot (slotAt 65536 2) s₁ = .ok () s₂ ∧ s₂.cap (slotAt 65536 2) = .null ∧
      s₂.vm.bootTables = assigningCaller.vm.bootTables + 1 ∧
      handleAsidPool 4096 4096 (.asidPool 512 131072) 43 (namingOther s₂) =
        .error (.panic "boot PT pool exhausted") s₃ :=
  ⟨_, _, _, rfl, rfl, by decide +kernel, rfl, rfl⟩

end Assignment

end Rel4
