import Rel4.Proof.Authority

/-! An invocation that answers with an error has changed nothing but the caller's message registers. -/

namespace Rel4

open Lib

/-- An answer that tells the caller its invocation failed; giving way to the timer is no such answer. -/
def Abort.isFailure : Abort → Bool
  | error e => e ≠ .preempted
  | _ => false

@[simp] theorem Abort.isFailure_error (e : SyscallError) :
    (Abort.error e).isFailure = decide (e ≠ .preempted) := rfl

@[simp] theorem Abort.isFailure_panic (text : String) : (Abort.panic text).isFailure = false := rfl

@[simp] theorem Abort.isFailure_halted : Abort.halted.isFailure = false := rfl

@[simp] theorem Abort.isFailure_outOfFuel : Abort.outOfFuel.isFailure = false := rfl

@[simp] theorem Abort.isFailure_tooDeep : Abort.tooDeep.isFailure = false := rfl

/-- Run from this state the program does not fail, though it may give way or stop the machine. -/
abbrev Completes {α : Type} (prog : Kern α) (s : KState) : Prop :=
  wp prog (fun _ _ => True) (fun stop _ => stop.isFailure = false) s

section Completes

variable {α : Type} {prog : Kern α} {s : KState}

/-- What follows a program that does not fail decides how the whole ends. -/
theorem Completes.wp_of {post : α → KState → Prop} {fail : Abort → KState → Prop}
    (completes : Completes prog s) (ok : ∀ a s', prog s = .ok a s' → post a s')
    (err : ∀ stop s', stop.isFailure = false → fail stop s') : wp prog post fail s := by
  refine wp_of_run ok fun stop s' run => ?_
  have given := error_of_wp completes run
  exact err stop s' given

@[simp] theorem cteInsert_completes (src : Slot) (new : Cap) (dest : Slot) :
    Completes (cteInsert src new dest) s := by
  simp [cteInsert]

@[simp] theorem insertNewCap_completes (parent slot : Slot) (cap : Cap) :
    Completes (insertNewCap parent slot cap) s := by
  simp [insertNewCap]

@[simp] theorem cnodeMoveSlot_completes (src dst : Slot) (newCap : Cap) :
    Completes (cnodeMoveSlot src dst newCap) s := by
  simp [cnodeMoveSlot]

@[simp] theorem cnodeSwapSlots_completes (cap1 cap2 : Cap) (slot1 slot2 : Slot) :
    Completes (cnodeSwapSlots cap1 slot1 cap2 slot2) s := by
  simp [cnodeSwapSlots]

@[simp] theorem finalizeAtOnce_completes (cap : Cap) (isFinal : Bool) :
    Completes (finalizeAtOnce cap isFinal) s := by
  cases cap <;> simp [finalizeAtOnce]

@[simp] theorem emptyFinalizedSlot_completes (slot : Slot) (cleanupInfo : Cap) :
    Completes (emptyFinalizedSlot slot cleanupInfo) s := by
  cases cleanupInfo <;> simp [emptyFinalizedSlot, postCapDeletion]

@[simp] theorem cteDeleteOne_completes (slot : Slot) : Completes (cteDeleteOne slot) s := by
  simp [cteDeleteOne]

@[simp] theorem setupReplyMaster_completes (tcb : Addr) : Completes (setupReplyMaster tcb) s := by
  simp [setupReplyMaster]

@[simp] theorem suspend_completes (tcb : Addr) : Completes (suspend tcb) s := by
  simp only [suspend, cancelBlockedOnReply, wp_bind, wp_get, wp_ite, wp_modifyThreads,
    wp_modifyTcb, wp_pure, implies_true, and_true]
  intro
  split <;> simp

@[simp] theorem resume_completes (tcb : Addr) : Completes (resume tcb) s := by
  simp only [resume, cancelBlockedOnReply, wp_bind, wp_get, wp_ite, wp_modifyThreads,
    wp_modifyTcb, wp_pure, implies_true, and_true]
  intro
  split <;> simp

@[simp] theorem clearNotification_completes (irq : Nat) : Completes (clearNotification irq) s := by
  simp [clearNotification]

@[simp] theorem signalIrq_completes (irq : Nat) : Completes (signalIrq irq) s := by
  simp only [signalIrq, wp_bind, wp_get, wp_ite, wp_pure, implies_true, and_true]
  intro
  split <;> simp

@[simp] theorem cnodePreemptionPoint_completes : Completes cnodePreemptionPoint s := by
  simp only [cnodePreemptionPoint, handleTimerInterrupt, wp_bind, wp_get, wp_ite, wp_set,
    implies_true, true_and]
  intro
  split <;> simp

@[simp] theorem finalizeCap_completes (cap : Cap) (isFinal : Bool) :
    Completes (finalizeCap cap isFinal) s := by
  cases cap <;> simp [finalizeCap, finalizeTcb]

@[simp] theorem capRemovable_completes (cap : Cap) (slot : Slot) :
    Completes (capRemovable cap slot) s := by
  cases cap <;> simp [capRemovable]

section Deletion

variable {del : Slot → Bool → Kern Unit} (deletes : ∀ x exposed s, Completes (del x exposed) s)

include deletes in
theorem reduceZombie_completes (slot : Slot) (immediate : Bool) :
    Completes (reduceZombie del slot immediate) s := by
  simp only [reduceZombie, wp_bind, wp_get]
  split
  · simp only [wp_bind, wp_ite, wp_crash, capRemovable, wp_pure, Abort.isFailure_panic,
      implies_true, true_and]
    intro _ _ _
    refine ⟨fun _ => (deletes _ _ s).wp_of (fun _ s' _ => ?_) fun _ _ => id, fun _ => ?_⟩
    · simp only [wp_get]
      split <;> simp
    · intro
      split <;> simp
  · simp

include deletes in
/-- No round of finalising a slot fails. -/
theorem finaliseSlot_completes (slot : Slot) (immediate : Bool) (fuel : Nat) (s : KState) :
    Completes (finaliseSlot del slot immediate fuel) s := by
  induction fuel generalizing s with
  | zero => simp [finaliseSlot]
  | succ fuel ih => simp [finaliseSlot, reduceZombie_completes deletes, ih]

end Deletion

@[simp] theorem cteDelete_completes (depth : Nat) (slot : Slot) (exposed : Bool) (s : KState) :
    Completes (cteDelete depth slot exposed) s := by
  induction depth generalizing slot exposed s with
  | zero => simp [cteDelete]
  | succ depth ih => simp [cteDelete, finaliseSlot_completes ih]

@[simp] theorem deleteSlot_completes (slot : Slot) : Completes (deleteSlot slot) s := by
  simp [deleteSlot]

@[simp] theorem revokeDescendants_completes (slot : Slot) (fuel : Nat) (s : KState) :
    Completes (revokeDescendants slot fuel) s := by
  induction fuel generalizing s with
  | zero => simp [revokeDescendants]
  | succ fuel ih =>
    simp only [revokeDescendants, wp_bind, wp_get]
    split <;> simp [ih]

@[simp] theorem cteRevoke_completes (slot : Slot) : Completes (cteRevoke slot) s := by
  simp [cteRevoke, resetCnodeWorkUnits]

@[simp] theorem resetChunks_completes (slot : Slot) (base : Addr) (chunks : Nat) (s : KState) :
    Completes (resetChunks slot base chunks) s := by
  induction chunks generalizing s with
  | zero => simp [resetChunks, resetChunk, setFreeIndex]
  | succ chunks ih => simp [resetChunks, resetChunk, setFreeIndex, ih]

@[simp] theorem createObjects_completes (src : Slot) (type : ObjectType) (userSize bits : Nat)
    (isDevice : Bool) (base : Addr) (dests : List Slot) (s : KState) :
    Completes (createObjects src type userSize bits isDevice base dests) s := by
  induction dests generalizing base s with
  | nil => simp [createObjects]
  | cons dest dests ih =>
    cases type <;> simp [createObjects, initObject, initTcb, ih]

@[simp] theorem copyKernelMappingsTo_completes (root : Addr) :
    Completes (copyKernelMappingsTo root) s := by
  simp only [copyKernelMappingsTo, wp_bind, wp_get]
  split <;> simp

@[simp] theorem insertTcbCapIfLive_completes (slot : Slot) (target : Addr) (dest : Slot)
    (newCap : Cap) (src : Option Slot) :
    Completes (insertTcbCapIfLive slot target dest newCap src) s := by
  cases src <;> simp [insertTcbCapIfLive]

@[simp] theorem writeReplyMr0_completes (uc : Addr) (value : Word) :
    Completes (writeReplyMr0 uc value) s := by
  simp only [writeReplyMr0, setMr, writeCurrentIpcBufferWord, wp_bind, wp_modifyContext,
    wp_currentIpcBuffer]
  split <;> simp [setBufferWord]

end Completes

/--
Nothing but the caller's message registers differs.

They are the four registers the call came in with, and the words of the current thread's buffer
that mirror them.
-/
inductive Answered (uc : Addr) (s : KState) : KState → Prop
  | intro (regs : Nat → Word) (buffers : Addr → Nat → Word)
      (kept : ∀ reg, (∀ i, s.env.arch.mr i ≠ some reg) →
        regs reg = (s.threads.tcbs uc).context.regs reg)
      (unwritten : ∀ buffer i,
        (s.threads.current.bind s.ipcBuffer ≠ some buffer ∨ i = 0 ∨ nMsgRegisters < i) →
        buffers buffer i = s.buffers buffer i) :
      Answered uc s
        { s with
          threads := s.threads.updTcb uc fun t => { t with context := { t.context with regs } }
          buffers }

section Answered

variable {uc : Addr} {s s' : KState}

@[simp] theorem Answered.refl (uc : Addr) (s : KState) : Answered uc s s := by
  have same : s.threads.updTcb uc (fun t => { t with context := { t.context with
      regs := (s.threads.tcbs uc).context.regs } }) = s.threads := by
    simp [Threads.updTcb]
  have written : Answered uc s _ := .intro _ s.buffers (fun _ _ => rfl) fun _ _ _ => rfl
  rwa [same] at written

theorem Answered.ioapic (answered : Answered uc s s') : s'.ioapic = s.ioapic := by
  cases answered
  rfl

theorem Answered.caps (answered : Answered uc s s') : s'.caps = s.caps := by
  cases answered
  rfl

/-- Writing a message register only changes that register. -/
theorem UserContext.setMr_regs (arch : Arch) (context : UserContext) (index : Nat) (value : Word) :
    ∃ regs, context.setMr arch index value = { context with regs } ∧
      ∀ reg, (∀ i, arch.mr i ≠ some reg) → regs reg = context.regs reg := by
  unfold UserContext.setMr
  split
  · rename_i written here
    refine ⟨_, rfl, fun reg other => Function.update_of_ne (fun same => ?_) _ _⟩
    exact other index (here.trans (congrArg some same.symm))
  · exact ⟨_, rfl, fun _ _ => rfl⟩

/-- Writing one more message register is still only an answer. -/
theorem Answered.setMr (answered : Answered uc s s') (index : Nat) (value : Word) :
    wp (setMr uc index value) (fun _ => Answered uc s) (fun _ _ => False) s' := by
  obtain ⟨regs, buffers, kept, unwritten⟩ := answered
  simp only [Rel4.setMr, wp_modifyContext]
  obtain ⟨regs', written, others⟩ := UserContext.setMr_regs s.env.arch
    { (s.threads.tcbs uc).context with regs } index value
  have next : Answered uc s _ :=
    .intro regs' buffers (fun reg free => (others reg free).trans (kept reg free)) unwritten
  simpa [Threads.updTcb, written] using next

/-- So is writing the word of the buffer that mirrors one. -/
theorem Answered.writeBuffer (answered : Answered uc s s') {index : Nat} (value : Word)
    (mirrors : 0 < index ∧ index ≤ nMsgRegisters) :
    wp (writeCurrentIpcBufferWord index value) (fun _ => Answered uc s) (fun _ _ => False) s' := by
  obtain ⟨regs, buffers, kept, unwritten⟩ := answered
  simp only [writeCurrentIpcBufferWord, wp_bind, wp_currentIpcBuffer]
  have same : KState.ipcBuffer { s with
      threads := s.threads.updTcb uc fun t => { t with context := { t.context with regs } },
      buffers } = s.ipcBuffer := by
    funext tcb
    by_cases here : tcb = uc <;> simp [KState.ipcBuffer, Threads.updTcb, here]
  split
  · rename_i buffer found
    have current : s.threads.current.bind s.ipcBuffer = some buffer := same ▸ found
    simp only [setBufferWord, wp_modify]
    split
    · refine .intro regs _ kept fun other i apart => ?_
      rw [← unwritten other i apart, Function.update_apply]
      split
      · rename_i here
        subst here
        refine Function.update_of_ne ?_ _ _
        rcases apart with apart | apart
        · exact absurd current apart
        · omega
      · rfl
    · exact .intro regs buffers kept unwritten
  · exact .intro regs buffers kept unwritten

/-- Answering that an argument is out of range writes the range and nothing else. -/
@[simp] theorem setMr_range {fail : Abort → KState → Prop} (low high : Word) :
    wp (setMr uc 0 low)
      (fun _ s₁ => wp (setMr uc 1 high) (fun _ s₂ => Answered uc s s₂) fail s₁) fail s := by
  refine wp_mono ((Answered.refl uc s).setMr 0 low) (fun _ s₁ first => ?_) fun _ _ => False.elim
  exact wp_mono (first.setMr 1 high) (fun _ s₂ second => second) fun _ _ => False.elim

@[simp] theorem rangeError_answered {α : Type} {post : α → KState → Prop} (low high : Word) :
    wp (rangeError uc low high : Kern α) post (fun stop s' => stop.isFailure → Answered uc s s')
      s := by
  simp [rangeError]

@[simp] theorem userMapErrorReply_answered {α : Type} {post : α → KState → Prop}
    (e : UserMapError) :
    wp (userMapErrorReply uc e : Kern α) post (fun stop s' => stop.isFailure → Answered uc s s')
      s := by
  unfold userMapErrorReply
  split
  · simp only [wp_bind]
    refine wp_mono ((Answered.refl uc s).setMr 2 _) (fun _ s₁ first => ?_) fun _ _ => False.elim
    refine wp_mono (first.writeBuffer _ (by decide)) (fun _ s₂ second => ?_) fun _ _ => False.elim
    exact fun _ => second
  · simp

/-- If the program fails, it has only answered. -/
abbrev Atomic {α : Type} (uc : Addr) (prog : Kern α) (s : KState) : Prop :=
  wp prog (fun _ _ => True) (fun stop s' => stop.isFailure → Answered uc s s') s

theorem atomic_iff {α : Type} {prog : Kern α} :
    Atomic uc prog s ↔
      ∀ e s', prog s = .error (.error e) s' → e ≠ .preempted → Answered uc s s' := by
  unfold Atomic wp
  cases run : prog s with
  | ok a s' => simp
  | error stop s' =>
    cases stop with
    | error e =>
      refine ⟨fun fails e' s'' same other => ?_, fun fails failed => ?_⟩
      · cases same
        exact fails (by simpa using other)
      · exact fails e s' rfl (by simpa using failed)
    | _ => simp

/-- What does not fail may come after anything. -/
theorem Completes.atomic {α : Type} {prog : Kern α} (completes : Completes prog s') :
    wp prog (fun _ _ => True) (fun stop s'' => stop.isFailure → Answered uc s s'') s' :=
  wp_mono completes (fun _ _ => id) fun _ _ no failed => by simp [no] at failed

/-- A check leaves the state alone if it passes, and only answers if it does not. -/
abbrev Checks {α : Type} (uc : Addr) (prog : Kern α) (s : KState) : Prop :=
  wp prog (fun _ s' => s' = s) (fun stop s' => stop.isFailure → Answered uc s s') s

section Checks

variable {α : Type} {prog : Kern α}

theorem ReadOnly.checks (reads : ReadOnly prog) : Checks uc prog s :=
  reads.wp_of (fun _ _ => rfl) fun _ _ _ => .refl uc s

/-- After a check the program goes on in the state it started from. -/
theorem Checks.wp_of {post : α → KState → Prop} (checks : Checks uc prog s)
    (ok : ∀ a, prog s = .ok a s → post a s) :
    wp prog post (fun stop s' => stop.isFailure → Answered uc s s') s := by
  refine wp_of_run (fun a s' run => ?_) fun _ _ => error_of_wp checks
  obtain rfl := ok_of_wp checks run
  exact ok a run

end Checks

end Answered

/-- A word of the current thread's buffer. -/
def KState.currentBufferWord (s : KState) (index : Nat) : Word :=
  match s.threads.current.bind s.ipcBuffer with
  | some buffer => s.bufferWord buffer index
  | none => 0

/-- A word of the message; those past the fourth are in the buffer. -/
def KState.messageWord (s : KState) (uc : Addr) (index : Nat) : Word :=
  if index < 4 then (s.threads.tcbs uc).context.mr s.env.arch index
  else s.currentBufferWord (1 + index)

section Handlers

variable {uc thread : Addr} {slot : Slot} {cap : Cap} {label length : Word} {s : KState}
  {fail : Abort → KState → Prop}

@[simp] theorem wp_currentIpcBufferWord {post : Word → KState → Prop} (index : Nat) :
    wp (currentIpcBufferWord index) post fail s ↔ post (s.currentBufferWord index) s := Iff.rfl

@[simp] theorem wp_readMr {post : Word → KState → Prop} (index : Nat) :
    wp (readMr uc index) post fail s ↔ post (s.messageWord uc index) s := by
  unfold readMr KState.messageWord
  split <;> rfl

theorem validateRetypeObjectSize_checks (type : Word) (userSize : Nat) :
    Checks uc (validateRetypeObjectSize type userSize uc) s := by
  simp only [validateRetypeObjectSize, wp_bind, wp_get]
  split
  · simp
  · simp only [wp_ite]
    exact ⟨fun _ => rangeError_answered 0 maxUntypedBits, by simp⟩

theorem retypeDestination_readOnly : ReadOnly (retypeDestination thread uc) := by
  intro s
  simp only [retypeDestination, wp_bind, wp_getMr]
  refine (lookupExtraCapSlot_readOnly thread 0).wp_of (fun root _ => ?_) fun _ _ => rfl
  simp only [wp_ite, wp_pure, wp_bind, wp_get]
  exact ⟨fun _ => trivial, fun _ => (resolveSlot_readOnly _ _ _).wp_of (fun _ _ => rfl) fun _ _ => rfl⟩

theorem retypeSlots_checks (dest : Cap) (offset window : Nat) :
    Checks uc (retypeSlots uc dest offset window) s := by
  unfold retypeSlots
  split
  · simp
  · simp

/-- Retyping fails before it touches the block. -/
theorem handleUntyped_atomic : Atomic uc (handleUntyped thread uc slot cap label length) s := by
  simp only [handleUntyped, wp_bind, wp_ite, wp_raise, wp_getMr, wp_currentIpcBufferWord, Answered.refl,
    implies_true, true_and]
  intro _ _
  refine (requireExtraCaps_readOnly uc 1).checks.wp_of fun _ _ => ?_
  refine (validateRetypeObjectSize_checks _ _).wp_of fun kind _ => ?_
  refine retypeDestination_readOnly.checks.wp_of fun dest _ => ?_
  refine (retypeSlots_checks _ _ _).wp_of fun slots _ => ?_
  split
  · simp [resetUntypedCapForRetype, setFreeIndex, Completes.atomic]
  · simp

theorem pageMap_atomic : Atomic uc (pageMap thread uc slot cap length) s := by
  simp only [pageMap, wp_bind, wp_ite, wp_raise, wp_getMr, Answered.refl, implies_true, true_and]
  intro _
  refine (requireExtraCaps_readOnly uc 1).checks.wp_of fun _ _ => ?_
  refine (lookupVspace_readOnly thread).checks.wp_of fun root _ => ?_
  simp only [wp_get]
  refine ⟨fun _ _ => .refl uc s, fun _ => ?_⟩
  split
  · simp only [wp_bind, wp_ite, wp_raise, Answered.refl, implies_true, true_and]
    intro _ _
    split
    · exact userMapErrorReply_answered _
    · simp
  · simp

theorem pageUnmap_atomic : Atomic uc (pageUnmap slot cap) s := by
  simp only [pageUnmap, wp_bind, wp_get, wp_ite, wp_raise, Answered.refl, implies_true, true_and]
  intro _
  split <;> simp

theorem handleFrame_atomic : Atomic uc (handleFrame thread uc slot cap label length) s := by
  simp only [handleFrame, wp_bind, wp_archLabelOf]
  split
  · exact pageMap_atomic
  · exact pageUnmap_atomic
  · simp [Completes.atomic]
  · simp

theorem pageTableMap_atomic (coverage : Nat) :
    Atomic uc (pageTableMap thread uc slot cap coverage length) s := by
  simp only [pageTableMap, wp_bind, wp_ite, wp_raise, Answered.refl, implies_true, true_and]
  intro _
  refine (requireExtraCaps_readOnly uc 1).checks.wp_of fun _ _ => ?_
  split
  · simp
  · simp only [wp_bind, wp_getMr]
    refine (lookupVspace_readOnly thread).checks.wp_of fun root _ => ?_
    simp only [wp_get, wp_bind, wp_ite, wp_raise, Answered.refl, implies_true, true_and]
    intro _
    split
    · simp only [wp_bind, wp_ite, wp_raise, Answered.refl, implies_true, true_and]
      intro _
      split
      · exact userMapErrorReply_answered _
      · simp
    · simp

theorem pageTableUnmap_atomic : Atomic uc (pageTableUnmap slot cap) s := by
  simp only [pageTableUnmap, wp_bind, wp_get, wp_ite, wp_raise, Answered.refl, implies_true,
    true_and]
  intro _ _
  split <;> simp

theorem handlePageTable_atomic : Atomic uc (handlePageTable thread uc slot cap label length) s := by
  simp only [handlePageTable, wp_bind, wp_archLabelOf]
  split
  · exact pageTableMap_atomic _
  · exact pageTableUnmap_atomic
  · simp

theorem handleAsidControl_atomic : Atomic uc (handleAsidControl thread uc label length) s := by
  simp only [handleAsidControl, wp_bind, wp_archLabelOf, wp_ite, wp_raise, Answered.refl,
    implies_true, true_and]
  intro _ _
  refine (requireExtraCaps_readOnly uc 2).checks.wp_of fun _ _ => ?_
  refine (lookupExtraCapSlot_readOnly thread 0).checks.wp_of fun source _ => ?_
  split
  · simp only [wp_bind]
    refine (lookupExtraCapSlot_readOnly thread 1).checks.wp_of fun root _ => ?_
    split
    · simp only [wp_bind, wp_get]
      split
      · simp
      · simp only [wp_bind, wp_ite, wp_get, wp_getMr, wp_raise, Answered.refl, implies_true,
          true_and]
        intro _ _
        refine (resolveSlot_readOnly _ _ _).checks.wp_of fun dest _ => ?_
        refine ⟨fun _ _ => .refl uc s, fun _ => ?_⟩
        simp only [setFreeIndex, wp_modify]
        refine (cteInsert_completes _ _ _).wp_of (fun _ s' _ => ?_) fun _ _ no yes => by simp [no] at yes
        split <;> simp
    · simp
  · simp

theorem handleAsidPool_atomic : Atomic uc (handleAsidPool thread uc cap label) s := by
  simp only [handleAsidPool, wp_bind, wp_archLabelOf, wp_ite, wp_raise, Answered.refl,
    implies_true, true_and]
  intro _
  refine (requireExtraCaps_readOnly uc 1).checks.wp_of fun _ _ => ?_
  refine (lookupExtraCapSlot_readOnly thread 0).checks.wp_of fun vspace _ => ?_
  split
  · simp only [wp_bind, wp_ite, wp_raise, wp_get, Answered.refl, implies_true, true_and]
    intro _
    split
    · rename_i e _
      cases e <;> simp
    · refine Completes.atomic ?_
      simp only [wp_bind, wp_modify]
      refine (copyKernelMappingsTo_completes _).wp_of (fun _ s' _ => ?_) fun _ _ => id
      simp only [wp_get]
      split <;> simp
  · simp

theorem handleDomain_atomic : Atomic uc (handleDomain thread uc label length) s := by
  simp only [handleDomain, wp_bind, wp_getMr, wp_ite, wp_raise, Answered.refl, implies_true,
    true_and]
  intro _ _
  refine (requireExtraCaps_readOnly uc 1).checks.wp_of fun _ _ => ?_
  refine ⟨fun _ _ => .refl uc s, fun _ => ?_⟩
  refine (lookupExtraCapSlot_readOnly thread 0).checks.wp_of fun target _ => ?_
  split <;> simp

theorem issueDestination_readOnly (index : Word) (depth : Nat) :
    ReadOnly (issueDestination thread index depth) := by
  intro s
  simp only [issueDestination, wp_bind]
  refine (lookupExtraCapSlot_readOnly thread 0).wp_of (fun root _ => ?_) fun _ _ => rfl
  refine (resolveSlot_readOnly _ _ _).wp_of (fun dest _ => ?_) fun _ _ => rfl
  simp

theorem handleIoPortControl_atomic :
    Atomic uc (handleIoPortControl thread uc slot label length) s := by
  simp only [handleIoPortControl, wp_bind, wp_archLabelOf, wp_getMr, wp_get, wp_ite, wp_raise,
    Answered.refl, implies_true, true_and]
  intro _ _
  refine (requireExtraCaps_readOnly uc 1).checks.wp_of fun _ _ => ?_
  refine ⟨fun _ _ => .refl uc s, fun _ => ⟨fun _ _ => .refl uc s, fun _ => ?_⟩⟩
  refine (issueDestination_readOnly _ _).checks.wp_of fun dest _ => ?_
  simp [Completes.atomic]

theorem handleIoPort_atomic : Atomic uc (handleIoPort uc cap label length) s := by
  simp only [handleIoPort, wp_bind, wp_archLabelOf]
  split <;> simp [Completes.atomic]

theorem deriveCapForCopy_readOnly (src : Slot) (cap : Cap) :
    ReadOnly (deriveCapForCopy src cap) := fun s =>
  wp_mono (deriveCapForCopy_attenuates src cap s) (fun _ _ => And.left) fun _ _ => id

theorem decodeSpaces_readOnly (target : Addr) (cspaceData vspaceData : Word)
    (cspace vspace : Cap × Slot) :
    ReadOnly (decodeSpaces target cspaceData vspaceData cspace vspace) := by
  intro s
  simp only [decodeSpaces, wp_bind, wp_get, wp_ite, wp_raise, implies_true, true_and]
  intro _ _
  refine (deriveCapForCopy_readOnly _ _).wp_of (fun croot _ => ?_) fun _ _ => rfl
  split
  · simp only [wp_bind]
    refine (deriveCapForCopy_readOnly _ _).wp_of (fun vroot _ => ?_) fun _ _ => rfl
    split <;> simp
  · simp

theorem lookupIpcBufferCapSlot_readOnly (index : Nat) (bufferUva : Word) :
    ReadOnly (lookupIpcBufferCapSlot thread index bufferUva) := fun s =>
  wp_mono (lookupIpcBufferCapSlot_derived s (fun _ _ _ => True) thread index bufferUva 0 fun _ _ => trivial)
    (fun _ _ => And.left) fun _ _ => id

@[simp] theorem installTcbCap_completes (target : Addr) (index : Nat) (newCap : Cap) (src : Slot) :
    Completes (installTcbCap slot target index newCap src) s := by
  simp [installTcbCap]

@[simp] theorem installTcbBufferCap_completes (target : Addr) (bufferUva : Word) (bufferCap : Cap)
    (src : Option Slot) :
    Completes (installTcbBufferCap slot target bufferUva bufferCap src) s := by
  simp [installTcbBufferCap]

variable {target : Addr}

theorem tcbConfigure_atomic : Atomic uc (tcbConfigure thread uc slot target length) s := by
  simp only [tcbConfigure, wp_bind, wp_getMr, wp_ite, wp_raise, Answered.refl, implies_true,
    true_and]
  intro _
  refine (requireExtraCaps_readOnly uc 3).checks.wp_of fun _ _ => ?_
  refine (lookupExtraCapSlot_readOnly thread 0).checks.wp_of fun cspace _ => ?_
  refine (lookupExtraCapSlot_readOnly thread 1).checks.wp_of fun vspace _ => ?_
  refine (lookupIpcBufferCapSlot_readOnly 2 _).checks.wp_of fun buffer _ => ?_
  refine (decodeSpaces_readOnly _ _ _ _ _).checks.wp_of fun roots _ => ?_
  simp [Completes.atomic]

theorem tcbSetSpace_atomic : Atomic uc (tcbSetSpace thread uc slot target length) s := by
  simp only [tcbSetSpace, wp_bind, wp_getMr, wp_ite, wp_raise, Answered.refl, implies_true,
    true_and]
  intro _
  refine (requireExtraCaps_readOnly uc 2).checks.wp_of fun _ _ => ?_
  refine (lookupExtraCapSlot_readOnly thread 0).checks.wp_of fun cspace _ => ?_
  refine (lookupExtraCapSlot_readOnly thread 1).checks.wp_of fun vspace _ => ?_
  refine (decodeSpaces_readOnly _ _ _ _ _).checks.wp_of fun roots _ => ?_
  simp [Completes.atomic]

theorem tcbSetIpcBuffer_atomic : Atomic uc (tcbSetIpcBuffer thread uc slot target length) s := by
  simp only [tcbSetIpcBuffer, wp_bind, wp_getMr, wp_ite, wp_raise, Answered.refl, implies_true,
    true_and]
  intro _
  refine (requireExtraCaps_readOnly uc 1).checks.wp_of fun _ _ => ?_
  refine (lookupIpcBufferCapSlot_readOnly 0 _).checks.wp_of fun buffer _ => ?_
  exact Completes.atomic (by simp)

theorem lookupThread_readOnly (index : Nat) : ReadOnly (lookupThread thread index) := by
  intro s
  simp only [lookupThread, wp_bind]
  refine (lookupExtraCapSlot_readOnly thread index).wp_of (fun found _ => ?_) fun _ _ => rfl
  split <;> simp

theorem tcbSetPriorities_atomic (count : Nat) :
    Atomic uc (tcbSetPriorities thread uc count length) s := by
  simp only [tcbSetPriorities, wp_bind, wp_getMr, wp_ite, wp_raise, Answered.refl, implies_true,
    true_and]
  intro _
  refine (requireExtraCaps_readOnly uc 1).checks.wp_of fun _ _ => ?_
  refine (lookupThread_readOnly 0).checks.wp_of fun _ _ => ?_
  simp

theorem tcbWriteRegisters_atomic : Atomic uc (tcbWriteRegisters uc target length) s := by
  simp [tcbWriteRegisters, Completes.atomic]

theorem tcbReadRegisters_atomic : Atomic uc (tcbReadRegisters uc target length) s := by
  simp only [tcbReadRegisters, wp_bind, wp_getMr, wp_get, wp_ite, wp_raise, wp_modifyContext,
    Answered.refl, implies_true, true_and]
  intro _ _ _
  refine Completes.atomic ?_
  split <;> simp [setBufferWords]

theorem tcbCopyRegisters_atomic : Atomic uc (tcbCopyRegisters thread uc target length) s := by
  simp only [tcbCopyRegisters, wp_bind, wp_getMr, wp_get, wp_ite, wp_raise, Answered.refl,
    implies_true, true_and]
  intro _
  refine (requireExtraCaps_readOnly uc 1).checks.wp_of fun _ _ => ?_
  refine (lookupThread_readOnly 0).checks.wp_of fun src _ => ?_
  simp [Completes.atomic]

theorem tcbBindNotification_atomic : Atomic uc (tcbBindNotification thread uc target) s := by
  simp only [tcbBindNotification, wp_bind]
  refine (requireExtraCaps_readOnly uc 1).checks.wp_of fun _ _ => ?_
  refine (lookupExtraCapSlot_readOnly thread 0).checks.wp_of fun found _ => ?_
  split <;> simp

theorem handleThread_atomic : Atomic uc (handleThread thread uc slot cap label length) s := by
  unfold handleThread handleThreadInner
  split
  · simp
  · split
    · exact tcbConfigure_atomic
    · exact tcbSetSpace_atomic
    · exact tcbSetIpcBuffer_atomic
    · exact tcbSetPriorities_atomic 1
    · exact tcbSetPriorities_atomic 1
    · exact tcbSetPriorities_atomic 2
    · exact Completes.atomic (by simp)
    · exact Completes.atomic (by simp)
    · exact tcbWriteRegisters_atomic
    · exact tcbReadRegisters_atomic
    · exact tcbCopyRegisters_atomic
    · exact tcbBindNotification_atomic
    · simp
    · simp
    · simp [tcbSetFlags, Completes.atomic]
    · simp

theorem cnodeOpCopyOrMint_atomic (root : Cap) (isMint : Bool) :
    Atomic uc (cnodeOpCopyOrMint thread uc root length isMint) s := by
  simp only [cnodeOpCopyOrMint, wp_bind]
  refine (cnodeDestination_readOnly _ _ _).checks.wp_of fun dest _ => ?_
  refine (cnodeSource_readOnly _ _ _ _).checks.wp_of fun src _ => ?_
  simp only [wp_get, wp_bind, wp_ite, wp_raise, wp_readMr, Answered.refl, implies_true, true_and]
  intro _ _
  refine (deriveCapForCopy_readOnly _ _).checks.wp_of fun new _ => ?_
  simp [Completes.atomic]

theorem cnodeOpMoveOrMutate_atomic (root : Cap) (isMutate : Bool) :
    Atomic uc (cnodeOpMoveOrMutate thread uc root length isMutate) s := by
  simp only [cnodeOpMoveOrMutate, wp_bind]
  refine (cnodeDestination_readOnly _ _ _).checks.wp_of fun dest _ => ?_
  refine (cnodeSource_readOnly _ _ _ _).checks.wp_of fun src _ => ?_
  simp [Completes.atomic]

theorem cnodeOpRotate_atomic (root : Cap) : Atomic uc (cnodeOpRotate thread uc root length) s := by
  simp only [cnodeOpRotate, wp_bind]
  refine (rotateOperands_readOnly thread uc root length).checks.wp_of fun operands _ => ?_
  simp [Completes.atomic]

/-- The operations on a node, deletion and revocation included, fail before they change it. -/
theorem handleCnode_atomic : Atomic uc (handleCnode thread uc cap label length) s := by
  unfold handleCnode
  split
  · simp only [cnodeOpRevoke, wp_bind]
    exact (cnodeDestination_readOnly _ _ _).checks.wp_of fun dest _ => Completes.atomic (by simp)
  · simp only [cnodeOpDelete, wp_bind]
    exact (cnodeDestination_readOnly _ _ _).checks.wp_of fun dest _ => Completes.atomic (by simp)
  · exact cnodeOpCopyOrMint_atomic _ _
  · exact cnodeOpCopyOrMint_atomic _ _
  · exact cnodeOpMoveOrMutate_atomic _ _
  · exact cnodeOpMoveOrMutate_atomic _ _
  · simp only [cnodeOpCancelBadgedSends, wp_bind]
    refine (cnodeDestination_readOnly _ _ _).checks.wp_of fun dest _ => ?_
    simp only [wp_get]
    split <;> simp
  · exact cnodeOpRotate_atomic _
  · simp only [cnodeOpSaveCaller, wp_bind]
    refine (cnodeDestination_readOnly _ _ _).checks.wp_of fun dest _ => ?_
    simp only [wp_get, wp_bind, wp_ite, wp_raise, Answered.refl, implies_true, true_and]
    intro _
    split
    · simp
    · split <;> simp [Completes.atomic]
  · simp

end Handlers

/-- The slot named for a capability that is issued, if it exists and is empty. -/
def KState.issueSlot (s : KState) (thread : Addr) (index : Word) (depth : Nat) : Option Slot :=
  match s.lookupCap thread (s.currentBufferWord 122) with
  | some (root, _) =>
    if depth = 0 ∨ wordBits < depth then none
    else match s.caps.lookupSlotExact root index depth with
      | some dest => if (s.cap dest).isNull then some dest else none
      | none => none
  | none => none

/-- An invocation names an extra capability, and has a buffer to name it in. -/
def KState.hasExtraCap (s : KState) (uc : Addr) : Prop :=
  1 ≤ (MessageInfo.ofWord ((s.threads.tcbs uc).context.msgInfo s.env.arch)).extraCaps ∧
    (s.threads.current.bind s.ipcBuffer).isSome

/-- The interrupt a routing invocation asks for. -/
def KState.askedIrq (s : KState) (uc : Addr) : Nat := s.messageWord uc 6 + irqUserMin

/-- The interrupt controller as a routing invocation asks for it. -/
def KState.askedRouting (s : KState) (uc : Addr) : Ioapic :=
  s.ioapic.mapPinToIrq s.env.ioapicPins (s.messageWord uc 3) (s.askedIrq uc)
    (s.messageWord uc 4 ≠ 0) (s.messageWord uc 5 ≠ 0) ((s.askedIrq uc + irqIntOffset) % 2 ^ 8)

/--
An invocation that routes a pin without being able to issue the handler.

Every argument is in range and the interrupt is free, the pin is not routed like this already, but
there is no empty slot for the capability.
-/
structure RoutesInVain (s : KState) (thread uc : Addr) (label length : Word) : Prop where
  labelled : ArchInvocation.ofRaw s.env.arch label = some .irqIssueIrqHandlerIoapic
  long : 7 ≤ length
  extra : s.hasExtraCap uc
  vector : s.messageWord uc 6 ≤ irqUserMax - irqUserMin
  ioapicId : s.messageWord uc 2 = 0
  pin : s.messageWord uc 3 < s.env.ioapicPins
  level : s.messageWord uc 4 ≤ 1
  polarity : s.messageWord uc 5 ≤ 1
  free : s.isActive (s.askedIrq uc) = false
  rerouted : s.askedRouting uc ≠ s.ioapic
  homeless : s.issueSlot thread (s.messageWord uc 0) (s.messageWord uc 1 % 2 ^ 32) = none

/--
An invocation that binds an interrupt to the notification it is bound to, named by the kernel's own
slot.

Dropping the old binding destroys the capability that was to be bound.
No capability space reaches the kernel's own slots unless a node was laid over them.
-/
structure UnbindsInVain (s : KState) (thread uc : Addr) (irq : Nat) (label : Word) : Prop where
  labelled : InvocationLabel.ofRaw label = some .irqSetHandler
  extra : s.hasExtraCap uc
  active : s.isActive irq = true
  found : ∃ ntfn badge receive,
    s.lookupCap thread (s.currentBufferWord 122) =
      some (.notification ntfn badge true receive, s.env.notificationSlot irq) ∧
    (s.caps.isFinalCapability (s.env.notificationSlot irq) = true → ntfn ≠ 0 ∧ isPspaceKva ntfn)

section Interrupts

variable {uc thread : Addr} {slot : Slot} {cap : Cap} {label length : Word} {s : KState}

theorem wp_requireExtraCap {post : Unit → KState → Prop} {fail : Abort → KState → Prop} :
    wp (requireExtraCaps uc 1) post fail s ↔
      (s.hasExtraCap uc → post () s) ∧
        (¬ s.hasExtraCap uc → fail (.error .truncatedMessage) s) := by
  have asked : (MessageInfo.ofWord ((s.threads.tcbs uc).context.msgInfo s.env.arch)).extraCaps < 1 ∨
      (1 ≠ 0 ∧ (s.threads.current.bind s.ipcBuffer).isNone) ↔ ¬ s.hasExtraCap uc := by
    simp only [KState.hasExtraCap, Option.isNone_iff_eq_none, Option.isSome_iff_ne_none, not_and_or,
      Nat.not_le, ne_eq, Nat.one_ne_zero, not_false_eq_true, true_and, not_not]
  simp only [requireExtraCaps, wp_bind, wp_getMsgInfo, wp_currentIpcBuffer, wp_ite, wp_raise,
    wp_pure, asked, not_not]
  exact And.comm

/-- A walk has to start at a node. -/
theorem CapStore.lookupSlotExact_cnode {cs : CapStore} {root : Cap} {cptr : Word} {depth : Nat}
    {found : Slot} (reached : cs.lookupSlotExact root cptr depth = some found) :
    ∃ ptr radix guard guardSize, root = .cnode ptr radix guard guardSize := by
  cases root <;> simp [CapStore.lookupSlotExact, CapStore.lookupSlotIn] at reached ⊢

/-- Resolving a slot answers with the slot the walk reaches, or fails. -/
theorem resolveSlot_spec (root : Cap) (index : Word) (depth : Nat) :
    wp (resolveSlot root index depth)
      (fun dest s' => s' = s ∧ ¬ (depth = 0 ∨ wordBits < depth) ∧
        s.caps.lookupSlotExact root index depth = some dest)
      (fun stop s' => s' = s ∧ stop.isFailure ∧
        ((depth = 0 ∨ wordBits < depth) ∨ s.caps.lookupSlotExact root index depth = none)) s := by
  unfold resolveSlot
  split
  · simp only [wp_ite, wp_raise, wp_bind, wp_get]
    refine ⟨fun outside => ⟨trivial, rfl, .inl outside⟩, fun inside => ?_⟩
    split
    · exact ⟨rfl, inside, ‹_›⟩
    · exact ⟨rfl, rfl, .inr ‹_›⟩
  · rename_i other
    refine ⟨rfl, rfl, .inr ?_⟩
    by_contra reached
    obtain ⟨dest, reached⟩ := Option.ne_none_iff_exists'.mp reached
    obtain ⟨ptr, radix, guard, guardSize, rfl⟩ := CapStore.lookupSlotExact_cnode reached
    exact other _ _ _ _ rfl

/-- Looking for the destination finds the empty slot that was named, or fails. -/
theorem issueDestination_spec (index : Word) (depth : Nat) :
    wp (issueDestination thread index depth)
      (fun dest s' => s' = s ∧ s.issueSlot thread index depth = some dest)
      (fun stop s' => s' = s ∧ stop.isFailure ∧ s.issueSlot thread index depth = none) s := by
  simp only [issueDestination, lookupExtraCapSlot, lookupCapOr, readExtraCap, wp_bind, wp_get,
    wp_currentIpcBufferWord]
  unfold KState.issueSlot
  cases found : s.lookupCap thread (s.currentBufferWord (122 + 0)) with
  | none => simp_all
  | some root =>
    simp only [Nat.add_zero] at found
    simp only [wp_pure]
    refine wp_mono (resolveSlot_spec root.1 index depth) (fun dest s' after => ?_)
      fun stop s' after => ?_
    · obtain ⟨rfl, inside, reached⟩ := after
      simp [inside, reached]
    · obtain ⟨rfl, failed, outside | lost⟩ := after
      · simp [failed, outside]
      · simp [failed, lost]

/-- Issuing a handler fails before it takes the interrupt. -/
theorem issueIrqHandler_atomic (irq index : Word) (depth : Nat) :
    Atomic uc (issueIrqHandler thread uc slot irq index depth) s := by
  simp only [issueIrqHandler, wp_bind, wp_get, wp_ite, wp_raise, Answered.refl, implies_true,
    true_and]
  refine ⟨fun _ => rangeError_answered _ _, fun _ _ => ?_⟩
  refine (issueDestination_readOnly _ _).checks.wp_of fun dest _ => ?_
  simp [Completes.atomic]

/-- With an empty slot to put the capability into, issuing a free interrupt does not fail. -/
theorem issueIrqHandler_completes {irq index : Word} {depth : Nat}
    (valid : s.env.arch.validIrq irq = true) (free : s.isActive irq = false)
    (home : s.issueSlot thread index depth ≠ none) :
    Completes (issueIrqHandler thread uc slot irq index depth) s := by
  simp only [issueIrqHandler, wp_bind, wp_get, wp_ite, valid, free]
  simp only [Bool.not_true, Bool.false_eq_true, false_implies, not_false_eq_true, true_and,
    forall_const]
  refine wp_mono (issueDestination_spec index depth) (fun dest s' after => ?_) fun stop s' after => ?_
  · simp
  · exact absurd after.2.2 home

/-- Without one it fails, and leaves things as they are. -/
theorem issueIrqHandler_fails {irq index : Word} {depth : Nat}
    (valid : s.env.arch.validIrq irq = true) (free : s.isActive irq = false)
    (homeless : s.issueSlot thread index depth = none) :
    wp (issueIrqHandler thread uc slot irq index depth) (fun _ _ => False)
      (fun stop s' => s' = s ∧ stop.isFailure) s := by
  simp only [issueIrqHandler, wp_bind, wp_get, wp_ite, valid, free]
  simp only [Bool.not_true, Bool.false_eq_true, false_implies, not_false_eq_true, true_and,
    forall_const]
  refine wp_mono (issueDestination_spec index depth) (fun dest s' after => ?_) fun stop s' after => ?_
  · simp [homeless] at after
  · exact ⟨after.1, after.2.1⟩

/-- Every interrupt a pin can be routed to exists. -/
theorem validIrq_userIrq {n : Nat} (small : n ≤ irqUserMax - irqUserMin) :
    Arch.x8664.validIrq (n + irqUserMin) = true := by
  simp only [irqUserMax, irqUserMin] at small
  simp [Arch.validIrq, Arch.maxIrq, irqUserMin]
  omega

/-- Only x86-64 routes pins. -/
theorem validIrq_asked (labelled : ArchInvocation.ofRaw s.env.arch label =
    some .irqIssueIrqHandlerIoapic) (vector : s.messageWord uc 6 ≤ irqUserMax - irqUserMin) :
    s.env.arch.validIrq (s.askedIrq uc) = true := by
  have arch : s.env.arch = .x8664 := by
    cases arch : s.env.arch with
    | x8664 => rfl
    | riscv64 =>
      simp only [arch, ArchInvocation.ofRaw] at labelled
      split at labelled
      · cases labelled
      · have := List.mem_of_getElem? labelled
        simp [ArchInvocation.inOrder] at this
  rw [arch]
  exact validIrq_userIrq vector

/-- Routing a pin is undone by nothing, so it may only be followed by what does not fail. -/
theorem issueIoapicIrqHandler_atomic
    (labelled : ArchInvocation.ofRaw s.env.arch label = some .irqIssueIrqHandlerIoapic)
    (sound : ¬ RoutesInVain s thread uc label length) :
    Atomic uc (issueIoapicIrqHandler thread uc slot length) s := by
  simp only [issueIoapicIrqHandler, wp_bind, wp_get, wp_getMr, wp_readMr, wp_ite, wp_raise, Answered.refl,
    implies_true, true_and]
  intro long
  rw [wp_requireExtraCap]
  refine ⟨fun extra => ?_, fun _ _ => .refl uc s⟩
  refine ⟨fun _ => rangeError_answered _ _, fun vector => ⟨fun _ => rangeError_answered _ _,
    fun ioapicId => ⟨fun _ => rangeError_answered _ _, fun pin => ⟨fun _ => rangeError_answered _ _,
      fun level => ⟨fun _ => rangeError_answered _ _, fun polarity =>
        ⟨fun _ _ => .refl uc s, fun free => ?_⟩⟩⟩⟩⟩⟩
  simp only [wp_set]
  change wp _ _ _ { s with ioapic := s.askedRouting uc }
  by_cases same : s.askedRouting uc = s.ioapic
  · have back : { s with ioapic := s.askedRouting uc } = s := by rw [same]
    rw [back]
    exact issueIrqHandler_atomic _ _ _
  · have valid := validIrq_asked labelled (Nat.le_of_not_lt vector)
    have home : s.issueSlot thread (s.messageWord uc 0) (s.messageWord uc 1 % 2 ^ 32) ≠ none := by
      intro homeless
      exact sound ⟨labelled, Nat.le_of_not_lt long, extra, Nat.le_of_not_lt vector,
        by_contra ioapicId, Nat.lt_of_not_le pin, Nat.le_of_not_lt level, Nat.le_of_not_lt polarity,
        Bool.eq_false_iff.mpr free, same, homeless⟩
    exact Completes.atomic (issueIrqHandler_completes valid (Bool.eq_false_iff.mpr free) home)

/-- A pin that is routed in vain stays routed. -/
theorem issueIoapicIrqHandler_strays (vain : RoutesInVain s thread uc label length) :
    wp (issueIoapicIrqHandler thread uc slot length) (fun _ _ => False)
      (fun stop s' => stop.isFailure ∧ s'.ioapic ≠ s.ioapic) s := by
  obtain ⟨labelled, long, extra, vector, ioapicId, pin, level, polarity, free, rerouted, homeless⟩ :=
    vain
  have valid := validIrq_asked labelled vector
  have fails : wp (issueIrqHandler thread uc slot (s.askedIrq uc) (s.messageWord uc 0)
      (s.messageWord uc 1 % 2 ^ 32)) (fun _ _ => False)
      (fun stop s' => s' = { s with ioapic := s.askedRouting uc } ∧ stop.isFailure)
      { s with ioapic := s.askedRouting uc } := issueIrqHandler_fails valid free homeless
  have wrote : wp (issueIrqHandler thread uc slot (s.askedIrq uc) (s.messageWord uc 0)
      (s.messageWord uc 1 % 2 ^ 32)) (fun _ _ => False)
      (fun stop s' => stop.isFailure ∧ s'.ioapic ≠ s.ioapic)
      { s with ioapic := s.askedRouting uc } :=
    wp_mono fails (fun _ _ => id) fun _ _ after => ⟨after.2, by rw [after.1]; exact rerouted⟩
  simp only [issueIoapicIrqHandler, wp_bind, wp_get, wp_getMr, wp_readMr, wp_ite, wp_set,
    wp_requireExtraCap]
  refine ⟨fun short => absurd long (Nat.not_le.mpr short), fun _ => ⟨fun _ => ?_, fun no =>
    absurd extra no⟩⟩
  refine ⟨fun no => absurd vector (Nat.not_le.mpr no), fun _ => ⟨fun no => absurd ioapicId no,
    fun _ => ⟨fun no => absurd pin (Nat.not_lt.mpr no), fun _ =>
      ⟨fun no => absurd level (Nat.not_le.mpr no), fun _ =>
        ⟨fun no => absurd polarity (Nat.not_le.mpr no), fun _ => ⟨fun no => ?_, fun _ => wrote⟩⟩⟩⟩⟩⟩
  exact absurd no (Bool.eq_false_iff.mp free)

theorem handleIrqControl_atomic (sound : ¬ RoutesInVain s thread uc label length) :
    Atomic uc (handleIrqControl thread uc slot label length) s := by
  simp only [handleIrqControl, wp_bind, wp_get, wp_archLabelOf]
  split
  · simp only [wp_bind, wp_getMr, wp_ite, wp_raise, Answered.refl, implies_true, true_and]
    intro _
    refine (requireExtraCaps_readOnly uc 1).checks.wp_of fun _ _ => ?_
    exact ⟨fun _ _ => .refl uc s, fun _ => issueIrqHandler_atomic _ _ _⟩
  · exact issueIoapicIrqHandler_atomic ‹_› sound
  · simp only [wp_bind, wp_ite, wp_raise, Answered.refl, implies_true, true_and]
    intro _
    exact (requireExtraCaps_readOnly uc 1).checks.wp_of fun _ _ _ => .refl uc s
  · simp

/-- A label of this machine is not one of the labels every machine has. -/
theorem InvocationLabel.ofRaw_eq_none {arch : Arch} {a : ArchInvocation}
    (labelled : ArchInvocation.ofRaw arch label = some a) : InvocationLabel.ofRaw label = none := by
  unfold ArchInvocation.ofRaw at labelled
  split at labelled
  · cases labelled
  · rename_i small
    have big : (33 : Nat) ≤ label := Nat.le_of_not_lt small
    unfold InvocationLabel.ofRaw
    split
    · rfl
    · refine List.getElem?_eq_none ?_
      simp only [InvocationLabel.inOrder, List.length_cons, List.length_nil]
      omega

theorem handleIrqControl_strays (vain : RoutesInVain s thread uc label length) :
    wp (handleIrqControl thread uc slot label length) (fun _ _ => False)
      (fun stop s' => stop.isFailure ∧ s'.ioapic ≠ s.ioapic) s := by
  simp only [handleIrqControl, wp_bind, wp_get, wp_archLabelOf, vain.labelled,
    InvocationLabel.ofRaw_eq_none vain.labelled]
  exact issueIoapicIrqHandler_strays vain

/-- Deleting a capability at once empties its slot and no other. -/
theorem cteDeleteOne_cap (x : Slot) :
    wp (cteDeleteOne x) (fun _ s' => ∀ y, s'.cap y = if y = x then .null else s.cap y)
      (fun stop _ => stop.isFailure = false) s := by
  simp only [cteDeleteOne, wp_bind, wp_get, wp_ite, wp_crash, wp_pure]
  refine ⟨fun _ => ?_, fun empty y => ?_⟩
  · refine wp_mono (wp_and (finalizeAtOnce_caps _ _ s) (finalizeAtOnce_completes _ _))
      (fun done s' after => ⟨fun _ => ?_, fun _ => rfl⟩) fun _ _ => And.right
    refine wp_mono (emptyFinalizedSlot_cap x .null s') (fun _ s'' emptied y => ?_)
      fun _ _ => False.elim
    rw [emptied.1 y, KState.cap_of_caps after.1.1.1]
  · split
    · rename_i here
      subst here
      simpa using empty
    · rfl

theorem clearNotification_cap (irq : Nat) :
    wp (clearNotification irq)
      (fun _ s' => ∀ y, y ≠ s.env.notificationSlot irq → s'.cap y = s.cap y)
      (fun stop _ => stop.isFailure = false) s := by
  simp only [clearNotification, wp_bind, wp_get, wp_ite, wp_pure, implies_true, and_true]
  intro _
  exact wp_mono (cteDeleteOne_cap _) (fun _ s' after y other => by simp [after y, other]) fun _ _ => id

/-- A notification capability is deleted unless it is the last one and names no object. -/
theorem cteDeleteOne_notification {x : Slot} {ntfn : Addr} {badge : Word} {send receive : Bool}
    (here : s.cap x = .notification ntfn badge send receive) :
    wp (cteDeleteOne x)
      (fun _ s' => s'.cap x = .null ∧
        (s.caps.isFinalCapability x = true → ntfn ≠ 0 ∧ isPspaceKva ntfn))
      (fun _ _ => ¬ (s.caps.isFinalCapability x = true → ntfn ≠ 0 ∧ isPspaceKva ntfn)) s := by
  have emptied : ∀ s', wp (emptyFinalizedSlot x .null) (fun _ s' => s'.cap x = .null)
      (fun _ _ => False) s' := fun s' =>
    wp_mono (emptyFinalizedSlot_cap x .null s') (fun _ _ after => by simp [after.1 x]) fun _ _ => id
  have live : (!(Cap.notification ntfn badge send receive).isNull) = true := rfl
  simp only [cteDeleteOne, here, live, finalizeAtOnce, wp_bind, wp_get, wp_ite, wp_crash, wp_set,
    wp_pure, true_implies, not_true_eq_false, false_implies, and_true]
  refine ⟨fun final => ⟨fun bad => ?_, fun good => ?_⟩, fun shared => ?_⟩
  · simp only [final, true_implies]
    rintro ⟨live, inside⟩
    simp [live, inside] at bad
  · have sound : ntfn ≠ 0 ∧ isPspaceKva ntfn = true := by simpa using good
    exact wp_mono (emptied _) (fun _ _ after => ⟨after, fun _ => sound⟩) fun _ _ => False.elim
  · exact wp_mono (emptied _) (fun _ _ after => ⟨after, fun final => absurd final shared⟩)
      fun _ _ => False.elim

theorem clearNotification_notification {irq : Nat} {ntfn : Addr} {badge : Word}
    {send receive : Bool} (valid : s.env.arch.validIrq irq = true)
    (here : s.cap (s.env.notificationSlot irq) = .notification ntfn badge send receive) :
    wp (clearNotification irq)
      (fun _ s' => s'.cap (s.env.notificationSlot irq) = .null ∧
        (s.caps.isFinalCapability (s.env.notificationSlot irq) = true →
          ntfn ≠ 0 ∧ isPspaceKva ntfn))
      (fun stop _ => stop.isFailure = false ∧
        ¬ (s.caps.isFinalCapability (s.env.notificationSlot irq) = true →
          ntfn ≠ 0 ∧ isPspaceKva ntfn)) s := by
  simp only [clearNotification, wp_bind, wp_get, wp_ite, wp_pure, valid, here, ne_eq, reduceCtorEq,
    not_false_eq_true, and_self, true_implies, not_true_eq_false, false_implies, and_true]
  exact wp_mono (wp_and (cteDeleteOne_completes _) (cteDeleteOne_notification here))
    (fun _ _ => And.right) fun _ _ => id

theorem KState.lookupCap_cap {cptr : Word} {found : Slot}
    (resolved : s.lookupCap thread cptr = some (cap, found)) : s.cap found = cap := by
  simp only [KState.lookupCap, Option.map_eq_some_iff, Prod.mk.injEq] at resolved
  obtain ⟨x, -, here, rfl⟩ := resolved
  exact here

/-- A binding is refused without effect, or because the old binding was the capability to bind. -/
theorem setNotification_spec (irq : Nat) {x : Slot} {ntfn : Addr} {badge : Word} {receive : Bool}
    (here : s.cap x = .notification ntfn badge true receive) :
    wp (setNotification irq ntfn badge x)
      (fun done s' => done = false → s' = s ∨ s.isActive irq = true ∧ x = s.env.notificationSlot irq ∧
        (s.caps.isFinalCapability x = true → ntfn ≠ 0 ∧ isPspaceKva ntfn))
      (fun stop _ => stop.isFailure = false) s := by
  have wanted : sameNotificationSendCap (s.cap x) ntfn badge = true := by
    simp [here, sameNotificationSendCap]
  simp only [setNotification, wp_bind, wp_get, wp_ite, wp_pure, wanted, Bool.not_true,
    Bool.false_eq_true, not_false_eq_true, true_implies, true_and, true_or,
    implies_true]
  intro active
  by_cases own : x = s.env.notificationSlot irq
  · subst own
    have active' : s.isActive irq = true := by simpa using active
    have valid : s.env.arch.validIrq irq = true := (Bool.and_eq_true_iff.mp active').1
    refine wp_mono (clearNotification_notification valid here) (fun _ s' after => ?_)
      fun _ _ => And.left
    have gone : sameNotificationSendCap (s'.cap (s.env.notificationSlot irq)) ntfn badge = false := by
      rw [after.1]
      rfl
    rw [gone]
    exact ⟨fun _ => .inr ⟨active', rfl, after.2⟩, fun no => absurd rfl no⟩
  · refine wp_mono (clearNotification_cap irq) (fun _ s' after => ?_) fun _ _ => id
    rw [after x own, wanted]
    simp

theorem handleIrqHandler_atomic {irq : Nat} (sound : ¬ UnbindsInVain s thread uc irq label) :
    Atomic uc (handleIrqHandler thread uc (.irqHandler irq) label) s := by
  unfold handleIrqHandler
  split
  · simp
  · rename_i labelled same
    cases same
    simp only [wp_bind, wp_requireExtraCap, lookupExtraCapSlot, lookupCapOr, readExtraCap, wp_get,
      wp_currentIpcBufferWord]
    refine ⟨fun extra => ?_, fun _ _ => .refl uc s⟩
    cases found : s.lookupCap thread (s.currentBufferWord (122 + 0)) with
    | none => simp
    | some pair =>
      obtain ⟨ntfnCap, ntfnSlot⟩ := pair
      have stored := KState.lookupCap_cap found
      simp only [wp_pure]
      split
      · rename_i ntfn badge receive
        rw [wp_bind]
        refine wp_mono (setNotification_spec irq stored) (fun done s' after => ?_) fun _ _ no yes => ?_
        · simp only [wp_ite, wp_raise, wp_pure, implies_true, and_true]
          intro refused _
          rcases after (by simpa using refused) with rfl | ⟨active, same, sound'⟩
          · exact .refl uc _
          · subst same
            exact absurd ⟨labelled, extra, active, ntfn, badge, receive, found, sound'⟩ sound
        · simp [no] at yes
      · simp
  · exact Completes.atomic (by simp)
  · simp

/-- A binding that is dropped in vain stays dropped. -/
theorem handleIrqHandler_strays {irq : Nat} (vain : UnbindsInVain s thread uc irq label) :
    wp (handleIrqHandler thread uc (.irqHandler irq) label) (fun _ _ => False)
      (fun stop s' => stop.isFailure ∧ s'.cap (s.env.notificationSlot irq) ≠
        s.cap (s.env.notificationSlot irq)) s := by
  obtain ⟨labelled, extra, active, ntfn, badge, receive, found, sound⟩ := vain
  have here := KState.lookupCap_cap found
  have valid : s.env.arch.validIrq irq = true := (Bool.and_eq_true_iff.mp active).1
  have wanted : sameNotificationSendCap (s.cap (s.env.notificationSlot irq)) ntfn badge = true := by
    simp [here, sameNotificationSendCap]
  have found' : s.lookupCap thread (s.currentBufferWord (122 + 0)) = _ := found
  simp only [handleIrqHandler, labelled, wp_bind, wp_requireExtraCap, lookupExtraCapSlot, lookupCapOr,
    readExtraCap, wp_get, wp_currentIpcBufferWord, found', wp_pure, setNotification, wp_ite, active,
    wanted]
  refine ⟨fun _ => ⟨fun no => absurd no (by decide), fun _ => ⟨fun no => absurd no (by decide),
    fun _ => ?_⟩⟩, fun no => absurd extra no⟩
  refine wp_mono (clearNotification_notification valid here) (fun _ s' after => ?_)
    fun _ _ no => absurd sound no.2
  have gone : sameNotificationSendCap (s'.cap (s.env.notificationSlot irq)) ntfn badge = false := by
    rw [after.1]
    rfl
  rw [gone]
  refine ⟨fun _ => ⟨fun _ => ⟨rfl, ?_⟩, fun no => absurd rfl no⟩, fun no => absurd rfl no⟩
  rw [after.1, here]
  intro same
  cases same

/-- A failure that leaves a change behind is not atomic. -/
theorem Atomic.not_stray {α : Type} {prog : Kern α} {changed : KState → Prop}
    (atomic : Atomic uc prog s)
    (strays : wp prog (fun _ _ => False) (fun stop s' => stop.isFailure ∧ changed s') s)
    (kept : ∀ s', Answered uc s s' → ¬ changed s') : False := by
  obtain ⟨stop, s', run, failed, change⟩ := exists_error_of_wp strays
  exact kept s' (error_of_wp atomic run failed) change

/-- A failed invocation has done nothing unless it routes a pin or drops a binding in vain. -/
theorem invoke_fails_atomically (s : KState) (thread uc : Addr) (slot : Slot) (cap : Cap)
    (label length : Word) :
    (∀ e s', invoke thread uc slot cap label length s = .error (.error e) s' → e ≠ .preempted →
      Answered uc s s') ↔
    ¬ (cap = .irqControl ∧ RoutesInVain s thread uc label length) ∧
      ∀ irq, cap = .irqHandler irq → ¬ UnbindsInVain s thread uc irq label := by
  rw [← atomic_iff]
  refine ⟨fun atomic => ⟨?_, ?_⟩, fun ⟨routes, unbinds⟩ => ?_⟩
  · rintro ⟨rfl, vain⟩
    exact Atomic.not_stray atomic (handleIrqControl_strays vain) fun s' answered changed =>
      changed answered.ioapic
  · rintro irq rfl vain
    exact Atomic.not_stray atomic (handleIrqHandler_strays vain) fun s' answered changed =>
      changed (by rw [KState.cap, answered.caps, KState.cap])
  · unfold invoke
    split
    · exact handleUntyped_atomic
    · exact handleCnode_atomic
    · exact handleFrame_atomic
    · exact handlePageTable_atomic
    · exact handleThread_atomic
    · simp
    · exact handleDomain_atomic
    · exact handleAsidControl_atomic
    · exact handleAsidPool_atomic
    · exact handleIrqControl_atomic fun vain => routes ⟨rfl, vain⟩
    · exact handleIrqHandler_atomic (unbinds _ rfl)
    · simp only [wp_bind, wp_get, wp_ite, wp_raise, Answered.refl, implies_true, and_true]
      exact fun _ => handleIoPortControl_atomic
    · simp only [wp_bind, wp_get, wp_ite, wp_raise, Answered.refl, implies_true, and_true]
      exact fun _ => handleIoPort_atomic
    · simp

end Interrupts

/--
A thread about to route a pin.

Its space is one node of sixteen slots, with the interrupt control capability in the first and the
node itself in the second; it names the first, which is taken, as the destination.
-/
def routingCaller : KState where
  env :=
    { arch := .x8664, idleTcb := 1024, irqNode := 2048, bootPtPool := 2 ^ 20, ioapicPins := 24,
      fuel := 8 }
  caps :=
    { ctes := fun slot =>
        if slot = tcbSlot 4096 tcbCTableSlot then { cap := .cnode 65536 4 0 60 }
        else if slot = slotAt 65536 1 then { cap := .irqControl }
        else if slot = slotAt 65536 2 then { cap := .cnode 65536 4 0 60 }
        else {} }
  threads :=
    { current := some 4096
      tcbs := fun tcb =>
        if tcb = 4096 then
          { state := .running, ipcBuffer := some 32768
            context := (((UserContext.init .x8664).setMsgInfo .x8664 (2 ^ 7 + 7)).setMr .x8664 0 1).setMr
              .x8664 1 64 }
        else {} }
  buffers := fun buffer i => if buffer = 32768 ∧ i = 122 then 2 else 0

/-- The call answers that the destination is taken, yet the pin is routed to the interrupt. -/
theorem getIoapic_routes_before_failing :
    ∃ s', invoke 4096 4096 (slotAt 65536 1) .irqControl 51 7 routingCaller =
        .error (.error .deleteFirst) s' ∧
      routingCaller.ioapic.routes 16 = none ∧ s'.ioapic.routes 16 = some 0 ∧
      ¬ Answered 4096 routingCaller s' := by
  refine ⟨_, rfl, rfl, by decide +kernel, fun answered => ?_⟩
  exact absurd (congrFun (congrArg Ioapic.routes answered.ioapic) 16) (by decide +kernel)

end Rel4
