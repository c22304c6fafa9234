import Rel4.Proof.Rules
import Rel4.Proof.QueueOps

/-! Restarted threads: where they go on, and whether the call they were stopped in runs again. -/

namespace Rel4

open Lib

section Contexts

/-- Nobody's saved registers have changed. -/
structure Threads.SameContexts (th th' : Threads) : Prop where
  context : ∀ t, (th'.tcbs t).context = (th.tcbs t).context

variable {env : Env} {th th' th'' : Threads}

namespace Threads.SameContexts

theorem refl (th : Threads) : th.SameContexts th := ⟨fun _ => rfl⟩

theorem trans (first : th.SameContexts th') (second : th'.SameContexts th'') : th.SameContexts th'' :=
  ⟨fun t => (second.context t).trans (first.context t)⟩

theorem of_tcbs (same : th'.tcbs = th.tcbs) : th.SameContexts th' := ⟨fun t => by rw [same]⟩

theorem updTcb {t : Addr} {change : Tcb → Tcb}
    (same : (change (th.tcbs t)).context = (th.tcbs t).context) : th.SameContexts (th.updTcb t change) := by
  refine ⟨fun u => ?_⟩
  by_cases here : u = t
  · subst here
    simpa [Threads.updTcb] using same
  · simp [Threads.updTcb, here]

theorem clearLinks (th : Threads) (t : Addr) : th.SameContexts (th.clearLinks t) := of_tcbs rfl

theorem cancelWaiter (env : Env) (th : Threads) (t : Addr) : th.SameContexts (th.cancelWaiter env t) := by
  have same : (th.tcbs t).cancelEndpointWaiter.1.context = (th.tcbs t).context := by
    unfold Tcb.cancelEndpointWaiter Tcb.clearEndpointIpcStatePreservingFault
    simp only
    split
    · rfl
    split
    · split <;> rfl
    · rfl
  have changed : th.SameContexts
      ((th.clearLinks t).updTcb t fun _ => (th.tcbs t).cancelEndpointWaiter.1) :=
    (clearLinks th t).trans (updTcb same)
  unfold Threads.cancelWaiter
  simp only
  split
  · exact changed.trans (of_tcbs enqueue_tcbs)
  · exact changed

theorem cancelWaiters (env : Env) (steps : Nat) (head : Option Addr) (th : Threads) :
    th.SameContexts (Threads.cancelWaiters env steps head th) := by
  induction steps generalizing head th with
  | zero => exact refl th
  | succ steps ih =>
    cases head with
    | none => exact refl th
    | some t => exact (cancelWaiter env th t).trans (ih _ _)

theorem epFinalize (env : Env) (th : Threads) (ep : Addr) : th.SameContexts (th.epFinalize env ep) :=
  (of_tcbs rfl : th.SameContexts (th.updEp ep fun _ => {})).trans (cancelWaiters ..)

theorem sortSenders (badge : Word) (steps : Nat) (head : Option Addr) (th : Threads)
    (keep wake : QueueEnds) :
    th.SameContexts (Threads.sortSenders badge steps head th keep wake).1 := by
  induction steps generalizing head th keep wake with
  | zero => exact refl th
  | succ steps ih =>
    cases head with
    | none => exact refl th
    | some t =>
      unfold Threads.sortSenders
      simp only
      split
      · refine trans ?_ (ih ..)
        exact of_tcbs rfl
      · refine trans ?_ (ih ..)
        exact of_tcbs rfl

theorem wakeSenders (env : Env) (steps : Nat) (wake : QueueEnds) (th : Threads) :
    th.SameContexts (Threads.wakeSenders env steps wake th) := by
  induction steps generalizing wake th with
  | zero => exact refl th
  | succ steps ih =>
    unfold Threads.wakeSenders
    split
    · exact refl th
    · rename_i t links wake _
      have left : th.SameContexts { th with links } := of_tcbs rfl
      exact (left.trans (cancelWaiter env _ t)).trans (ih _ _)

theorem cancelBadgedSends (env : Env) (th : Threads) (ep : Addr) (badge : Word) :
    th.SameContexts (th.cancelBadgedSends env ep badge) := by
  unfold Threads.cancelBadgedSends
  split
  · exact refl th
  · have detached : th.SameContexts (th.updEp ep fun _ => {}) := of_tcbs rfl
    have sorted := detached.trans
      (sortSenders badge walkLimit (th.eps ep).ends.head (th.updEp ep fun _ => {}) {} {})
    simp only
    generalize Threads.sortSenders badge walkLimit (th.eps ep).ends.head (th.updEp ep fun _ => {}) {} {} =
      result at sorted
    refine (sorted.trans ?_).trans (wakeSenders ..)
    split
    · exact of_tcbs rfl
    · exact refl _

theorem restartWaiters (env : Env) (steps : Nat) (head : Option Addr) (th : Threads) :
    th.SameContexts (Threads.restartWaiters env steps head th) := by
  induction steps generalizing head th with
  | zero => exact refl th
  | succ steps ih =>
    cases head with
    | none => exact refl th
    | some t =>
      have changed : th.SameContexts
          ((th.clearLinks t).updTcb t Tcb.restartNotificationWaiter) :=
        (clearLinks th t).trans (updTcb rfl)
      exact (changed.trans (of_tcbs enqueue_tcbs)).trans (ih _ _)

theorem clearBoundNotificationIf (th : Threads) (t ntfn : Addr) :
    th.SameContexts (th.clearBoundNotificationIf t ntfn) := by
  unfold Threads.clearBoundNotificationIf
  split
  · exact updTcb rfl
  · exact refl th

theorem ntfnFinalize (env : Env) (th : Threads) (ntfn : Addr) :
    th.SameContexts (th.ntfnFinalize env ntfn) := by
  have rest : ∀ unbound : Threads, unbound.SameContexts
      (if (unbound.ntfns ntfn).state = .waiting then
        Threads.restartWaiters env walkLimit (unbound.ntfns ntfn).ends.head
          (unbound.updNtfn ntfn fun n => { n with ends := {}, state := .idle })
      else unbound) := by
    intro unbound
    split
    · refine trans ?_ (restartWaiters ..)
      exact of_tcbs rfl
    · exact refl unbound
  have unbound : th.SameContexts (th.updNtfn ntfn fun n => { n with boundTcb := none }) := of_tcbs rfl
  refine SameContexts.trans ?_ (rest _)
  split
  · split
    · exact unbound.trans (clearBoundNotificationIf ..)
    · exact unbound
  · exact unbound

theorem unlinkFromWaitObject (th : Threads) (t : Addr) : th.SameContexts (th.unlinkFromWaitObject t) := by
  refine ⟨fun u => ?_⟩
  rw [unlinkFromWaitObject_tcbs]
  by_cases here : u = t
  · subst here
    rw [Function.update_self]
    unfold withdrawn
    split <;> rfl
  · rw [Function.update_of_ne here]

end Threads.SameContexts

/-- The same in a state, which also stays on its machine. -/
def SameRegisters (s s' : KState) : Prop := s'.env = s.env ∧ s.threads.SameContexts s'.threads

instance : IsPreorder KState SameRegisters where
  refl _ := ⟨rfl, .refl _⟩
  trans _ _ _ first second := ⟨second.1.trans first.1, first.2.trans second.2⟩

theorem cteDeleteOne_registers (slot : Slot) (s : KState) :
    Follows SameRegisters (cteDeleteOne slot) s := by
  have once : ∀ cap isFinal, Follows SameRegisters (finalizeAtOnce cap isFinal) s := by
    intro cap isFinal
    unfold Follows finalizeAtOnce
    cases cap <;> simp only [wp_bind, wp_get, wp_pure, wp_ite, wp_set, wp_crash] <;>
      simp [SameRegisters, Threads.SameContexts.refl, Threads.SameContexts.epFinalize,
        Threads.SameContexts.ntfnFinalize]
  unfold Follows cteDeleteOne
  simp only [wp_bind, wp_get, wp_ite, wp_crash, wp_pure]
  refine ⟨fun _ => ?_, fun _ => refl_of SameRegisters s⟩
  refine (once _ _).wp_of (refl_of SameRegisters s) (fun done s' _ sofar => ?_) fun _ _ => id
  simp only [emptyFinalizedSlot, postCapDeletion, wp_bind, wp_get, wp_ite, wp_set, wp_pure]
  exact ⟨fun _ => ⟨fun _ => sofar, fun _ => sofar⟩, fun _ => sofar⟩

theorem cancelBlockedOnReply_registers (t : Addr) (s : KState) :
    Follows SameRegisters (cancelBlockedOnReply t) s := by
  unfold Follows cancelBlockedOnReply
  simp only [wp_bind, wp_modifyTcb, wp_get]
  have sofar : SameRegisters s { s with threads := s.threads.updTcb t Tcb.clearFault } :=
    ⟨rfl, .updTcb rfl⟩
  split
  · exact (cteDeleteOne_registers _ _).after sofar
  · exact sofar

theorem resume_registers (t : Addr) (s : KState) : Follows SameRegisters (resume t) s := by
  unfold Follows resume
  simp only [wp_bind, wp_get, wp_ite, wp_modifyThreads, wp_modifyTcb, wp_pure]
  refine ⟨fun _ => ?_, fun _ => refl_of SameRegisters s⟩
  have left : SameRegisters s { s with threads := s.threads.unlinkFromWaitObject t } :=
    ⟨rfl, .unlinkFromWaitObject ..⟩
  refine (cancelBlockedOnReply_registers t _).wp_of left (fun _ s' _ sofar => ?_) fun _ _ => id
  have restart : ∀ s₁ : KState, SameRegisters s s₁ → SameRegisters s { s₁ with
      threads := (s₁.threads.updTcb t fun t => { t with state := .restart }).enqueue s.env t } :=
    fun s₁ sofar => ⟨sofar.1, (sofar.2.trans (.updTcb rfl)).trans (.of_tcbs Threads.enqueue_tcbs)⟩
  simp only [setupReplyMaster, wp_bind, wp_get, wp_ite, wp_set, wp_pure]
  exact ⟨fun _ => restart _ sofar, fun _ => restart _ sofar⟩

end Contexts

section Restart

variable {arch : Arch} {addr : Word} {s s' : KState} {t : Addr}

/-- The registers are still those saved when the system call at an address trapped. -/
def UserContext.CalledAt (arch : Arch) (addr : Word) (uc : UserContext) : Prop :=
  ∃ user : UserContext, uc = (user.saveSyscall arch addr).enter arch .syscall

/--
The thread was stopped in the system call at an address.

It is blocked there, or it made a call that may not be replied to and was deactivated.
-/
inductive Tcb.StoppedIn (arch : Arch) (addr : Word) : Tcb → Prop
  | blocked {tcb : Tcb} (called : tcb.context.CalledAt arch addr)
      (state : tcb.state = .blockedOnSend ∨ tcb.state = .blockedOnReceive ∨
        tcb.state = .blockedOnReply ∨ tcb.state = .blockedOnNotification) : StoppedIn arch addr tcb
  | refused {tcb : Tcb} (called : tcb.context.CalledAt arch addr) :
    StoppedIn arch addr (tcb.finishCallSenderAfterRendezvous false)
  | refusedQueued {tcb : Tcb} (called : tcb.context.CalledAt arch addr) :
    StoppedIn arch addr tcb.deactivateQueuedCallSender

/-- What makes threads restart. -/
inductive Restarts (t : Addr) (s s' : KState) : Prop
  | endpoint (ep : Addr) (eq : s' = { s with threads := s.threads.epFinalize s.env ep })
  | notification (ntfn : Addr) (eq : s' = { s with threads := s.threads.ntfnFinalize s.env ntfn })
  | badge (ep : Addr) (badge : Word)
      (eq : s' = { s with threads := s.threads.cancelBadgedSends s.env ep badge })
  | resume (run : resume t s = .ok () s')

theorem Restarts.registers (restarts : Restarts t s s') : SameRegisters s s' := by
  cases restarts with
  | endpoint ep eq => exact eq ▸ ⟨rfl, .epFinalize ..⟩
  | notification ntfn eq => exact eq ▸ ⟨rfl, .ntfnFinalize ..⟩
  | badge ep badge eq => exact eq ▸ ⟨rfl, .cancelBadgedSends ..⟩
  | resume run =>
    have follows := resume_registers t s
    unfold Follows wp at follows
    rw [run] at follows
    exact follows

namespace UserContext

variable {uc uc' : UserContext}

/-- The copies the entry code makes on x86-64, and its mark. -/
theorem saveSyscall_copies (user : UserContext) (addr : Word) :
    (user.saveSyscall .x8664 addr).regs 14 = (addr + 2) % 2 ^ 64 ∧
      (user.saveSyscall .x8664 addr).regs 15 = 2 ^ 64 - 1 := by
  simp only [saveSyscall]
  generalize (addr + 2) % 2 ^ 64 = next
  simp [setReg]

theorem enter_regs (arch : Arch) (trap : Trap) (uc : UserContext) : (uc.enter arch trap).regs = uc.regs := by
  unfold enter
  split <;> rfl

/-- The next instruction is another one. -/
theorem next_ne (small : addr < 2 ^ 64) : (addr + 2) % 2 ^ 64 ≠ addr := by
  have moves : ∀ n : Nat, n < 2 ^ 64 → (n + 2) % 2 ^ 64 ≠ n := by
    intro n small same
    omega
  exact moves addr small

/-- With the copies in place the exit code of x86-64 does not go back to the call. -/
theorem CalledAt.leaves (called : uc.CalledAt .x8664 addr) (small : addr < 2 ^ 64)
    (regs : uc'.regs = uc.regs) : uc'.loadedPc .x8664 ≠ addr := by
  obtain ⟨user, rfl⟩ := called
  obtain ⟨next, mark⟩ := saveSyscall_copies user addr
  rw [enter_regs] at regs
  rw [loadedPc, regs, next, mark, if_pos rfl]
  exact next_ne small

/-- On RISC-V the saved restart address is that of the call. -/
theorem CalledAt.restarted (called : uc.CalledAt arch addr) (small : addr < 2 ^ 64)
    (regs : uc'.regs = uc.regs) (pc : uc'.pc = uc.restartPc) :
    uc'.loadedPc arch = addr ↔ arch = .riscv64 := by
  cases arch with
  | riscv64 =>
    have back : uc.restartPc = addr := by
      obtain ⟨user, rfl⟩ := called
      rfl
    exact iff_of_true (pc.trans back) rfl
  | x8664 => exact iff_of_false (called.leaves small regs) nofun

/-- Stepping back undoes the step over the call on RISC-V. -/
theorem CalledAt.rewound (called : uc.CalledAt arch addr) (small : addr < 2 ^ 64)
    (regs : uc'.regs = uc.rewindPc.regs) (pc : uc'.pc = uc.rewindPc.restartPc) :
    uc'.loadedPc arch = addr ↔ arch = .riscv64 := by
  cases arch with
  | riscv64 =>
    have back : uc.rewindPc.restartPc = addr := by
      have stepped : uc.pc = (addr + 4) % 2 ^ 64 := by
        obtain ⟨user, rfl⟩ := called
        simp only [saveSyscall, enter]
      rw [rewindPc_of_stepped uc small stepped]
    exact iff_of_true (pc.trans back) rfl
  | x8664 =>
    have kept : uc.rewindPc.regs = uc.regs := by
      obtain ⟨pc, -, eq⟩ := uc.rewindPc_eq
      rw [eq]
    exact iff_of_false (called.leaves small (regs.trans kept)) nofun

end UserContext

/--
A thread that was stopped in a system call and is restarted begins that call again when it is next
restored, exactly if the machine is a RISC-V one.
-/
theorem restarted_call_runs_again_iff (small : addr < 2 ^ 64)
    (stopped : (s.threads.tcbs t).StoppedIn s.env.arch addr) (restarts : Restarts t s s')
    (restart : (s'.threads.tcbs t).state = .restart) {th : Threads}
    (later : th.tcbs t = s'.threads.tcbs t) :
    ((th.resumeUser t).tcbs t).context.loadedPc s.env.arch = addr ↔ s.env.arch = .riscv64 := by
  have same := restarts.registers.2.context t
  have restored : ((th.resumeUser t).tcbs t).context =
      { (s.threads.tcbs t).context with pc := (s.threads.tcbs t).context.restartPc } := by
    simp [Threads.resumeUser, Threads.updTcb, Tcb.prepareForUserRestore, later, restart, same]
  have regs : ((th.resumeUser t).tcbs t).context.regs = (s.threads.tcbs t).context.regs := by
    rw [restored]
  have pc : ((th.resumeUser t).tcbs t).context.pc = (s.threads.tcbs t).context.restartPc := by
    rw [restored]
  generalize s.threads.tcbs t = tcb at stopped regs pc
  generalize ((th.resumeUser t).tcbs t).context = after at regs pc
  cases stopped with
  | blocked called _ => exact called.restarted small regs pc
  | @refused tcb called =>
    have context : (tcb.finishCallSenderAfterRendezvous false).context = tcb.context.rewindPc := by
      simp only [Tcb.finishCallSenderAfterRendezvous, Bool.false_eq_true, if_false]
    rw [context] at regs pc
    exact called.rewound small regs pc
  | @refusedQueued tcb called =>
    have context : tcb.deactivateQueuedCallSender.context = tcb.context.rewindPc := by
      simp only [Tcb.deactivateQueuedCallSender]
    rw [context] at regs pc
    exact called.rewound small regs pc

/-- A thread that waits for the reply to the call it made at address 4000. -/
def waitingCaller (arch : Arch) : KState where
  env := { arch, idleTcb := 1024, irqNode := 2048, bootPtPool := 2 ^ 20, ioapicPins := 24, fuel := 8 }
  threads :=
    { current := some 8192
      tcbs := fun tcb =>
        if tcb = 4096 then
          { state := .blockedOnReply
            context := ((UserContext.init arch).saveSyscall arch 4000).enter arch .syscall }
        else {} }

/-- Resumed on a RISC-V machine, it makes the call again. -/
theorem restarted_call_runs_again_once :
    ∃ s', resume 4096 (waitingCaller .riscv64) = .ok () s' ∧
      ((s'.threads.resumeUser 4096).tcbs 4096).context.loadedPc .riscv64 = 4000 :=
  ⟨_, rfl, (restarted_call_runs_again_iff (s := waitingCaller .riscv64) (by decide)
    (.blocked ⟨UserContext.init .riscv64, rfl⟩ (.inr (.inr (.inl rfl)))) (.resume rfl) rfl rfl).mpr rfl⟩

/-- Resumed on an x86-64 machine, it goes on behind the call as if that had been answered. -/
theorem restarted_call_skipped :
    ∃ s', resume 4096 (waitingCaller .x8664) = .ok () s' ∧
      (s'.threads.tcbs 4096).state = .restart ∧
      ((s'.threads.resumeUser 4096).tcbs 4096).context.loadedPc .x8664 = 4002 :=
  ⟨_, rfl, rfl, by decide +kernel⟩

end Restart

section Transparency

variable {s : KState} {t : Addr}

/-- Suspending a thread that nobody can reply to stops it, and touches no other field of it. -/
theorem wp_suspend {post : Unit → KState → Prop} {fail : Abort → KState → Prop}
    (user : t ≠ s.env.idleTcb) (alone : (s.mdb (tcbSlot t tcbReply)).next = none)
    (ok : ∀ s' : KState, s'.env = s.env → s'.caps = s.caps → (s'.threads.tcbs t).state = .inactive →
      (s'.threads.tcbs t).context = (s.threads.tcbs t).context → post () s') :
    wp (suspend t) post fail s := by
  have awake : Threads.isIdleThread s.env t = false := by simpa [Threads.isIdleThread] using user
  have alone' : ∀ th, ({ s with threads := th } : KState).mdb (tcbSlot t tcbReply) =
      s.mdb (tcbSlot t tcbReply) := fun _ => rfl
  simp only [suspend, cancelBlockedOnReply, wp_bind, wp_get, wp_ite, awake, wp_modifyThreads,
    wp_modifyTcb, alone', alone, wp_pure]
  refine ⟨fun _ => ok _ rfl rfl ?_ ?_, fun no => absurd rfl no⟩
  · simp [Threads.updTcb]
  · have left := (Threads.SameContexts.unlinkFromWaitObject s.threads t).context t
    simpa [Threads.updTcb, Tcb.clearFault] using left

/-- Resuming such a thread lets it restart, and touches no other field of it. -/
theorem wp_resume {post : Unit → KState → Prop} {fail : Abort → KState → Prop}
    (user : t ≠ s.env.idleTcb) (stopped : (s.threads.tcbs t).state = .inactive)
    (alone : (s.mdb (tcbSlot t tcbReply)).next = none)
    (ok : ∀ s' : KState, (s'.threads.tcbs t).state = .restart →
      (s'.threads.tcbs t).context = (s.threads.tcbs t).context → post () s') :
    wp (resume t) post fail s := by
  have awake : Threads.isIdleThread s.env t = false := by simpa [Threads.isIdleThread] using user
  have alone' : ∀ th, ({ s with threads := th } : KState).mdb (tcbSlot t tcbReply) =
      s.mdb (tcbSlot t tcbReply) := fun _ => rfl
  have left := (Threads.SameContexts.unlinkFromWaitObject s.threads t).context t
  simp only [resume, cancelBlockedOnReply, setupReplyMaster, wp_bind, wp_get, wp_ite, awake, stopped,
    wp_modifyThreads, wp_modifyTcb, alone', alone, wp_pure, wp_set]
  refine ⟨fun _ => ⟨fun _ => ok _ ?_ ?_, fun _ => ok _ ?_ ?_⟩, fun no => absurd rfl no⟩
  · simp [Threads.updTcb]
  · simpa [Threads.updTcb, Tcb.clearFault] using left
  · simp [Threads.updTcb]
  · simpa [Threads.updTcb, Tcb.clearFault] using left

/--
Suspending and resuming a running thread that nobody can reply to leaves it to be restored with the
registers it would have had, exactly if its restart address is its program counter.
-/
theorem suspend_resume_transparent_iff (user : t ≠ s.env.idleTcb)
    (running : (s.threads.tcbs t).state = .running)
    (alone : (s.mdb (tcbSlot t tcbReply)).next = none) :
    wp (do suspend t; resume t)
      (fun _ s' => ∀ th th' : Threads, th.tcbs t = s.threads.tcbs t → th'.tcbs t = s'.threads.tcbs t →
        (((th'.resumeUser t).tcbs t).context = ((th.resumeUser t).tcbs t).context ↔
          (s.threads.tcbs t).context.restartPc = (s.threads.tcbs t).context.pc))
      (fun _ _ => False) s := by
  rw [wp_bind]
  refine wp_suspend user alone fun s₁ env caps stopped same => ?_
  have alone₁ : (s₁.mdb (tcbSlot t tcbReply)).next = none := by
    rw [KState.mdb, caps]
    exact alone
  refine wp_resume (env ▸ user) stopped alone₁ fun s' restart same' th th' before after => ?_
  have plain : ((th.resumeUser t).tcbs t).context = (s.threads.tcbs t).context := by
    simp [Threads.resumeUser, Threads.updTcb, Tcb.prepareForUserRestore, before, running]
  have restarted : ((th'.resumeUser t).tcbs t).context =
      { (s.threads.tcbs t).context with pc := (s.threads.tcbs t).context.restartPc } := by
    simp [Threads.resumeUser, Threads.updTcb, Tcb.prepareForUserRestore, after, restart, same', same]
  rw [plain, restarted]
  constructor
  · intro equal
    exact congrArg UserContext.pc equal
  · intro equal
    rw [equal]

/-- A thread that is to run on at an address, and whose last trap was at address 4000. -/
def runningThread (pc : Word) : KState where
  env :=
    { arch := .riscv64, idleTcb := 1024, irqNode := 2048, bootPtPool := 2 ^ 20, ioapicPins := 0,
      fuel := 8 }
  threads :=
    { current := some 8192
      tcbs := fun tcb =>
        if tcb = 4096 then
          { state := .running, context := { UserContext.init .riscv64 with pc, restartPc := 4000 } }
        else {} }

/-- If the timer preempted it there, nobody can tell that it was suspended. -/
theorem suspend_resume_transparent_once :
    ∃ s', (do suspend 4096; resume 4096 : Kern Unit) (runningThread 4000) = .ok () s' ∧
      ((s'.threads.resumeUser 4096).tcbs 4096).context =
        (((runningThread 4000).threads.resumeUser 4096).tcbs 4096).context := by
  have outcome := suspend_resume_transparent_iff (s := runningThread 4000) (t := 4096) (by decide)
    rfl rfl
  obtain ⟨_, s', run, same⟩ := exists_ok_of_wp outcome
  exact ⟨s', run, (same _ _ rfl rfl).mpr rfl⟩

/-- If it has completed a system call there, it makes that call once more. -/
theorem suspended_call_repeated :
    ∃ s', (do suspend 4096; resume 4096 : Kern Unit) (runningThread 4004) = .ok () s' ∧
      ((s'.threads.resumeUser 4096).tcbs 4096).context.pc = 4000 ∧
      (((runningThread 4004).threads.resumeUser 4096).tcbs 4096).context.pc = 4004 :=
  ⟨_, rfl, rfl, rfl⟩

end Transparency

end Rel4
