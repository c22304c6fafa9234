import Mathlib.Tactic.IntervalCases
import Rel4.Proof.Restart

/-! Replies to faults: which registers they set, and where the thread goes on. -/

namespace Rel4

open Lib

section Layout

/-- What a word of the message for an unknown system call stands for. -/
inductive LayoutWord
  | reg (index : Nat)
  | faultIp
  | syscall
deriving DecidableEq

/-- The layout of that message, as the kernel writes it. -/
def Arch.unknownSyscallLayout : Arch → List LayoutWord
  | riscv64 => .faultIp :: [2, 1, 10, 11, 12, 13, 14, 15, 16].map .reg ++ [.syscall]
  | x8664 =>
    [2, 3, 19, 8, 1, 0, 4, 10, 11, 9, 18, 5, 6, 7, 12].map .reg ++
      [.faultIp, .reg 16, .reg 13, .syscall]

/-- What stands at a position of the message of a thread. -/
def LayoutWord.value (arch : Arch) (uc : UserContext) (sysno : Word) : LayoutWord → Word
  | reg index => uc.regs index
  | faultIp =>
    match arch with
    | .riscv64 => uc.restartPc
    | .x8664 => uc.pc
  | syscall => sysno

theorem unknownSyscallMrs_layout (arch : Arch) (uc : UserContext) (sysno : Word) :
    uc.unknownSyscallMrs arch sysno = arch.unknownSyscallLayout.map (LayoutWord.value arch uc sysno) := by
  cases arch <;> rfl

/-- The registers an address is mirrored in when the program counter is written. -/
def Arch.faultIpCopies : Arch → List Nat
  | riscv64 => []
  | x8664 => [14, 17]

/-- The layout and the table of the reply agree, but for the register whose number is the mark of a
position that is none. -/
theorem layout_reg_iff {arch : Arch} {i reg : Nat} :
    arch.unknownSyscallLayout[i]? = some (.reg reg) ↔
      (arch.unknownSyscallReplyRegs[i]? = some reg ∧ i ≠ arch.unknownSyscallFaultIpMr ∧ reg ≠ 0) ∨
        (arch = .x8664 ∧ i = 5 ∧ reg = 0) := by
  -- Neither list has more than nineteen words; up to there the tables are compared.
  by_cases small : i < 19
  · cases arch <;> interval_cases i <;>
      simp [Arch.unknownSyscallLayout, Arch.unknownSyscallReplyRegs, Arch.unknownSyscallFaultIpMr] <;>
      omega
  · have far : arch.unknownSyscallLayout.length ≤ i ∧ arch.unknownSyscallReplyRegs.length ≤ i := by
      cases arch <;> simp [Arch.unknownSyscallLayout, Arch.unknownSyscallReplyRegs] <;> omega
    rw [List.getElem?_eq_none far.1, List.getElem?_eq_none far.2]
    simp
    omega

theorem layout_faultIp_iff {arch : Arch} {i : Nat} :
    arch.unknownSyscallLayout[i]? = some .faultIp ↔ i = arch.unknownSyscallFaultIpMr := by
  by_cases small : i < 19
  · cases arch <;> interval_cases i <;>
      simp [Arch.unknownSyscallLayout, Arch.unknownSyscallFaultIpMr]
  · have far : arch.unknownSyscallLayout.length ≤ i := by
      cases arch <;> simp [Arch.unknownSyscallLayout] <;> omega
    rw [List.getElem?_eq_none far]
    cases arch <;> simp [Arch.unknownSyscallFaultIpMr] <;> omega

end Layout

section Writes

variable {arch : Arch} {uc : UserContext} {values : List (Nat × Word)} {reg : Nat} {value pc : Word}

theorem write_cons (first : Nat × Word) :
    uc.write arch none (first :: values) = (uc.setReg first.1 first.2).write arch none values := rfl

/-- The program counter is written before the registers. -/
theorem write_some : uc.write arch (some pc) values = (uc.applyWrittenPc arch pc).write arch none values :=
  rfl

/-- Writing registers one after the other leaves the others alone. -/
theorem write_regs_of_notMem (absent : reg ∉ values.map Prod.fst) :
    (uc.write arch none values).regs reg = uc.regs reg := by
  induction values generalizing uc with
  | nil => rfl
  | cons first rest ih =>
    simp only [List.map_cons, List.mem_cons, not_or] at absent
    -- The first register is another one, and so are the rest.
    rw [write_cons, ih absent.2]
    simp [UserContext.setReg, absent.1]

/-- A register that is written once holds what was written. -/
theorem write_regs_of_mem (once : (values.map Prod.fst).Nodup) (here : (reg, value) ∈ values) :
    (uc.write arch none values).regs reg = value := by
  induction values generalizing uc with
  | nil => simp at here
  | cons first rest ih =>
    simp only [List.map_cons, List.nodup_cons] at once
    rw [write_cons]
    rcases List.mem_cons.mp here with rfl | later
    · -- Written first and never again.
      rw [write_regs_of_notMem once.1]
      simp [UserContext.setReg]
    · exact ih once.2 later

/-- Registers are not the program counter. -/
theorem write_pc :
    (uc.write arch none values).pc = uc.pc ∧ (uc.write arch none values).restartPc = uc.restartPc := by
  induction values generalizing uc with
  | nil => exact ⟨rfl, rfl⟩
  | cons first rest ih =>
    rw [write_cons]
    exact ih

theorem applyWrittenPc_pc : (uc.applyWrittenPc arch pc).pc = pc := by
  cases arch <;> rfl

theorem applyWrittenPc_copies (copy : reg ∈ arch.faultIpCopies) :
    (uc.applyWrittenPc arch pc).regs reg = pc := by
  cases arch with
  | riscv64 => simp [Arch.faultIpCopies] at copy
  | x8664 =>
    have which : reg = 14 ∨ reg = 17 := by simpa [Arch.faultIpCopies] using copy
    rcases which with rfl | rfl <;> simp [UserContext.applyWrittenPc, UserContext.setReg]

theorem applyWrittenPc_regs (other : reg ∉ arch.faultIpCopies) :
    (uc.applyWrittenPc arch pc).regs reg = uc.regs reg := by
  cases arch with
  | riscv64 => rfl
  | x8664 =>
    have apart : reg ≠ 14 ∧ reg ≠ 17 := by simpa [Arch.faultIpCopies] using other
    simp [UserContext.applyWrittenPc, UserContext.setReg, apart]

end Writes

section UnknownSyscall

variable {arch : Arch} {n : Nat} {mr : Nat → Word} {uc uc' : UserContext}

/-- The registers a reply of some length sets, each with its position. -/
def Arch.replyPositions (arch : Arch) (n : Nat) : List (Nat × Nat) :=
  (arch.unknownSyscallReplyRegs.take n).zipIdx.filter fun position =>
    position.2 ≠ arch.unknownSyscallFaultIpMr ∧ position.1 ≠ 0

theorem mem_replyPositions {reg i : Nat} :
    (reg, i) ∈ arch.replyPositions n ↔ i < n ∧ arch.unknownSyscallReplyRegs[i]? = some reg ∧
      i ≠ arch.unknownSyscallFaultIpMr ∧ reg ≠ 0 := by
  simp [Arch.replyPositions, List.mem_zipIdx_iff_getElem?, List.getElem?_take]
  tauto

/-- No register is listed twice. -/
theorem replyPositions_nodup : ((arch.replyPositions n).map Prod.fst).Nodup := by
  -- A shorter reply uses a part of the table, and the whole table has none twice.
  have whole : ((arch.unknownSyscallReplyRegs.zipIdx.filter fun position =>
      position.2 ≠ arch.unknownSyscallFaultIpMr ∧ position.1 ≠ 0).map Prod.fst).Nodup := by
    cases arch <;> decide
  have start : (arch.unknownSyscallReplyRegs.take n).zipIdx.Sublist
      arch.unknownSyscallReplyRegs.zipIdx := by
    conv => rhs; rw [← arch.unknownSyscallReplyRegs.take_append_drop n, List.zipIdx_append]
    exact List.sublist_append_left _ _
  exact List.Nodup.sublist ((start.filter _).map Prod.fst) whole

/-- The copies of the program counter are not among them. -/
theorem copies_notMem_replyPositions {reg : Nat} (copy : reg ∈ arch.faultIpCopies) :
    reg ∉ (arch.replyPositions n).map Prod.fst := by
  intro here
  obtain ⟨⟨reg, i⟩, listed, rfl⟩ := List.mem_map.mp here
  obtain ⟨-, at', other, -⟩ := mem_replyPositions.mp listed
  have small : i < 19 := by
    have := (List.getElem?_eq_some_iff.mp at').1
    cases arch <;> simp [Arch.unknownSyscallReplyRegs] at this <;> omega
  cases arch with
  | riscv64 => simp [Arch.faultIpCopies] at copy
  | x8664 =>
    interval_cases i <;> simp_all [Arch.faultIpCopies, Arch.unknownSyscallReplyRegs,
      Arch.unknownSyscallFaultIpMr] <;> omega

theorem zero_notMem_replyPositions : 0 ∉ (arch.replyPositions n).map Prod.fst := by
  intro here
  obtain ⟨⟨reg, i⟩, listed, rfl⟩ := List.mem_map.mp here
  exact (mem_replyPositions.mp listed).2.2.2 rfl

/-- The registers after a reply of some length, in terms of the layout of the message. -/
structure ReplyApplied (arch : Arch) (uc uc' : UserContext) (mr : Nat → Word) (n : Nat) : Prop where
  listed : ∀ i < n, ∀ reg, arch.unknownSyscallLayout[i]? = some (.reg reg) → uc'.regs reg = mr i
  faultIp : ∀ i < n, arch.unknownSyscallLayout[i]? = some .faultIp →
    uc'.pc = mr i ∧ ∀ reg ∈ arch.faultIpCopies, uc'.regs reg = mr i
  kept : ∀ reg, (∀ i < n, arch.unknownSyscallLayout[i]? ≠ some (.reg reg)) →
    (reg ∈ arch.faultIpCopies → n ≤ arch.unknownSyscallFaultIpMr) → uc'.regs reg = uc.regs reg
  keptPc : n ≤ arch.unknownSyscallFaultIpMr → uc'.pc = uc.pc ∧ uc'.restartPc = uc.restartPc

/-- The registers such a reply leaves. -/
def UserContext.afterReply (arch : Arch) (uc : UserContext) (mr : Nat → Word) (n : Nat) :
    UserContext :=
  uc.write arch
    (if arch.unknownSyscallFaultIpMr < n then some (mr arch.unknownSyscallFaultIpMr) else none)
    ((arch.replyPositions n).map fun position => (position.1, mr position.2))

/-- The program counter, its copies and then the listed registers are written. -/
theorem afterReply_eq : uc.afterReply arch mr n =
    (if arch.unknownSyscallFaultIpMr < n then uc.applyWrittenPc arch (mr arch.unknownSyscallFaultIpMr)
      else uc).write arch none
      ((arch.replyPositions n).map fun position => (position.1, mr position.2)) := by
  unfold UserContext.afterReply
  split
  · exact write_some
  · rfl

/-- An empty reply changes nothing. -/
theorem afterReply_zero : uc.afterReply arch mr 0 = uc := by
  simp [UserContext.afterReply, Arch.replyPositions, UserContext.write]

/-- The registers the table lists are the ones of the layout, but for the one numbered zero. -/
theorem afterReply_applied :
    ReplyApplied arch uc (uc.afterReply arch mr n) mr n ↔
      (arch = .x8664 → 5 < n → mr 5 = uc.regs 0) := by
  -- Which registers are written does not depend on the words.
  have keys : ((arch.replyPositions n).map fun position => (position.1, mr position.2)).map
      Prod.fst = (arch.replyPositions n).map Prod.fst := by simp
  -- What is in the table is written, and what is not stays.
  have written : ∀ {i reg}, (reg, i) ∈ arch.replyPositions n →
      (uc.afterReply arch mr n).regs reg = mr i := by
    intro i reg here
    rw [afterReply_eq]
    refine write_regs_of_mem (by rw [keys]; exact replyPositions_nodup) ?_
    exact List.mem_map.mpr ⟨(reg, i), here, rfl⟩
  have stays : ∀ {reg}, reg ∉ (arch.replyPositions n).map Prod.fst →
      (reg ∈ arch.faultIpCopies → n ≤ arch.unknownSyscallFaultIpMr) →
      (uc.afterReply arch mr n).regs reg = uc.regs reg := by
    intro reg absent noIp
    rw [afterReply_eq, write_regs_of_notMem (by rwa [keys])]
    split
    · rename_i given
      exact applyWrittenPc_regs fun copy => Nat.not_lt.mpr (noIp copy) given
    · rfl
  -- The register numbered zero is never written.
  have zero : (uc.afterReply arch mr n).regs 0 = uc.regs 0 :=
    stays zero_notMem_replyPositions (by cases arch <;> simp [Arch.faultIpCopies])
  constructor
  · intro applied x86 long
    rw [← zero]
    exact (applied.listed 5 long 0 (layout_reg_iff.mpr (.inr ⟨x86, rfl, rfl⟩))).symm
  · intro same
    refine ⟨fun i short reg listed => ?_, fun i short isIp => ?_, fun reg absent noIp => ?_,
      fun short => ?_⟩
    · -- A listed register is in the table, or it is the one that the table cannot name.
      rcases layout_reg_iff.mp listed with ⟨tabled, apart, nonzero⟩ | ⟨x86, rfl, rfl⟩
      · exact written (mem_replyPositions.mpr ⟨short, tabled, apart, nonzero⟩)
      · rw [same x86 short, zero]
    · have at' := layout_faultIp_iff.mp isIp
      subst at'
      rw [afterReply_eq, if_pos short]
      refine ⟨write_pc.1.trans applyWrittenPc_pc, fun reg copy => ?_⟩
      rw [write_regs_of_notMem (by rw [keys]; exact copies_notMem_replyPositions copy)]
      exact applyWrittenPc_copies copy
    · refine stays (fun here => ?_) noIp
      obtain ⟨⟨reg, i⟩, tabled, rfl⟩ := List.mem_map.mp here
      obtain ⟨short, at', apart, nonzero⟩ := mem_replyPositions.mp tabled
      exact absent i short (layout_reg_iff.mpr (.inl ⟨at', apart, nonzero⟩))
    · rw [afterReply_eq, if_neg (Nat.not_lt.mpr short)]
      exact write_pc

variable {s : KState} {cur caller replier : Addr}

/-- What the reply writes, in the words of the table. -/
theorem applyUnknownSyscallReply_eq (length : Nat) {post : Unit → KState → Prop}
    {fail : Abort → KState → Prop} :
    wp (applyUnknownSyscallReply cur replier caller length) post fail s ↔
      post () { s with
        threads := s.threads.updTcb caller fun t =>
          { t with
            context := t.context.afterReply s.env.arch (s.replyMr cur replier) length } } := by
  -- The source filters while it goes through the table; the positions are filtered first.
  have values : ((s.env.arch.unknownSyscallReplyRegs.take length).zipIdx.filterMap fun position =>
      if position.2 ≠ s.env.arch.unknownSyscallFaultIpMr ∧ position.1 ≠ 0 then
        some (position.1, s.replyMr cur replier position.2) else none) =
      (s.env.arch.replyPositions length).map fun position =>
        (position.1, s.replyMr cur replier position.2) := by
    rw [Arch.replyPositions, ← List.filterMap_eq_map, List.filterMap_filter]
    simp
  have given : s.env.arch.unknownSyscallFaultIpMr <
      (s.env.arch.unknownSyscallReplyRegs.take length).length ↔
      s.env.arch.unknownSyscallFaultIpMr < length := by
    rw [List.length_take]
    cases s.env.arch <;> simp [Arch.unknownSyscallReplyRegs, Arch.unknownSyscallFaultIpMr]
  simp only [applyUnknownSyscallReply, wp_bind, wp_get, wp_modifyContext, UserContext.afterReply, given]
  rw [← values]

/-- The registers of a thread whose fault was answered. -/
def KState.answered (s : KState) (cur replier caller : Addr) (length : Nat) : UserContext :=
  let t := s.threads.tcbs caller
  let mr := s.replyMr cur replier
  if t.faultLabel = FaultLabel.unknownSyscall.raw then t.context.afterReply s.env.arch mr length
  else if t.faultLabel = FaultLabel.userException.raw then
    t.context.write s.env.arch (if 1 ≤ length then some (mr 0) else none)
      (if 2 ≤ length then [(s.env.arch.stackReg, mr 1)] else [])
  else t.context

/-- A thread whose fault is answered with label zero runs on with the registers of the answer. -/
theorem replyToTcb_resumes (canGrant : Bool) (current : s.threads.current = some cur)
    (fault : (s.threads.tcbs caller).senderIsFault = true) {info : MessageInfo}
    (reply : info = .ofWord ((s.threads.tcbs replier).context.msgInfo s.env.arch))
    (resumes : info.label = 0) {fail : Abort → KState → Prop} :
    wp (replyToTcb replier caller canGrant)
      (fun _ s' => (s'.threads.tcbs caller).state = .running ∧
        (s'.threads.tcbs caller).context = s.answered cur replier caller info.length) fail s := by
  -- Waking the thread changes its state, not its registers.
  have woken : ∀ th : Threads,
      ((((th.updTcb caller (·.finishReplyState true true)).clearLinks caller).enqueue s.env
        caller).tcbs caller).state = .running ∧
      ((((th.updTcb caller (·.finishReplyState true true)).clearLinks caller).enqueue s.env
        caller).tcbs caller).context = (th.tcbs caller).context := by
    intro th
    rw [Threads.enqueue_tcbs]
    simp [Threads.clearLinks, Threads.updTcb, Tcb.finishReplyState, Tcb.clearFault]
  subst reply
  unfold replyToTcb
  simp only [wp_bind, wp_get, wp_getMsgInfo, current, fault, resumes, Bool.not_true, Bool.false_eq_true,
    if_false, if_true, ne_eq, not_true_eq_false, decide_false, Bool.and_false, Bool.false_and,
    Bool.not_false, wp_ite, applyUnknownSyscallReply_eq, applyUserExceptionReply, wp_modifyContext,
    wp_modifyTcb, wp_modifyThreads]
  refine ⟨fun unknown => ⟨(woken _).1, (woken _).2.trans ?_⟩, fun known =>
    ⟨fun exception => ⟨(woken _).1, (woken _).2.trans ?_⟩, fun other =>
      ⟨(woken _).1, (woken _).2.trans ?_⟩⟩⟩
  · simp [KState.answered, Threads.updTcb, unknown]
  · simp [KState.answered, Threads.updTcb, exception, FaultLabel.raw]
  · simp [KState.answered, known, other]

/--
The message for an unknown system call has its layout, and the reply to it is the inverse of the message.

On x86-64 one register has the number that marks a position without a register, and its word is
ignored.
-/
theorem replyToTcb_inverts_iff (canGrant : Bool) (current : s.threads.current = some cur)
    (fault : (s.threads.tcbs caller).senderIsFault = true)
    (unknown : (s.threads.tcbs caller).faultLabel = FaultLabel.unknownSyscall.raw)
    {info : MessageInfo}
    (reply : info = .ofWord ((s.threads.tcbs replier).context.msgInfo s.env.arch))
    (resumes : info.label = 0) :
    (∀ (uc : UserContext) sysno, uc.unknownSyscallMrs s.env.arch sysno =
      s.env.arch.unknownSyscallLayout.map (LayoutWord.value s.env.arch uc sysno)) ∧
    wp (replyToTcb replier caller canGrant)
      (fun _ s' => ReplyApplied s.env.arch (s.threads.tcbs caller).context
          (s'.threads.tcbs caller).context (s.replyMr cur replier) info.length ↔
        (s.env.arch = .x8664 → 5 < info.length →
          s.replyMr cur replier 5 = (s.threads.tcbs caller).context.regs 0))
      (fun _ _ => False) s := by
  refine ⟨unknownSyscallMrs_layout s.env.arch, ?_⟩
  refine wp_mono (replyToTcb_resumes canGrant current fault reply resumes) ?_ fun _ _ => id
  rintro - s' ⟨-, context⟩
  rw [context, KState.answered]
  simp only [unknown, if_true]
  exact afterReply_applied

/-- A thread stopped by an unknown system call, and a handler that answers with six words. -/
def unknownReply (arch : Arch) : KState where
  env := { arch, idleTcb := 1, irqNode := 0, bootPtPool := 0, ioapicPins := 0, fuel := 0 }
  threads :=
    { current := some 2
      tcbs := fun t =>
        if t = 2 then { context := { regs := fun _ => 6 }, state := .running, ipcBuffer := some 4096 }
        else if t = 3 then
          { state := .blockedOnReply, senderIsFault := true, faultLabel := 2,
            context := { regs := fun i => i + 100 } }
        else {} }
  buffers := fun _ _ => 7

theorem replyToTcb_inverts_riscv64 :
    wp (replyToTcb 2 3 false)
      (fun _ s' => ReplyApplied .riscv64 ((unknownReply .riscv64).threads.tcbs 3).context
          (s'.threads.tcbs 3).context ((unknownReply .riscv64).replyMr 2 2) 6 ↔
        (Arch.riscv64 = .x8664 → 5 < 6 → (unknownReply .riscv64).replyMr 2 2 5 =
          ((unknownReply .riscv64).threads.tcbs 3).context.regs 0))
      (fun _ _ => False) (unknownReply .riscv64) :=
  (replyToTcb_inverts_iff (s := unknownReply .riscv64) false rfl rfl rfl rfl rfl).2

/-- The sixth word is for a register that keeps its value. -/
theorem replyToTcb_drops_word :
    ∃ s', replyToTcb 2 3 false (unknownReply .x8664) = .ok () s' ∧
      Arch.x8664.unknownSyscallLayout[5]? = some (.reg 0) ∧
      (MessageInfo.ofWord (((unknownReply .x8664).threads.tcbs 2).context.msgInfo .x8664)).length = 6 ∧
      (unknownReply .x8664).replyMr 2 2 5 = 7 ∧ (s'.threads.tcbs 3).context.regs 0 = 100 :=
  ⟨_, rfl, rfl, rfl, rfl, rfl⟩

end UnknownSyscall

section Resume

variable {s s₁ s₂ : KState} {t cur replier : Addr}

/-- What a thread may be stopped by: a pointer that fails in either phase of a system call, a number
that is no system call, or an exception. -/
inductive FaultCause
  | capFault (addr : Word) (inRecvPhase : Bool)
  | unknownSyscall
  | exception (code addr : Word)

namespace FaultCause

/-- How the kernel was entered. -/
def trap : FaultCause → Trap
  | capFault .. | unknownSyscall => .syscall
  | exception code addr => .fault code addr

/-- The kind of the fault, which for an exception its code decides. -/
def label (arch : Arch) (context : UserContext) : FaultCause → FaultLabel
  | capFault .. => .capFault
  | unknownSyscall => .unknownSyscall
  | exception code addr => (context.faultMessage arch code addr).1

/-- Report the fault of a thread to its handler. -/
def report (uc : Addr) : FaultCause → Kern Bool
  | capFault addr inRecvPhase => sendCapFaultIpc uc addr inRecvPhase
  | unknownSyscall => do
    let s ← get
    let context ← getContext uc
    sendSyntheticFaultIpc .unknownSyscall (context.unknownSyscallMrs s.env.arch (s.rawSysno uc))
  | exception code addr => do
    let s ← get
    let context ← getContext uc
    let (label, mrs) := context.faultMessage s.env.arch code addr
    sendSyntheticFaultIpc label mrs

end FaultCause

/-- The machine and the registers of one thread are as they were. -/
def KeepsContext (t : Addr) (s s' : KState) : Prop :=
  s'.env = s.env ∧ (s'.threads.tcbs t).context = (s.threads.tcbs t).context

instance : IsPreorder KState (KeepsContext t) where
  refl _ := ⟨rfl, rfl⟩
  trans _ _ _ first second := ⟨second.1.trans first.1, second.2.trans first.2⟩

theorem SameRegisters.keeps (same : SameRegisters s s₁) : KeepsContext t s s₁ :=
  ⟨same.1, same.2.context t⟩

theorem modifyTcb_registers {u : Addr} {change : Tcb → Tcb}
    (same : ∀ tcb, (change tcb).context = tcb.context) : Always SameRegisters (modifyTcb u change) :=
  fun _ => ⟨rfl, .updTcb (same _)⟩

theorem modifyThreads_registers {change : Threads → Threads} (same : ∀ th, (change th).tcbs = th.tcbs) :
    Always SameRegisters (modifyThreads change) :=
  fun _ => ⟨rfl, .of_tcbs (same _)⟩

theorem setBlockedOnReply_context (tcb : Tcb) : tcb.setBlockedOnReply.context = tcb.context := by
  unfold Tcb.setBlockedOnReply Tcb.clearEndpointIpcStatePreservingFault
  simp only
  split <;> rfl

theorem setupCallerCap_registers (sender receiver : Addr) (canGrant : Bool) :
    Always SameRegisters (setupCallerCap sender receiver canGrant) := by
  -- The slots change, and the record of the sender in fields that are no registers.
  have master : Always SameRegisters (setupReplyMaster sender) := by
    intro s
    unfold Follows setupReplyMaster
    simp only [wp_bind, wp_get, wp_ite, wp_set, wp_pure]
    exact ⟨fun _ => ⟨rfl, .of_tcbs rfl⟩, fun _ => refl_of SameRegisters s⟩
  have inserts : ∀ src new dest, Always SameRegisters (cteInsert src new dest) := by
    intro src new dest s
    have done := refl_of SameRegisters s
    unfold Follows cteInsert
    simp only [wp_bind, wp_get, wp_ite, wp_set, wp_crash]
    exact ⟨fun _ => done, fun _ => ⟨fun _ => done, fun _ => done⟩⟩
  refine always_bind master fun _ => always_bind (modifyTcb_registers setBlockedOnReply_context)
    fun _ => always_bind always_get fun s => ?_
  split
  · have finish := fun tcb => always_bind (inserts (tcbSlot sender tcbReply)
      (.reply tcb canGrant false) (tcbSlot receiver tcbCaller)) fun _ => always_pure true
    refine always_ite (always_pure _) (always_bind always_get fun _ => always_ite ?_ ?_)
    · exact always_bind (cteDeleteOne_registers _) fun _ => finish sender
    · exact finish sender
  · exact always_pure _

/-- Handing over a fault touches nobody's registers but the receiver's, which are done by then. -/
theorem finishFaultIpcReceive_registers (receiver faultTcb : Addr) (grants : Bool) :
    Always SameRegisters (finishFaultIpcReceive receiver faultTcb grants) := by
  -- All that is done to the receiver after the message is to let it run.
  have finish : Always SameRegisters (do
      modifyTcb receiver Tcb.finishReceiverRendezvous
      modifyThreads (·.enqueue (← get).env receiver)) :=
    always_bind (modifyTcb_registers fun _ => rfl) fun _ => always_bind always_get fun _ =>
      modifyThreads_registers fun _ => Threads.enqueue_tcbs
  have stops : Always SameRegisters (stopFaulted faultTcb) := modifyTcb_registers fun _ => rfl
  refine always_bind always_get fun _ => always_bind (modifyTcb_registers fun _ => rfl) fun _ => ?_
  refine always_ite ?_ (always_bind stops fun _ => finish)
  refine always_bind (modifyThreads_registers fun _ => Threads.dequeue_tcbs) fun _ => ?_
  refine always_bind (setupCallerCap_registers _ _ _) fun _ => ?_
  exact always_ite (always_bind stops fun _ => finish) finish

/-- Taking a waiter off an endpoint changes nobody's record, and does not look at any. -/
theorem popReceiver_tcbs (th : Threads) (ep : Addr) : (th.popReceiver ep).2.tcbs = th.tcbs := by
  unfold Threads.popReceiver Threads.popWaiterIfState Threads.epPopHead Threads.popFront
  split
  · rfl
  · cases Lib.popFront th.links (th.ends (.endpoint ep)) <;> simp

theorem popReceiver_updTcb (th : Threads) (t : Addr) (change : Tcb → Tcb) (ep : Addr) :
    ((th.updTcb t change).popReceiver ep).1 = (th.popReceiver ep).1 := by
  have ends : (th.updTcb t change).ends (.endpoint ep) = th.ends (.endpoint ep) := rfl
  have links : (th.updTcb t change).links = th.links := rfl
  have eps : (th.updTcb t change).eps = th.eps := rfl
  unfold Threads.popReceiver Threads.popWaiterIfState Threads.epPopHead Threads.popFront
  rw [ends, links, eps]
  split
  · rfl
  · cases Lib.popFront th.links (th.ends (.endpoint ep)) <;> rfl

theorem writeFaultIpcMessage_keeps {receiver : Addr} (apart : receiver ≠ t) (badge label len : Word)
    (mrs : List Word) : Always (KeepsContext t) (writeFaultIpcMessage receiver badge label len mrs) := by
  intro s
  have wrote : ∀ change, KeepsContext t s { s with threads := s.threads.updTcb receiver change } :=
    fun change => ⟨rfl, by simp [Threads.updTcb, Ne.symm apart]⟩
  unfold Follows writeFaultIpcMessage
  simp only [wp_bind, wp_modifyContext, wp_get]
  split
  · simp only [wp_ite, setBufferWords, wp_modify, wp_pure]
    refine ⟨fun _ => ?_, fun _ => wrote _⟩
    split <;> exact wrote _
  · exact wrote _

/-- A thread that waits for no message keeps its registers when its fault is handed over. -/
theorem deliverFaultIpc_keeps {ep : Addr} (apart : (s.threads.popReceiver ep).1 ≠ some t)
    (badge : Word) (canGrant canGrantReply : Bool) (label len : Word) (mrs : List Word) :
    Follows (KeepsContext t) (deliverFaultIpc t ep badge canGrant canGrantReply label len mrs) s := by
  unfold Follows deliverFaultIpc
  simp only [wp_bind, wp_modifyTcb, wp_get]
  -- Recording the message does not change who waits at the endpoint.
  rw [← popReceiver_updTcb s.threads t (·.recordFaultMessage label len mrs)] at apart
  have tcbs := popReceiver_tcbs (s.threads.updTcb t (·.recordFaultMessage label len mrs)) ep
  have recorded : ∀ th : Threads, th.tcbs = (s.threads.updTcb t
      (·.recordFaultMessage label len mrs)).tcbs → KeepsContext t s { s with threads := th } :=
    fun th same => ⟨rfl, by rw [same]; simp [Threads.updTcb, Tcb.recordFaultMessage]⟩
  generalize (s.threads.updTcb t (·.recordFaultMessage label len mrs)).popReceiver ep = popped
    at apart tcbs
  obtain ⟨receiver, th⟩ := popped
  have sofar := recorded th tcbs
  cases receiver with
  | none =>
    simp only [wp_bind, wp_set, wp_modifyThreads, wp_modifyTcb]
    refine ⟨rfl, Eq.trans ?_ sofar.2⟩
    simp [Threads.epEnqueueWaiter, Threads.updEp, Threads.updTcb, Tcb.setBlockedFaultSender,
      Tcb.clearEndpointIpcState, Tcb.clearFault]
  | some receiver =>
    have other : receiver ≠ t := fun same => apart (by rw [same])
    simp only [wp_bind, wp_set]
    refine (writeFaultIpcMessage_keeps other _ _ _ _ _).wp_of sofar (fun _ s' _ wrote => ?_)
      fun _ _ => id
    refine ((finishFaultIpcReceive_registers receiver t _ s').mono fun _ same => same.keeps).after
      wrote

theorem sendSyntheticFaultIpc_keeps (current : s.threads.current = some t)
    (apart : ∀ ep, (s.threads.popReceiver ep).1 ≠ some t) (label : FaultLabel) (mrs : List Word) :
    Follows (KeepsContext t) (sendSyntheticFaultIpc label mrs) s := by
  have done := refl_of (KeepsContext t) s
  unfold Follows sendSyntheticFaultIpc
  simp only [wp_bind, wp_get, current]
  split
  · simp only [wp_ite, wp_pure, wp_bind]
    refine ⟨fun _ => done, fun _ => ?_⟩
    exact deliverFaultIpc_keeps (apart _) _ _ _ _ _ _
  · exact done

/-- Reporting a fault leaves the registers the thread was stopped with. -/
theorem FaultCause.report_keeps (current : s.threads.current = some t)
    (apart : ∀ ep, (s.threads.popReceiver ep).1 ≠ some t) (cause : FaultCause) :
    Follows (KeepsContext t) (cause.report t) s := by
  have sends := fun label mrs => sendSyntheticFaultIpc_keeps current apart label mrs
  cases cause with
  | capFault addr inRecvPhase =>
    unfold Follows FaultCause.report sendCapFaultIpc
    simp only [wp_bind, wp_getContext]
    exact sends _ _
  | unknownSyscall =>
    unfold Follows FaultCause.report
    simp only [wp_bind, wp_get, wp_getContext]
    exact sends _ _
  | exception code addr =>
    unfold Follows FaultCause.report
    simp only [wp_bind, wp_get, wp_getContext]
    exact sends _ _

/-- Four bytes on is never the same place. -/
theorem step_ne (pc : Nat) : (pc + 4) % 2 ^ 64 ≠ pc := by omega

/--
A thread whose fault is answered without a program counter runs the stopped instruction again
exactly when an exception stopped it.

A system call has stepped the program counter before its fault is raised, and nothing steps it back.
-/
theorem fault_reply_repeats_iff (cause : FaultCause) (user : UserContext)
    (riscv : s.env.arch = .riscv64) (current : s.threads.current = some t)
    (saved : (s.threads.tcbs t).context = user.enter s.env.arch cause.trap)
    (apart : ∀ ep, (s.threads.popReceiver ep).1 ≠ some t)
    (reported : cause.report t s = .ok true s₁)
    (waits : (s₂.threads.tcbs t).context = (s₁.threads.tcbs t).context)
    (fault : (s₂.threads.tcbs t).senderIsFault = true)
    (kind : (s₂.threads.tcbs t).faultLabel = (cause.label s.env.arch (s.threads.tcbs t).context).raw)
    (answers : s₂.threads.current = some cur) {info : MessageInfo}
    (reply : info = .ofWord ((s₂.threads.tcbs replier).context.msgInfo s₂.env.arch))
    (resumes : info.label = 0)
    (silent : info.length = 0 ∨ cause.label s.env.arch (s.threads.tcbs t).context = .capFault ∨
      cause.label s.env.arch (s.threads.tcbs t).context = .vmFault) (canGrant : Bool) :
    wp (replyToTcb replier t canGrant)
      (fun _ s₃ => ((s₃.threads.tcbs t).state = .running ∧
          (s₃.threads.tcbs t).context.loadedPc .riscv64 = user.pc ∧
          (s₃.threads.tcbs t).context.regs = user.regs) ↔
        ∃ code addr, cause = .exception code addr)
      (fun _ _ => False) s₂ := by
  -- The registers are those of the trap until the reply.
  have kept := cause.report_keeps current apart
  unfold Follows wp at kept
  rw [reported] at kept
  have context : (s₂.threads.tcbs t).context = user.enter .riscv64 cause.trap := by
    rw [waits, kept.2, saved, riscv]
  -- An answer without words, or to a kind that carries none, leaves the registers alone.
  have unchanged : s₂.answered cur replier t info.length = (s₂.threads.tcbs t).context := by
    unfold KState.answered
    rcases silent with none | none | none
    · simp only [none]
      split
      · exact afterReply_zero
      split <;> rfl
    · simp [kind, none, FaultLabel.raw]
    · simp [kind, none, FaultLabel.raw]
  refine wp_mono (replyToTcb_resumes canGrant answers fault reply resumes) ?_ fun _ _ => id
  rintro - s₃ ⟨running, after⟩
  rw [after, unchanged, context]
  cases cause with
  | exception code addr => simp [running, FaultCause.trap, UserContext.enter, UserContext.loadedPc]
  | capFault addr inRecvPhase =>
    simp [FaultCause.trap, UserContext.enter, UserContext.loadedPc]
    exact fun _ => step_ne user.pc
  | unknownSyscall =>
    simp [FaultCause.trap, UserContext.enter, UserContext.loadedPc]
    exact fun _ => step_ne user.pc

/-- A thread with a fault handler, as the kernel is entered. -/
def faultingThread (context : UserContext) : KState where
  env := { arch := .riscv64, idleTcb := 1, irqNode := 0, bootPtPool := 0, ioapicPins := 0, fuel := 0 }
  caps :=
    { ctes := fun slot =>
        if slot = tcbSlot 4096 tcbCTableSlot then { cap := .cnode 8192 1 0 63 }
        else if slot = slotAt 8192 1 then { cap := .endpoint 64 0 true true true true }
        else {} }
  threads :=
    { current := some 4096
      tcbs := fun t =>
        if t = 4096 then { state := .running, faultEndpointCptr := 1, context } else {} }

/-- Another thread is on the processor. -/
def KState.running (s : KState) (t : Addr) : KState :=
  { s with threads := { s.threads with current := some t } }

theorem fault_reply_repeats_load :
    ∃ s₁, (FaultCause.exception 13 8).report 4096 (faultingThread { pc := 400, restartPc := 400 }) =
        .ok true s₁ ∧
      wp (replyToTcb 2 4096 false)
        (fun _ s₃ => ((s₃.threads.tcbs 4096).state = .running ∧
            (s₃.threads.tcbs 4096).context.loadedPc .riscv64 = 400 ∧
            (s₃.threads.tcbs 4096).context.regs = fun _ => 0) ↔
          ∃ code addr, FaultCause.exception 13 8 = .exception code addr)
        (fun _ _ => False) (s₁.running 2) := by
  obtain ⟨s₁, reported, env, fault, label, replier⟩ : ∃ s₁, (FaultCause.exception 13 8).report 4096
      (faultingThread { pc := 400, restartPc := 400 }) = .ok true s₁ ∧ s₁.env.arch = .riscv64 ∧
      (s₁.threads.tcbs 4096).senderIsFault = true ∧
      (s₁.threads.tcbs 4096).faultLabel = FaultLabel.vmFault.raw ∧ s₁.threads.tcbs 2 = {} :=
    ⟨_, rfl, rfl, rfl, rfl, rfl⟩
  have info : MessageInfo.ofWord (((s₁.running 2).threads.tcbs 2).context.msgInfo
      (s₁.running 2).env.arch) = ⟨0, 0, 0, 0⟩ := by
    simp [KState.running, replier, env, UserContext.msgInfo, MessageInfo.ofWord]
  have waits : ((s₁.running 2).threads.tcbs 4096).context = (s₁.threads.tcbs 4096).context := rfl
  refine ⟨s₁, reported, fault_reply_repeats_iff (s := faultingThread { pc := 400, restartPc := 400 })
    (.exception 13 8) { pc := 400 } rfl rfl rfl (fun ep => ?_) reported waits fault label rfl info.symm
    rfl (.inl rfl) false⟩
  simp [faultingThread, Threads.popReceiver, Threads.popWaiterIfState]

/-- An unknown system call that is answered with nothing is skipped. -/
theorem fault_reply_skips_syscall :
    ∃ s₁ s₃, handleTrap 4096 .syscall (faultingThread { pc := 400 }) = .ok () s₁ ∧
      (s₁.threads.tcbs 4096).senderIsFault = true ∧
      replyToTcb 2 4096 false (s₁.running 2) = .ok () s₃ ∧
      (s₃.threads.tcbs 4096).state = .running ∧
      (s₃.threads.tcbs 4096).context.loadedPc .riscv64 = 404 :=
  ⟨_, _, rfl, rfl, rfl, rfl, rfl⟩

end Resume

end Rel4
