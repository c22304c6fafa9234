import Rel4.Proof.Atomic
import Rel4.Proof.Translate

/-! The message buffer as the kernel writes it, and as its thread sees it. -/

namespace Rel4

open Lib

variable {s s' : KState} {thread uc target tcb buffer base : Addr} {slot : Slot} {length : Word}

/-- Nothing need be known of a program for what comes after it. -/
theorem Lib.Returns.any {ε σ α : Type} (prog : EStateM ε σ α) (s : σ) :
    Returns prog (fun _ _ => True) s := by
  unfold Returns wp
  cases prog s <;> trivial

section Calls

/-- The calls that give a thread a message buffer. -/
inductive BufferCall
  | configure
  | setIpcBuffer

namespace BufferCall

/-- The model of a call. -/
def invoke : BufferCall → (thread uc : Addr) → Slot → (target : Addr) → Word → Kern Unit
  | configure => tcbConfigure
  | setIpcBuffer => tcbSetIpcBuffer

/-- The message register with the address of the buffer. -/
def addressMr : BufferCall → Nat
  | configure => 3
  | setIpcBuffer => 0

/-- The extra capability that names the frame. -/
def frameIndex : BufferCall → Nat
  | configure => 2
  | setIpcBuffer => 0

end BufferCall

/-- The address of the buffer a call asks for. -/
def KState.requestedBuffer (s : KState) (uc : Addr) (call : BufferCall) : Word :=
  (s.threads.tcbs uc).context.mr s.env.arch call.addressMr

/-- Where a capability for a buffer is found, the address is not zero and aligned for a buffer. -/
theorem lookupIpcBufferCapSlot_ok {index : Nat} {uva : Word} {cap : Cap} {src : Option Slot}
    (found : lookupIpcBufferCapSlot thread index uva s = .ok (cap, src) s) (frame : cap ≠ .null) :
    uva ≠ 0 ∧ uva % 2 ^ 10 = 0 := by
  have named : Returns (lookupIpcBufferCapSlot thread index uva)
      (fun found _ => found.1 ≠ .null → uva ≠ 0 ∧ uva % 2 ^ 10 = 0) s := by
    simp only [Returns, lookupIpcBufferCapSlot, wp_bind, wp_ite]
    refine (lookupExtraCapSlot_readOnly thread index).wp_of (fun _ _ => ?_) fun _ _ => trivial
    -- The address zero stands for no buffer at all, and gives no capability.
    refine ⟨fun _ => by simp, fun nonzero => ?_⟩
    refine (deriveCapForCopy_readOnly _ _).wp_of (fun cap _ => ?_) fun _ _ => trivial
    split
    · simp [nonzero]
    · trivial
  exact ok_of_wp named found frame

/-- Inserting a capability into a thread's slots leaves the threads themselves alone. -/
theorem returns_insertTcbCapIfLive {dest : Slot} {cap : Cap} {src : Option Slot} :
    Returns (insertTcbCapIfLive slot target dest cap src) (fun _ s' => s'.threads = s.threads) s := by
  unfold insertTcbCapIfLive
  split
  · rfl
  · simp [cteInsert]

theorem returns_installTcbBufferCap {uva : Word} {cap : Cap} {src : Option Slot} (named : uva ≠ 0) :
    Returns (installTcbBufferCap slot target uva cap src)
      (fun _ s' => s'.ipcBuffer target = frameBasePtr cap) s := by
  -- Whatever deleting the old capability does, the thread is pointed at the frame after it.
  refine (Returns.any (deleteSlot _) s).bind fun _ s₁ _ => ?_
  simp only [Returns, wp_bind, wp_modifyTcb]
  refine returns_insertTcbCapIfLive.mono fun _ s' same => ?_
  simp [KState.ipcBuffer, same, Threads.updTcb, Tcb.setIpcBuffer, named]

/-- Either call points the thread at the start of the frame. -/
theorem returns_bufferCall (call : BufferCall) {cap : Cap} {src : Option Slot}
    (found : lookupIpcBufferCapSlot thread call.frameIndex (s.requestedBuffer uc call) s =
      .ok (cap, src) s) (named : s.requestedBuffer uc call ≠ 0) :
    Returns (call.invoke thread uc slot target length)
      (fun _ s' => s'.ipcBuffer target = frameBasePtr cap) s := by
  cases call with
  | configure =>
    simp only [Returns, BufferCall.invoke, tcbConfigure, wp_bind, wp_ite, wp_raise, implies_true,
      true_and]
    intro
    refine (requireExtraCaps_readOnly uc 3).wp_of (fun _ _ => ?_) fun _ _ => trivial
    simp only [wp_getMr]
    refine (lookupExtraCapSlot_readOnly thread 0).wp_of (fun cspace _ => ?_) fun _ _ => trivial
    refine (lookupExtraCapSlot_readOnly thread 1).wp_of (fun vspace _ => ?_) fun _ _ => trivial
    refine (lookupIpcBufferCapSlot_readOnly 2 _).wp_of (fun frame here => ?_) fun _ _ => trivial
    cases found.symm.trans here
    refine (decodeSpaces_readOnly _ _ _ _ _).wp_of (fun spaces _ => ?_) fun _ _ => trivial
    -- The spaces are installed before the buffer, and nothing about them matters for it.
    refine (Returns.any _ s).mono fun _ s₁ _ => (Returns.any _ s₁).mono fun _ s₂ _ => ?_
    simp only [wp_modifyTcb]
    exact returns_installTcbBufferCap named
  | setIpcBuffer =>
    simp only [Returns, BufferCall.invoke, tcbSetIpcBuffer, wp_bind, wp_ite, wp_raise, implies_true,
      true_and]
    intro
    refine (requireExtraCaps_readOnly uc 1).wp_of (fun _ _ => ?_) fun _ _ => trivial
    simp only [wp_getMr]
    refine (lookupIpcBufferCapSlot_readOnly 0 _).wp_of (fun frame here => ?_) fun _ _ => trivial
    cases found.symm.trans here
    exact returns_installTcbBufferCap named

end Calls

section Agreement

/-- A frame that an address space maps whole, from an address on. -/
def Vm.FrameMapped (arch : Arch) (vm : Vm) (root : Addr) (vaddr : Nat) (base : Addr)
    (size : FrameSize) : Prop :=
  ∀ offset, offset < 2 ^ size.bits →
    vm.translate arch (vaddr + offset) arch.rootLevel (arch.kvaToPa root) =
      some (arch.kvaToPa base + offset)

/-- Every word of a thread's buffer is where the thread sees it. -/
def KState.BufferSeen (s : KState) (tcb root : Addr) (uva : Nat) : Prop :=
  ∀ buffer, s.ipcBuffer tcb = some buffer → ∀ i, i < ipcBufferWords →
    s.vm.translate s.env.arch (uva + 8 * i) s.env.arch.rootLevel (s.env.arch.kvaToPa root) =
      some (s.env.arch.kvaToPa buffer + 8 * i)

/-- A buffer is seen where it is exactly if it starts where its frame does. -/
theorem bufferSeen_iff {root : Addr} {uva : Nat} {size : FrameSize} (aligned : uva % 2 ^ 10 = 0)
    (pointed : s.ipcBuffer tcb = some base)
    (mapped : s.vm.FrameMapped s.env.arch root (uva - uva % 2 ^ size.bits) base size) :
    s.BufferSeen tcb root uva ↔ uva % 2 ^ size.bits = 0 := by
  -- A buffer does not reach beyond its frame, for both are powers of two.
  have room : uva % 2 ^ size.bits + 2 ^ 10 ≤ 2 ^ size.bits := by
    cases size <;> simp only [FrameSize.bits] <;> omega
  -- The address is the start of its page and an offset in it.
  have start : uva - uva % 2 ^ size.bits + uva % 2 ^ size.bits = uva :=
    Nat.sub_add_cancel (Nat.mod_le _ _)
  -- So the thread sees each word at that offset from the start of the frame.
  have seen : ∀ i, i < ipcBufferWords →
      s.vm.translate s.env.arch (uva + 8 * i) s.env.arch.rootLevel (s.env.arch.kvaToPa root) =
        some (s.env.arch.kvaToPa base + (uva % 2 ^ size.bits + 8 * i)) := by
    intro i small
    have word := mapped (uva % 2 ^ size.bits + 8 * i) (by unfold ipcBufferWords at small; omega)
    rwa [← Nat.add_assoc, start] at word
  constructor
  · intro all
    -- The first word alone decides: the kernel has it at the start of the frame.
    have first := all base pointed 0 (by decide)
    rw [seen 0 (by decide)] at first
    simpa using first
  · intro offset buffer here i small
    cases pointed.symm.trans here
    rw [seen i small, offset, Nat.zero_add]

end Agreement

section Writes

/-- The kernel's ways to write the buffer of a thread. -/
inductive BufferWrite (s : KState) (tcb : Addr) : Kern Unit → Prop
  | message (sender : Addr) (info : MessageInfo) (badge : Word) (endpoint : Option Addr)
      (canGrant : Bool) (extraCapSlots : List (Option Slot)) :
      BufferWrite s tcb (transferMessage sender tcb info badge endpoint canGrant extraCapSlots)
  | fault (badge label len : Word) (mrs : List Word) :
      BufferWrite s tcb (writeFaultIpcMessage tcb badge label len mrs)
  | cleared : BufferWrite s tcb (clearBufferMrs tcb)
  | answer (running : s.threads.current = some tcb) (index : Nat) (value : Word) :
      BufferWrite s tcb (writeCurrentIpcBufferWord index value)
  | registers (running : s.threads.current = some tcb) (uc target : Addr) (length : Word) :
      BufferWrite s tcb (tcbReadRegisters uc target length)

/-- Whether a capability lets its holder write to a frame. -/
def Cap.allowsFrameWrite : Cap → Bool
  | .frame _ _ rights .. => rights.allowWrite
  | _ => false

/-- The buffer changes only while the capability for it allows that. -/
def KState.BufferGuarded (s : KState) (tcb buffer : Addr) : Prop :=
  ∀ write, BufferWrite s tcb write →
    let guarded (s' : KState) : Prop :=
      s'.buffers buffer ≠ s.buffers buffer →
        (s.cap (tcbSlot tcb tcbBufferSlot)).allowsFrameWrite = true
    wp write (fun _ s' => guarded s') (fun _ s' => guarded s') s

/-- No way of writing a buffer looks at the capability, so it must allow it beforehand. -/
theorem bufferGuarded_iff (pointed : s.ipcBuffer tcb = some buffer) :
    s.BufferGuarded tcb buffer ↔
      (s.cap (tcbSlot tcb tcbBufferSlot)).allowsFrameWrite = true := by
  constructor
  · intro guarded
    -- A fault message with a fifth word other than the one that is there changes the buffer.
    have written := guarded _ (.fault 0 0 5 [0, 0, 0, 0, s.buffers buffer 5 + 1])
    -- The registers the message also goes to are not where the buffer is recorded.
    have still (change : Tcb → Tcb) (kept : ∀ t, (change t).ipcBuffer = t.ipcBuffer) :
        ({ s with threads := s.threads.updTcb tcb change }).ipcBuffer tcb = some buffer := by
      simpa [KState.ipcBuffer, Threads.updTcb, kept] using pointed
    simp only [writeFaultIpcMessage, wp_bind, wp_modifyContext, wp_get] at written
    rw [still] at written
    · apply written
      intro same
      have word := congrFun same 5
      simp [nMsgRegisters, ipcBufferWords] at word
    · exact fun _ => rfl
  · intro allowed write _
    simp only [allowed, implies_true]
    exact Returns.any write s

end Writes

/--
The buffer is sound in every state in which a thread has the buffer that one of the calls gave it.

This is exactly when it starts where its frame does, and its capability allows writing.
-/
theorem ipcBuffer_sound_iff (call : BufferCall) {size : FrameSize} {rights : VmRights} {dev : Bool}
    {addr asid : Nat} {src : Option Slot}
    (found : lookupIpcBufferCapSlot thread call.frameIndex (s.requestedBuffer uc call) s =
      .ok (.frame base size rights dev addr asid, src) s)
    (real : base ≠ 0) (run : call.invoke thread uc slot target length s = .ok () s')
    {s'' : KState} {root : Addr} (later : s''.ipcBuffer target = s'.ipcBuffer target)
    (mapped : s''.vm.FrameMapped s''.env.arch root
      (s.requestedBuffer uc call - s.requestedBuffer uc call % 2 ^ size.bits) base size) :
    s''.BufferSeen target root (s.requestedBuffer uc call) ∧ s''.BufferGuarded target base ↔
      s.requestedBuffer uc call % 2 ^ size.bits = 0 ∧
        (s''.cap (tcbSlot target tcbBufferSlot)).allowsFrameWrite = true := by
  -- Both parts need only where the call pointed the thread.
  obtain ⟨named, aligned⟩ := lookupIpcBufferCapSlot_ok found (by simp)
  have given : s'.ipcBuffer target = fromKva base :=
    (ok_of_wp (returns_bufferCall call found named) run :)
  have pointed : s''.ipcBuffer target = some base := by rw [later, given, fromKva, if_neg real]
  rw [bufferSeen_iff aligned pointed mapped, bufferGuarded_iff pointed]

section Requests

/-- A thread that asks for a message buffer, whose page its address space maps at four megabytes. -/
def bufferRequest (uva : Word) (rights : VmRights) : KState :=
  let thread := 0x10000
  let node := 0x20000
  let slots : List (Slot × Cap) :=
    [(tcbSlot thread tcbCTableSlot, .cnode node 1 0 63),
      (tcbSlot thread tcbVTableSlot, .pageTable (pptrBase + 0x5000) true 0 1),
      (slotAt node 1, .newFrame (pptrBase + 0x8000) .page4K rights false),
      (0x40000, .thread thread)]
  let context : UserContext :=
    (({} : UserContext).setMsgInfo .riscv64 (2 ^ 7 + 1)).setMr .riscv64 0 uva
  let page : Pte := .frameLeaf .riscv64 0x8000 12 (.userFrameFlags .riscv64 true true false)
  { env := { arch := .riscv64, idleTcb := 0, irqNode := 0, bootPtPool := 0, ioapicPins := 0, fuel := 4 }
    caps := { ctes := fun slot => { cap := (slots.lookup slot).getD .null } }
    threads := { tcbs := fun _ => { context, ipcBuffer := some 0x30000 }, current := some thread }
    vm :=
      { asids := { roots := fun _ => pptrBase + 0x5000 }
        tables := fun table index =>
          if table = 0x5000 ∧ index = 0 then .nextTable .riscv64 0x6000
          else if table = 0x6000 ∧ index = 2 then .nextTable .riscv64 0x7000
          else if table = 0x7000 ∧ index = 0 then page else {} }
    buffers := fun _ _ => 1 }

/-- What a program leaves behind, whether it fails or not. -/
def Kern.after (prog : Kern Unit) (s : KState) : KState :=
  match prog s with
  | .ok _ s' => s'
  | .error _ s' => s'

/-- The state once the request is met. -/
def bufferInstalled (uva : Word) (rights : VmRights) : KState :=
  Kern.after (tcbSetIpcBuffer 0x10000 0x10000 0x40000 0x10000 1) (bufferRequest uva rights)

/--
A buffer in the second kilobyte of a read-only frame is accepted.

The kernel takes the first kilobyte for it, and writes a fault message there.
-/
theorem bufferInstalled_strays :
    (tcbSetIpcBuffer 0x10000 0x10000 0x40000 0x10000 1).run' (bufferRequest 0x400400 .readOnly)
        = some () ∧
      (bufferInstalled 0x400400 .readOnly).ipcBuffer 0x10000 = some (pptrBase + 0x8000) ∧
      (bufferInstalled 0x400400 .readOnly).vm.translate .riscv64 0x400400 2 0x5000 = some 0x8400 ∧
      Arch.riscv64.kvaToPa (pptrBase + 0x8000) = 0x8000 ∧
      (bufferInstalled 0x400400 .readOnly).cap (tcbSlot 0x10000 tcbBufferSlot) =
        .frame (pptrBase + 0x8000) .page4K .readOnly false 0 0 ∧
      (Kern.after (writeFaultIpcMessage 0x10000 0 0 5 [0, 0, 0, 0, 7])
        (bufferInstalled 0x400400 .readOnly)).buffers (pptrBase + 0x8000) 5 = 7 := by
  decide +kernel

theorem bufferRequest_asks :
    (bufferRequest 0x400000 .readWrite).requestedBuffer 0x10000 .setIpcBuffer = 0x400000 := by
  decide +kernel

theorem bufferRequest_run :
    BufferCall.setIpcBuffer.invoke 0x10000 0x10000 0x40000 0x10000 1
        (bufferRequest 0x400000 .readWrite) =
      .ok () (bufferInstalled 0x400000 .readWrite) := by
  have returns : (tcbSetIpcBuffer 0x10000 0x10000 0x40000 0x10000 1).run'
      (bufferRequest 0x400000 .readWrite) = some () := by decide +kernel
  obtain ⟨s', run⟩ := ok_of_run' returns
  rw [BufferCall.invoke, bufferInstalled, Kern.after, run]

theorem bufferRequest_found :
    lookupIpcBufferCapSlot 0x10000 BufferCall.setIpcBuffer.frameIndex
        ((bufferRequest 0x400000 .readWrite).requestedBuffer 0x10000 .setIpcBuffer)
        (bufferRequest 0x400000 .readWrite) =
      .ok (.frame (pptrBase + 0x8000) .page4K .readWrite false 0 0, some (slotAt 0x20000 1))
        (bufferRequest 0x400000 .readWrite) := by
  rw [bufferRequest_asks]
  have found : (lookupIpcBufferCapSlot 0x10000 0 0x400000).run' (bufferRequest 0x400000 .readWrite) =
      some (.frame (pptrBase + 0x8000) .page4K .readWrite false 0 0, some (slotAt 0x20000 1)) := by
    decide +kernel
  obtain ⟨s', run⟩ := ok_of_run' found
  have unchanged : wp (lookupIpcBufferCapSlot 0x10000 0 0x400000) (fun _ => (· = _)) (fun _ => (· = _))
      (bufferRequest 0x400000 .readWrite) := lookupIpcBufferCapSlot_readOnly 0 0x400000 _
  rw [wp, run] at unchanged
  rw [BufferCall.frameIndex, run, unchanged]

/-- The page stays mapped while the buffer is installed. -/
theorem bufferInstalled_mapped :
    (bufferInstalled 0x400000 .readWrite).vm.FrameMapped .riscv64 (pptrBase + 0x5000) 0x400000
      (pptrBase + 0x8000) .page4K := by
  intro offset small
  -- Every address of the page takes the same way down.
  have indices : ptIndex (0x400000 + offset) 2 = 0 ∧ ptIndex (0x400000 + offset) 1 = 2 ∧
      ptIndex (0x400000 + offset) 0 = 0 := by
    simp only [ptIndex, coverageBits, FrameSize.bits] at small ⊢
    omega
  have root : Arch.riscv64.kvaToPa (pptrBase + 0x5000) = 0x5000 := by decide
  have frame : Arch.riscv64.kvaToPa (pptrBase + 0x8000) = 0x8000 := by decide
  have entries :
      (bufferInstalled 0x400000 .readWrite).vm.tables 0x5000 0 = .nextTable .riscv64 0x6000 ∧
      (bufferInstalled 0x400000 .readWrite).vm.tables 0x6000 2 = .nextTable .riscv64 0x7000 ∧
      (bufferInstalled 0x400000 .readWrite).vm.tables 0x7000 0 =
        .frameLeaf .riscv64 0x8000 12 (.userFrameFlags .riscv64 true true false) := by
    decide +kernel
  have within : (0x400000 + offset) % 2 ^ coverageBits 0 = offset := by
    simp only [coverageBits, FrameSize.bits] at small ⊢
    omega
  have page : 0x8000 % 2 ^ coverageBits 0 = 0 := by decide
  rw [root, frame]
  simp [Arch.rootLevel, Vm.translate, indices, entries, Pte.decode, Pte.nextTable, Pte.frameLeaf,
    Pte.userFrameFlags, Vm.leafAddress, within, page]

/-- At the start of a frame that may be written, the buffer is sound. -/
theorem bufferInstalled_sound :
    (bufferInstalled 0x400000 .readWrite).BufferSeen 0x10000 (pptrBase + 0x5000) 0x400000 ∧
      (bufferInstalled 0x400000 .readWrite).BufferGuarded 0x10000 (pptrBase + 0x8000) := by
  have arch : (bufferInstalled 0x400000 .readWrite).env.arch = .riscv64 := by decide +kernel
  have mapped := bufferInstalled_mapped
  rw [← arch] at mapped
  rw [← bufferRequest_asks]
  refine (ipcBuffer_sound_iff .setIpcBuffer bufferRequest_found (by decide) bufferRequest_run rfl ?_).mpr
    ⟨?_, by decide +kernel⟩
  · rw [bufferRequest_asks]
    exact mapped
  · rw [bufferRequest_asks]
    decide

end Requests

end Rel4
