import Rel4.Proof.Rules

/-! Accesses to the ports of an x86-64 machine stay within the range of the capability. -/

namespace Rel4

open Lib

variable {s : KState} {first last port width : Nat} {label length : Word}

/-- An end that saturates is beyond every range that stops short of the last port. -/
theorem ioPortCovers_iff (fits : port + width ≤ 2 ^ 16 ∨ last < 0xFFFF) :
    ioPortCovers first last port width = true ↔
      0 < width ∧ ∀ i < width, first ≤ port + i ∧ port + i ≤ last ∧ port + i ≤ 0xFFFF := by
  simp only [ioPortCovers, Bool.and_eq_true, decide_eq_true_eq]
  constructor
  · rintro ⟨⟨low, high⟩, positive⟩
    exact ⟨positive, fun i small => by omega⟩
  · rintro ⟨positive, within⟩
    -- The first and the last port of the access bound all of them.
    have bottom := within 0 positive
    have top := within (width - 1) (by omega)
    omega

-- At the top the saturated end hides the ports that do not exist.
example : ioPortCovers 0xFFFF 0xFFFF 0xFFFF 2 = true := by decide

/-- The answer to a read goes to registers and message buffers, not to the ports. -/
theorem writeReplyMr0_portLog (uc : Addr) (value : Word) {fail : Abort → KState → Prop} :
    wp (writeReplyMr0 uc value) (fun _ s' => s'.portLog = s.portLog) fail s := by
  simp only [writeReplyMr0, setMr, writeCurrentIpcBufferWord, wp_bind, wp_modifyContext,
    wp_currentIpcBuffer]
  split
  · rfl
  · rfl

/--
An access that is made is within the range; a refused call makes none and changes nothing.

Where the range ends with the last port there is, the access must end within the port space.
-/
theorem handleIoPort_within (uc : Addr)
    (access : ArchInvocation.ofRaw s.env.arch label = some (.ioPortIn width) ∨
      ArchInvocation.ofRaw s.env.arch label = some (.ioPortOut width))
    (isPort : port = (s.threads.tcbs uc).context.mr s.env.arch 0 % 2 ^ 16)
    (fits : port + width ≤ 2 ^ 16 ∨ last < 0xFFFF) :
    wp (handleIoPort uc (.ioPort first last) label length)
      (fun _ s' => (∀ i < width, first ≤ port + i ∧ port + i ≤ last ∧ port + i ≤ 0xFFFF) ∧
        ∃ written, s'.portLog = ⟨port, width, written⟩ :: s.portLog)
      (fun stop s' => (∃ e, stop = .error e) ∧ s' = s) s := by
  subst isPort
  simp only [handleIoPort, wp_bind, wp_archLabelOf]
  -- Reads and writes make the same check before the access.
  rcases access with access | access <;> rw [access] <;>
    simp only [wp_bind, wp_ite, wp_raise, wp_getMr, wp_get, wp_set, wp_modify, Abort.error.injEq,
      exists_eq', and_self, implies_true, true_and, Bool.not_eq_true', Bool.not_eq_false]
  · intro _ covers
    refine wp_mono (writeReplyMr0_portLog uc _) (fun _ s' log => ?_) fun _ _ => id
    exact ⟨((ioPortCovers_iff fits).mp covers).2, none, log⟩
  · intro _ covers
    exact ⟨((ioPortCovers_iff fits).mp covers).2, _, rfl⟩

/-- A thread that reads one byte from the port in its first message register. -/
def portReader (arg : Word) : KState where
  env := { arch := .x8664, idleTcb := 0, irqNode := 0, bootPtPool := 0, ioapicPins := 0, fuel := 0 }
  threads := { tcbs := fun _ => { context := { regs := fun i => if i = 9 then arg else 0 } } }

/-- A byte of the keyboard is read, and a word across the end of the port space is refused. -/
theorem handleIoPort_within_keyboard :
    wp (handleIoPort 1 (.ioPort 0x60 0x64) 45 1)
      (fun _ s' => (∀ i < 1, 0x60 ≤ 0x60 + i ∧ 0x60 + i ≤ 0x64 ∧ 0x60 + i ≤ 0xFFFF) ∧
        ∃ written, s'.portLog = [⟨0x60, 1, written⟩])
      (fun stop s' => (∃ e, stop = .error e) ∧ s' = portReader 0x60) (portReader 0x60) ∧
    wp (handleIoPort 1 (.ioPort 0xFFF0 0xFFFE) 47 1)
      (fun _ s' => (∀ i < 4, 0xFFF0 ≤ 0xFFFE + i ∧ 0xFFFE + i ≤ 0xFFFE ∧ 0xFFFE + i ≤ 0xFFFF) ∧
        ∃ written, s'.portLog = [⟨0xFFFE, 4, written⟩])
      (fun stop s' => (∃ e, stop = .error e) ∧ s' = portReader 0xFFFE) (portReader 0xFFFE) :=
  ⟨handleIoPort_within (s := portReader 0x60) 1 (.inl rfl) rfl (.inl (by decide)),
    handleIoPort_within (s := portReader 0xFFFE) 1 (.inl rfl) rfl (.inr (by decide))⟩

/-- Only the low half-word of the argument is looked at. -/
theorem handleIoPort_truncates :
    0xFFFF < ((portReader 0x10060).threads.tcbs 1).context.mr .x8664 0 ∧
      ∃ s', handleIoPort 1 (.ioPort 0x60 0x64) 45 1 (portReader 0x10060) = .ok () s' ∧
        s'.portLog = [⟨0x60, 1, none⟩] :=
  ⟨by decide, _, rfl, rfl⟩

end Rel4
