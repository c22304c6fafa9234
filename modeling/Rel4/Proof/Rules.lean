import Rel4.Kernel.Trap
import Rel4.Lib.Program

/-! Rules for the functions that read an invocation's input, and for errors handed on as values. -/

namespace Rel4

open Lib

variable {α : Type} {post : α → KState → Prop} {fail : Abort → KState → Prop} {s : KState}

@[simp] theorem wp_raise (e : SyscallError) :
    wp (raise e : Kern α) post fail s ↔ fail (.error e) s := Iff.rfl

@[simp] theorem wp_crash (text : String) :
    wp (crash text : Kern α) post fail s ↔ fail (.panic text) s := Iff.rfl

/-- An error that is handed on as a value no longer aborts. -/
theorem wp_attempt (prog : Kern α) {post : Except SyscallError α → KState → Prop} :
    wp (attempt prog) post fail s ↔
      wp prog (fun a => post (.ok a))
        (fun stop s' => match stop with
          | .error e => post (.error e) s'
          | _ => fail stop s') s := by
  simp only [wp, attempt]
  cases prog s with
  | ok a s' => rfl
  | error stop s' => cases stop <;> rfl

section Reads

variable {prog : Kern α}

@[simp] theorem wp_getMr {post : Word → KState → Prop} (uc : Addr) (index : Nat) :
    wp (getMr uc index) post fail s ↔
      post ((s.threads.tcbs uc).context.mr s.env.arch index) s := Iff.rfl

@[simp] theorem wp_getCapReg {post : Word → KState → Prop} (uc : Addr) :
    wp (getCapReg uc) post fail s ↔ post ((s.threads.tcbs uc).context.capReg s.env.arch) s :=
  Iff.rfl

@[simp] theorem wp_getMsgInfo {post : MessageInfo → KState → Prop} (uc : Addr) :
    wp (getMsgInfo uc) post fail s ↔
      post (.ofWord ((s.threads.tcbs uc).context.msgInfo s.env.arch)) s := Iff.rfl

@[simp] theorem wp_getContext {post : UserContext → KState → Prop} (uc : Addr) :
    wp (getContext uc) post fail s ↔ post (s.threads.tcbs uc).context s := Iff.rfl

@[simp] theorem wp_archLabelOf {post : Option ArchInvocation → KState → Prop} (label : Word) :
    wp (archLabelOf label) post fail s ↔ post (ArchInvocation.ofRaw s.env.arch label) s := Iff.rfl

@[simp] theorem wp_currentIpcBuffer {post : Option Addr → KState → Prop} :
    wp currentIpcBuffer post fail s ↔ post (s.threads.current.bind s.ipcBuffer) s := Iff.rfl

@[simp] theorem wp_readExtraCap {post : Word → KState → Prop} (index : Nat) :
    wp (readExtraCap index) post fail s ↔
      post (match s.threads.current.bind s.ipcBuffer with
        | some buffer => s.bufferWord buffer (122 + index)
        | none => 0) s := Iff.rfl

@[simp] theorem wp_modifyThreads {post : Unit → KState → Prop} (change : Threads → Threads) :
    wp (modifyThreads change) post fail s ↔ post () { s with threads := change s.threads } :=
  Iff.rfl

@[simp] theorem wp_modifyTcb {post : Unit → KState → Prop} (tcb : Addr) (change : Tcb → Tcb) :
    wp (modifyTcb tcb change) post fail s ↔
      post () { s with threads := s.threads.updTcb tcb change } := Iff.rfl

@[simp] theorem wp_modifyContext {post : Unit → KState → Prop} (tcb : Addr)
    (change : Arch → UserContext → UserContext) :
    wp (modifyContext tcb change) post fail s ↔
      post () { s with
        threads := s.threads.updTcb tcb fun t =>
          { t with context := change s.env.arch t.context } } := Iff.rfl

/-- A function that only reads leaves the state alone, whether it answers or not. -/
def ReadOnly (prog : Kern α) : Prop := ∀ s, wp prog (fun _ s' => s' = s) (fun _ s' => s' = s) s

/-- What a reading function's result may be is all a caller has to consider. -/
theorem ReadOnly.wp_of (reads : ReadOnly prog) {post : α → KState → Prop}
    (ok : ∀ a, prog s = .ok a s → post a s) (err : ∀ e, prog s = .error e s → fail e s) :
    wp prog post fail s := by
  have only := reads s
  unfold wp at only ⊢
  cases run : prog s <;> rw [run] at only <;> subst only
  · exact ok _ run
  · exact err _ run

theorem requireExtraCaps_readOnly (uc : Addr) (required : Nat) :
    ReadOnly (requireExtraCaps uc required) := by
  intro s
  simp [requireExtraCaps]

theorem lookupCapOr_readOnly (tcb : Addr) (cptr : Word) (e : SyscallError) :
    ReadOnly (lookupCapOr tcb cptr e) := by
  intro s
  simp only [lookupCapOr, wp_bind, wp_get]
  split <;> simp

theorem lookupExtraCapSlot_readOnly (thread : Addr) (index : Nat) :
    ReadOnly (lookupExtraCapSlot thread index) := by
  intro s
  simp only [lookupExtraCapSlot, wp_bind, wp_readExtraCap]
  exact lookupCapOr_readOnly _ _ _ s

theorem resolveSlot_readOnly (root : Cap) (index : Word) (depth : Nat) :
    ReadOnly (resolveSlot root index depth) := by
  intro s
  unfold resolveSlot
  split
  · simp only [wp_ite, wp_raise, implies_true, true_and, wp_bind, wp_get]
    intro
    split <;> simp
  · simp

theorem lookupVspace_readOnly (thread : Addr) : ReadOnly (lookupVspace thread) := by
  intro s
  simp only [lookupVspace, wp_bind]
  refine (lookupExtraCapSlot_readOnly thread 0).wp_of (fun found _ => ?_) (fun _ _ => rfl)
  split <;> simp

theorem readMr_readOnly (uc : Addr) (index : Nat) : ReadOnly (readMr uc index) := by
  intro s
  unfold readMr
  split <;> rfl

theorem cnodeDestination_readOnly (uc : Addr) (root : Cap) (length : Word) :
    ReadOnly (cnodeDestination uc root length) := by
  intro s
  simp only [cnodeDestination, wp_bind, wp_ite, wp_raise, wp_getMr]
  exact ⟨fun _ => trivial, fun _ => resolveSlot_readOnly _ _ _ s⟩

theorem cnodeSource_readOnly (thread uc : Addr) (dest : Slot) (length : Word) :
    ReadOnly (cnodeSource thread uc dest length) := by
  intro s
  simp only [cnodeSource, wp_bind, wp_ite, wp_raise, wp_getMr, wp_get]
  refine ⟨fun _ => trivial, fun _ => ?_⟩
  refine (requireExtraCaps_readOnly uc 1).wp_of (fun _ _ => ?_) fun _ _ => rfl
  refine (lookupExtraCapSlot_readOnly thread 0).wp_of (fun found _ => ?_) fun _ _ => rfl
  exact ⟨fun _ => rfl, fun _ => resolveSlot_readOnly _ _ _ s⟩

theorem rotateOperands_readOnly (thread uc : Addr) (root : Cap) (length : Word) :
    ReadOnly (rotateOperands thread uc root length) := by
  intro s
  simp only [rotateOperands, wp_bind, wp_ite, wp_raise, wp_getMr, wp_pure]
  refine (cnodeDestination_readOnly uc root length).wp_of (fun dest _ => ?_) fun _ _ => rfl
  refine ⟨fun _ => rfl, fun _ => ?_⟩
  refine (requireExtraCaps_readOnly uc 2).wp_of (fun _ _ => ?_) fun _ _ => rfl
  refine (readMr_readOnly uc 5).wp_of (fun srcData _ => ?_) fun _ _ => rfl
  refine (lookupExtraCapSlot_readOnly thread 1).wp_of (fun srcRoot _ => ?_) fun _ _ => rfl
  refine (lookupExtraCapSlot_readOnly thread 0).wp_of (fun pivotRoot _ => ?_) fun _ _ => rfl
  refine (readMr_readOnly uc 6).wp_of (fun _ _ => ?_) fun _ _ => rfl
  refine (readMr_readOnly uc 7).wp_of (fun _ _ => ?_) fun _ _ => rfl
  refine (resolveSlot_readOnly _ _ _).wp_of (fun src _ => ?_) fun _ _ => rfl
  refine (readMr_readOnly uc 4).wp_of (fun _ _ => ?_) fun _ _ => rfl
  exact (resolveSlot_readOnly _ _ _).wp_of (fun pivot _ => rfl) fun _ _ => rfl

end Reads

end Rel4
