import Rel4.Proof.FaultReply
import Rel4.Proof.Slots

/-! Replying and then receiving, as one system call and as two. -/

namespace Rel4

open Lib

variable {s s₁ : KState} {cur : Addr}

/-- Nothing has changed but the record of one thread, and who is linked where. -/
structure SparesOthers (caller : Addr) (s s' : KState) : Prop where
  env : s'.env = s.env
  caps : s'.caps = s.caps
  current : s'.threads.current = s.threads.current
  ntfns : s'.threads.ntfns = s.threads.ntfns
  eps : s'.threads.eps = s.threads.eps
  tcbs : ∀ t, t ≠ caller → s'.threads.tcbs t = s.threads.tcbs t

instance {caller : Addr} : IsPreorder KState (SparesOthers caller) where
  refl _ := ⟨rfl, rfl, rfl, rfl, rfl, fun _ _ => rfl⟩
  trans _ _ _ first second :=
    ⟨second.env.trans first.env, second.caps.trans first.caps, second.current.trans first.current,
      second.ntfns.trans first.ntfns, second.eps.trans first.eps,
      fun t other => (second.tcbs t other).trans (first.tcbs t other)⟩

section Keeps

theorem modifyTcb_spares (tcb : Addr) (change : Tcb → Tcb) :
    Succeeds (SparesOthers tcb) (modifyTcb tcb change) :=
  fun _ => ⟨rfl, rfl, rfl, rfl, rfl, fun _ other => Function.update_of_ne other ..⟩

theorem modifyContext_spares (tcb : Addr) (change : Arch → UserContext → UserContext) :
    Succeeds (SparesOthers tcb) (modifyContext tcb change) :=
  fun _ => ⟨rfl, rfl, rfl, rfl, rfl, fun _ other => Function.update_of_ne other ..⟩

theorem copyBufferWords_spares (tcb src dst : Addr) (start count : Nat) :
    Succeeds (SparesOthers tcb) (copyBufferWords src dst start count) := by
  refine succeeds_bind succeeds_get fun s => succeeds_ite (fun s' => ?_) (succeeds_pure _)
  simp only [setBufferWords, wp_modify]
  split
  · exact ⟨rfl, rfl, rfl, rfl, rfl, fun _ _ => rfl⟩
  · exact refl_of (SparesOthers tcb) s'

/-- A reply carries no capabilities. -/
theorem transferCaps_none (tcb receiver : Addr) (info : MessageInfo) (endpoint : Option Addr)
    (canGrant : Bool) :
    Succeeds (SparesOthers tcb) (transferCaps receiver info endpoint canGrant noExtraCaps) := by
  refine succeeds_bind succeeds_get fun s => ?_
  dsimp only
  split
  · -- The list of slots is empty or starts with no slot, and the loop stops there.
    have stops : ∀ requested, noExtraCaps.take requested = [] ∨
        ∃ rest, noExtraCaps.take requested = none :: rest := by
      intro requested
      cases requested with
      | zero => exact .inl rfl
      | succ n => exact .inr ⟨_, rfl⟩
    obtain stop | ⟨rest, stop⟩ := stops (min info.extraCaps msgMaxExtraCaps)
    all_goals
      rw [stop, transferCapsFrom]
      exact succeeds_pure _
  · exact succeeds_pure _

theorem transferMessage_spares (sender receiver : Addr) (info : MessageInfo) (badge : Word)
    (endpoint : Option Addr) (canGrant : Bool) :
    Succeeds (SparesOthers receiver)
      (transferMessage sender receiver info badge endpoint canGrant noExtraCaps) := by
  refine succeeds_bind succeeds_get fun s => succeeds_bind (modifyContext_spares _ _) fun _ =>
    succeeds_bind succeeds_get fun s' => ?_
  have rest : ∀ length, Succeeds (SparesOthers receiver) (do
      let caps ← transferCaps receiver info endpoint canGrant noExtraCaps
      modifyContext receiver fun arch context => context.setMsgInfo arch
        (MessageInfo.toWord
          { label := info.label, capsUnwrapped := caps.capsUnwrapped, extraCaps := caps.extraCaps,
            length })) :=
    fun _ => succeeds_bind (transferCaps_none _ _ _ _ _) fun _ => modifyContext_spares _ _
  dsimp only
  split
  · split
    · exact succeeds_bind (copyBufferWords_spares _ _ _ _ _) fun _ => rest _
    · exact rest _
  · exact rest _

/-- A reply changes nothing but the thread that it is for, until its own capability is deleted. -/
theorem replyToTcb_spares (uc caller : Addr) (canGrant : Bool) :
    Succeeds (SparesOthers caller) (replyToTcb uc caller canGrant) := by
  refine succeeds_bind succeeds_get fun s =>
    succeeds_bind (fun s' => refl_of (SparesOthers caller) s') fun info => ?_
  split
  · exact succeeds_pure _
  · have ends : ∀ wake fault, Succeeds (SparesOthers caller) (do
        modifyTcb caller (·.finishReplyState fault wake)
        if wake then
          modifyThreads (·.clearLinks caller)
          modifyThreads (·.enqueue s.env caller)) := by
      intro wake fault
      refine succeeds_bind (modifyTcb_spares _ _) fun _ => succeeds_ite ?_ (succeeds_pure _)
      exact succeeds_bind (fun _ => ⟨rfl, rfl, rfl, rfl, rfl, fun _ _ => rfl⟩) fun _ _ =>
        ⟨rfl, rfl, Threads.enqueue_current, Threads.enqueue_ntfns, Threads.enqueue_eps,
          fun t _ => congrFun Threads.enqueue_tcbs t⟩
    have writes : ∀ change : KState → Arch → UserContext → UserContext,
        Succeeds (SparesOthers caller) (do
          let s ← get
          modifyContext caller (change s)) :=
      fun _ => succeeds_bind succeeds_get fun _ => modifyContext_spares _ _
    -- The message is delivered as a message or as registers; either way the end is the same.
    dsimp only
    split
    · exact succeeds_bind (transferMessage_spares _ _ _ _ _ _) fun _ => ends _ _
    split
    · split
      · exact succeeds_bind (writes _) fun _ => ends _ _
      split
      · exact succeeds_bind (writes _) fun _ => ends _ _
      · exact ends _ _
    · exact ends _ _

end Keeps

section Condition

/-- The capability that a pointer of a thread names, if it resolves. -/
def KState.named (s : KState) (tcb : Addr) (cptr : Word) : Cap :=
  match s.lookupCap tcb cptr with
  | some (cap, _) => cap
  | none => .null

/-- Whether a fault of the thread reaches a handler. -/
def KState.hasFaultHandler (s : KState) (tcb : Addr) : Bool :=
  match s.faultHandlerCap tcb with
  | .endpoint ep _ canSend _ canGrant canGrantReply => canSend && (canGrant || canGrantReply) && ep != 0
  | _ => false

/-- The caller slot is free, or holds a capability to answer another thread with. -/
def KState.CallerSettled (s : KState) (cur : Addr) : Prop :=
  s.cap (tcbSlot cur tcbCaller) = .null ∨
    ∃ caller canGrant, s.cap (tcbSlot cur tcbCaller) = .reply caller canGrant false ∧
      caller ≠ 0 ∧ caller ≠ cur

/--
What the thread receives from is an endpoint; or it is nothing it can receive from, and no handler
is told so.
-/
def KState.ReceivesAlike (s : KState) (cur : Addr) : Prop :=
  match s.named cur ((s.threads.tcbs cur).context.capReg s.env.arch) with
  | .endpoint .. => True
  | .notification ntfn _ _ canReceive =>
    (ntfn = 0 ∨ canReceive = false ∨
      ((s.threads.ntfns ntfn).boundTcb.isSome ∧ (s.threads.ntfns ntfn).boundTcb ≠ some cur)) ∧
      s.hasFaultHandler cur = false
  | _ => s.hasFaultHandler cur = false

end Condition

section Freed

/-- The caller slot has been emptied; all else that a receive looks at is as it was. -/
structure Freed (cur : Addr) (s s₁ : KState) : Prop where
  env : s₁.env = s.env
  current : s₁.threads.current = s.threads.current
  ntfns : s₁.threads.ntfns = s.threads.ntfns
  eps : s₁.threads.eps = s.threads.eps
  self : s₁.threads.tcbs cur = s.threads.tcbs cur
  caps : ∀ x, s₁.cap x = if x = tcbSlot cur tcbCaller then .null else s.cap x

/-- The reply returns, and leaves the caller slot free. -/
theorem ipcReply_frees (current : s.threads.current = some cur) (settled : s.CallerSettled cur) :
    wp (ipcReply cur) (fun _ => Freed cur s) (fun _ _ => False) s := by
  simp only [ipcReply, wp_bind, wp_get, current]
  obtain empty | ⟨caller, canGrant, held, real, other⟩ := settled
  · rw [empty]
    refine ⟨rfl, rfl, rfl, rfl, rfl, fun x => ?_⟩
    split
    · rename_i here
      rw [here, empty]
    · rfl
  · have differs : some cur ≠ some caller := fun same => other (Option.some.inj same).symm
    simp only [handleReplySlot, held, wp_bind, wp_get, wp_ite, wp_pure, current]
    refine ⟨fun _ => ?_, fun unused => absurd ⟨real, rfl, differs⟩ unused⟩
    refine wp_mono (replyToTcb_spares cur caller canGrant s) (fun _ s' spares => ?_) fun _ _ => id
    have held' : s'.cap (tcbSlot cur tcbCaller) = .reply caller canGrant false := by
      rw [KState.cap, spares.caps]
      exact held
    simp only [cteDeleteOne, held', Cap.isNull, finalizeAtOnce, emptyFinalizedSlot, postCapDeletion,
      wp_bind, wp_get, wp_ite, wp_pure, wp_set, wp_crash]
    refine ⟨fun _ => ⟨fun _ => ⟨fun _ => ?_, fun no => absurd rfl no⟩, fun no => absurd trivial no⟩,
      fun no => absurd rfl no⟩
    refine ⟨spares.env, spares.current, spares.ntfns, spares.eps, spares.tcbs cur other.symm,
      fun x => CapStore.emptySlot_cap.trans ?_⟩
    rw [spares.caps]
    rfl

/-- A walk does not pass a slot with a reply capability, so that emptying the slot is no difference. -/
theorem lookupSlotIn_freed (cs cs' : CapStore) {slot : Slot}
    (others : ∀ x, x ≠ slot → (cs'.ctes x).cap = (cs.ctes x).cap) (free : (cs'.ctes slot).cap = .null)
    (held : (cs.ctes slot).cap = .null ∨ ∃ t grant, (cs.ctes slot).cap = .reply t grant false)
    (steps : Nat) (root : Cap) (cptr : Word) (depth : Nat) :
    cs'.lookupSlotIn steps root cptr depth = cs.lookupSlotIn steps root cptr depth := by
  induction steps generalizing root cptr depth with
  | zero => rfl
  | succ steps ih =>
    cases root with
    | cnode ptr radix guard guardSize =>
      simp only [CapStore.lookupSlotIn]
      generalize slotAt ptr (cptr / 2 ^ (depth - (radix + guardSize)) % 2 ^ radix) = next
      by_cases here : next = slot
      · obtain empty | ⟨t, grant, held⟩ := held
        · simp only [here, free, empty]
        · simp only [here, free, held]
      · rw [others next here]
        cases (cs.ctes next).cap <;> simp only [ih]
    | _ => rfl

variable (settled : s.CallerSettled cur)

include settled in
/-- Every pointer names what it named, unless that was the capability to reply with. -/
theorem Freed.named_cases (freed : Freed cur s s₁) (tcb : Addr) (cptr : Word) :
    s₁.named tcb cptr = s.named tcb cptr ∨
      s₁.named tcb cptr = .null ∧ ∃ t grant, s.named tcb cptr = .reply t grant false := by
  have held : s.cap (tcbSlot cur tcbCaller) = .null ∨
      ∃ t grant, s.cap (tcbSlot cur tcbCaller) = .reply t grant false := by
    obtain empty | ⟨t, grant, held, -⟩ := settled
    · exact .inl empty
    · exact .inr ⟨t, grant, held⟩
  have walk := lookupSlotIn_freed s.caps s₁.caps
    (fun x other => (freed.caps x).trans (if_neg other)) ((freed.caps _).trans (if_pos rfl)) held
  -- The root is the same, or no node before and after.
  have slots : s₁.caps.lookupSlotExact (s₁.cspaceCap tcb) cptr wordBits =
      s.caps.lookupSlotExact (s.cspaceCap tcb) cptr wordBits := by
    simp only [CapStore.lookupSlotExact, walk, KState.cspaceCap, freed.caps]
    by_cases here : tcbSlot tcb tcbCTableSlot = tcbSlot cur tcbCaller
    · obtain empty | ⟨t, grant, held⟩ := held
      · rw [if_pos here, here, empty]
      · rw [if_pos here, here, held]
        rfl
    · rw [if_neg here]
  unfold KState.named KState.lookupCap
  rw [slots]
  cases s.caps.lookupSlotExact (s.cspaceCap tcb) cptr wordBits with
  | none => exact .inl rfl
  | some slot =>
    simp only [Option.map_some, freed.caps]
    split
    · rename_i here
      rw [here]
      obtain empty | held := held
      · exact .inl empty.symm
      · exact .inr ⟨rfl, held⟩
    · exact .inl rfl

include settled in
theorem Freed.hasFaultHandler_eq (freed : Freed cur s s₁) :
    s₁.hasFaultHandler cur = s.hasFaultHandler cur := by
  have same : s₁.faultHandlerCap cur = s.faultHandlerCap cur ∨ s₁.faultHandlerCap cur = .null ∧
      ∃ t grant, s.faultHandlerCap cur = .reply t grant false := by
    unfold KState.faultHandlerCap
    rw [freed.self]
    dsimp only
    split
    · exact .inl rfl
    · exact freed.named_cases settled cur _
  unfold KState.hasFaultHandler
  obtain same | ⟨gone, t, grant, was⟩ := same
  · rw [same]
  · rw [gone, was]

include settled in
/-- The reply makes no difference to what there is to receive. -/
theorem Freed.receivesAlike_iff (freed : Freed cur s s₁) :
    s₁.ReceivesAlike cur ↔ s.ReceivesAlike cur := by
  unfold KState.ReceivesAlike
  rw [freed.hasFaultHandler_eq settled, freed.self, freed.env, freed.ntfns]
  obtain same | ⟨gone, t, grant, was⟩ :=
    freed.named_cases settled cur ((s.threads.tcbs cur).context.capReg s.env.arch)
  · rw [same]
  · rw [gone, was]

end Freed

section Receives

/-- An empty caller slot is left as it is. -/
theorem deleteCallerCap_empty (empty : s.cap (tcbSlot cur tcbCaller) = .null) :
    deleteCallerCap cur s = .ok () s := by
  refine run_eq_ok_of_wp ?_
  simp [deleteCallerCap, cteDeleteOne, empty, Cap.isNull]

/-- Nobody is told of the fault of a thread without a handler. -/
theorem sendCapFaultIpc_unheard (current : s.threads.current = some cur)
    (unheard : s.hasFaultHandler cur = false) (addr : Word) (inRecvPhase : Bool) :
    sendCapFaultIpc cur addr inRecvPhase s = .ok false s := by
  refine run_eq_ok_of_wp ?_
  simp only [sendCapFaultIpc, sendSyntheticFaultIpc, wp_bind, wp_getContext, wp_get, current]
  unfold KState.hasFaultHandler at unheard
  split
  case h_1 ep badge receive canGrant canGrantReply held =>
    simp only [held, Bool.true_and] at unheard
    simp only [wp_ite, wp_pure, wp_bind, true_and]
    refine ⟨fun _ => trivial, fun usable => absurd usable ?_⟩
    by_cases real : ep = 0 <;> simp_all
  case h_2 => exact ⟨rfl, rfl⟩

/-- A receive that nobody hears of answers with nothing. -/
theorem writeRecvCapFaultOrEmpty_unheard (current : s.threads.current = some cur)
    (unheard : s.hasFaultHandler cur = false) (cptr : Word) :
    writeRecvCapFaultOrEmpty cur cptr s = writeEmptyReply cur s :=
  bind_of_ok (sendCapFaultIpc_unheard current unheard cptr true)

/-- Where the pointer names no endpoint, the receive on endpoints answers with nothing. -/
theorem ipcRecv_missing (current : s.threads.current = some cur)
    (missing : ∀ ep badge send receive grant grantReply, s.named cur
      ((s.threads.tcbs cur).context.capReg s.env.arch) ≠ .endpoint ep badge send receive grant grantReply) :
    ipcRecv cur true s = writeEmptyReply cur s := by
  have none : s.lookupEndpoint ((s.threads.tcbs cur).context.capReg s.env.arch) = none := by
    unfold KState.named at missing
    simp only [KState.lookupEndpoint, current, Option.bind_eq_bind, Option.bind_some]
    cases found : s.lookupCap cur ((s.threads.tcbs cur).context.capReg s.env.arch) with
    | none => rfl
    | some resolved =>
      obtain ⟨cap, slot⟩ := resolved
      rw [found] at missing
      cases cap <;> first | rfl | exact (missing _ _ _ _ _ _ rfl).elim
  refine (bind_of_ok (rfl : (get : Kern KState) s = .ok s s)).trans ?_
  refine (bind_of_ok (rfl : getCapReg cur s = .ok _ s)).trans ?_
  rw [none]

/-- With a free caller slot, the receive system call goes by what the pointer names. -/
theorem doRecv_eq (current : s.threads.current = some cur)
    (free : s.cap (tcbSlot cur tcbCaller) = .null) :
    doRecv cur true s =
      (let cptr := (s.threads.tcbs cur).context.capReg s.env.arch
      match s.named cur cptr with
      | .endpoint .. => ipcRecv cur true
      | .notification ntfn _ _ canReceive =>
        let bound := (s.threads.ntfns ntfn).boundTcb
        if ntfn = 0 ∨ !canReceive ∨ (bound.isSome ∧ bound ≠ some cur) then
          writeRecvCapFaultOrEmpty cur cptr
        else do
          set { s with threads := (s.threads.wait ntfn cur true).2 }
          match (s.threads.wait ntfn cur true).1 with
          | some badge => writeBadgeReply cur cur badge
          | none => pure ()
      | _ => writeRecvCapFaultOrEmpty cur cptr) s := by
  refine (bind_of_ok (rfl : (get : Kern KState) s = .ok s s)).trans ?_
  rw [current]
  refine (bind_of_ok (deleteCallerCap_empty free)).trans ?_
  refine (bind_of_ok (rfl : getCapReg cur s = .ok _ s)).trans ?_
  refine (bind_of_ok (rfl : (get : Kern KState) s = .ok s s)).trans ?_
  unfold KState.named
  dsimp only
  cases s.lookupCap cur ((s.threads.tcbs cur).context.capReg s.env.arch) with
  | none => rfl
  | some resolved =>
    obtain ⟨cap, slot⟩ := resolved
    cases cap <;> rfl

/-- Once the caller slot is free, the two receive calls agree on what they can agree on. -/
theorem doRecv_eq_ipcRecv (current : s.threads.current = some cur)
    (free : s.cap (tcbSlot cur tcbCaller) = .null) (alike : s.ReceivesAlike cur) :
    doRecv cur true s = ipcRecv cur true s := by
  rw [doRecv_eq current free]
  unfold KState.ReceivesAlike at alike
  dsimp only
  cases names : s.named cur ((s.threads.tcbs cur).context.capReg s.env.arch) with
  | endpoint => rfl
  | notification ntfn badge canSend canReceive =>
    rw [names] at alike
    rw [ipcRecv_missing current (by simp [names])]
    dsimp only
    rw [if_pos (by simpa using alike.1)]
    exact writeRecvCapFaultOrEmpty_unheard current alike.2 _
  | _ =>
    rw [names] at alike
    rw [ipcRecv_missing current (by simp [names])]
    exact writeRecvCapFaultOrEmpty_unheard current alike _

end Receives

section Differs

theorem clearBufferMrs_threads (tcb : Addr) :
    wp (clearBufferMrs tcb) (fun _ s' => s'.threads = s.threads) (fun _ _ => False) s := by
  simp only [clearBufferMrs, wp_bind, wp_get]
  split
  · simp only [setBufferWords, wp_modify]
    split <;> rfl
  · rfl

/-- An answer with nothing leaves the thread running, and every notification as it is. -/
theorem writeEmptyReply_runs (current : s.threads.current = some cur)
    (runs : (s.threads.tcbs cur).state = .running) :
    wp (writeEmptyReply cur) (fun _ s' => (s'.threads.tcbs cur).state = .running ∧
      s'.threads.ntfns = s.threads.ntfns) (fun _ _ => False) s := by
  simp only [writeEmptyReply, wp_bind, wp_modifyContext, wp_get, Threads.updTcb, current]
  refine wp_mono (clearBufferMrs_threads cur) (fun _ s' same => ?_) fun _ _ => id
  rw [same]
  exact ⟨by simpa using runs, rfl⟩

/-- The caller slot of a thread is free, or holds a reply capability. -/
def KState.CallerIsReply (s : KState) (receiver : Addr) : Prop :=
  s.cap (tcbSlot receiver tcbCaller) = .null ∨
    ∃ t grant master, s.cap (tcbSlot receiver tcbCaller) = .reply t grant master

theorem KState.CallerSettled.isReply {t : Addr} (settled : s.CallerSettled t) : s.CallerIsReply t := by
  obtain empty | ⟨caller, grant, held, -⟩ := settled
  · exact .inl empty
  · exact .inr ⟨caller, grant, false, held⟩

/-- Forgetting a reply capability is about the slots. -/
theorem deleteCallerCap_threads {receiver : Addr} (held : s.CallerIsReply receiver) :
    Returns (deleteCallerCap receiver) (fun _ s' => s'.threads = s.threads) s := by
  simp only [Returns, deleteCallerCap, cteDeleteOne, wp_bind, wp_get, wp_ite, wp_pure, wp_crash]
  refine ⟨fun live => ?_, fun _ => trivial⟩
  obtain empty | ⟨t, grant, master, held⟩ := held
  · simp [empty, Cap.isNull] at live
  · simp only [held, finalizeAtOnce, emptyFinalizedSlot, postCapDeletion, wp_bind, wp_get, wp_pure, wp_ite,
      wp_set, implies_true, and_self]

/-- The master capability is a reply capability too, should the slots be the same. -/
theorem setupReplyMaster_isReply {receiver : Addr} (held : s.CallerIsReply receiver) :
    Returns (setupReplyMaster cur) (fun _ s' => s'.CallerIsReply receiver) s := by
  simp only [Returns, setupReplyMaster, wp_bind, wp_get, wp_ite, wp_set]
  refine ⟨fun _ => ?_, fun _ => held⟩
  have caps (x : Slot) : KState.cap { s with
      caps := s.caps.installRoot (tcbSlot cur tcbReply) (.reply cur true true) } x =
        if x = tcbSlot cur tcbReply then .reply cur true true else s.cap x :=
    CapStore.modify_const_cap _
  unfold KState.CallerIsReply
  rw [caps]
  split
  · exact .inr ⟨cur, true, true, rfl⟩
  · exact held

/-- A thread that is handed over as a caller waits for the reply. -/
theorem setupCallerCap_blocks {receiver : Addr} (canGrant : Bool) (held : s.CallerIsReply receiver) :
    Returns (setupCallerCap cur receiver canGrant)
      (fun _ s' => (s'.threads.tcbs cur).state = .blockedOnReply) s := by
  have inserts (s' : KState) (waits : (s'.threads.tcbs cur).state = .blockedOnReply) (src dest : Slot) :
      Returns (cteInsert src (.reply cur canGrant false) dest)
        (fun _ s' => (s'.threads.tcbs cur).state = .blockedOnReply) s' := by
    simp only [Returns, cteInsert, wp_bind, wp_get, wp_ite, wp_crash, wp_set, implies_true, true_and]
    exact fun _ _ => waits
  simp only [Returns, setupCallerCap, wp_bind, wp_get, wp_modifyTcb]
  refine (setupReplyMaster_isReply held).mono fun _ s' held => ?_
  -- Nothing that follows wakes the thread.
  generalize blocked : { s' with threads := s'.threads.updTcb cur Tcb.setBlockedOnReply } = s''
  have waits : (s''.threads.tcbs cur).state = .blockedOnReply := by
    simp [← blocked, Threads.updTcb, Tcb.setBlockedOnReply]
  replace held : s''.CallerIsReply receiver := blocked ▸ held
  split
  · simp only [wp_ite, wp_bind, wp_get, wp_pure]
    refine ⟨fun _ => waits, fun _ => ⟨fun _ => ?_, fun _ => inserts s'' waits _ _⟩⟩
    exact (deleteCallerCap_threads held).mono fun _ _ same => inserts _ (same ▸ waits) _ _
  · exact waits

/-- A thread whose fault is handed over does not run on. -/
theorem finishFaultIpcReceive_stops {receiver : Addr} (other : receiver ≠ cur) (grants : Bool)
    (held : s.CallerIsReply receiver) :
    Returns (finishFaultIpcReceive receiver cur grants)
      (fun _ s' => (s'.threads.tcbs cur).state ≠ .running) s := by
  have finish (s' : KState) (stopped : (s'.threads.tcbs cur).state ≠ .running) :
      (((s'.threads.updTcb receiver Tcb.finishReceiverRendezvous).enqueue s'.env receiver).tcbs cur).state ≠
        .running := by
    simpa [Threads.updTcb, other.symm] using stopped
  have stops (env : Env) (th : Threads) : ((((th.updTcb cur fun t => { t with
      state := .inactive, waitingOn := none }).updTcb receiver Tcb.finishReceiverRendezvous).enqueue env
        receiver).tcbs cur).state ≠ .running := by
    simp [Threads.updTcb, other.symm]
  simp only [Returns, finishFaultIpcReceive, stopFaulted, wp_bind, wp_get, wp_modifyTcb, wp_modifyThreads, wp_ite]
  refine ⟨fun _ => ?_, fun _ => stops _ _⟩
  refine wp_mono (setupCallerCap_blocks _ ?_) (fun done s' waits => ?_) fun _ _ => id
  · exact held
  · refine ⟨fun _ => stops _ _, fun _ => finish s' ?_⟩
    rw [waits]
    decide

/-- Whoever waits first at an endpoint is another thread, with nothing or a reply in its caller slot. -/
def KState.WaitersSettled (s : KState) (cur : Addr) : Prop :=
  ∀ ep t, (s.threads.eps ep).ends.head = some t → t ≠ cur ∧ s.CallerSettled t

theorem popReceiver_head {th : Threads} {ep t : Addr} (popped : (th.popReceiver ep).1 = some t) :
    (th.eps ep).ends.head = some t := by
  unfold Threads.popReceiver Threads.popWaiterIfState Threads.epPopHead Threads.popFront Lib.popFront Threads.ends
    at popped
  split at popped
  · cases popped
  · cases first : (th.eps ep).ends.head with
    | none => simp [first] at popped
    | some head => simpa [first] using popped

/-- Nor does one whose fault is queued at the handler's endpoint. -/
theorem deliverFaultIpc_stops (settled : s.WaitersSettled cur) (ep : Addr) (badge : Word)
    (canGrant canGrantReply : Bool) (label len : Word) (mrs : List Word) :
    Returns (deliverFaultIpc cur ep badge canGrant canGrantReply label len mrs)
      (fun _ s' => (s'.threads.tcbs cur).state ≠ .running) s := by
  have waits := fun t (popped : (s.threads.popReceiver ep).1 = some t) => settled ep t (popReceiver_head popped)
  rw [← popReceiver_updTcb s.threads cur (·.recordFaultMessage label len mrs)] at waits
  simp only [Returns, deliverFaultIpc, wp_bind, wp_modifyTcb, wp_get]
  generalize (s.threads.updTcb cur (·.recordFaultMessage label len mrs)).popReceiver ep = popped at waits
  obtain ⟨receiver, th⟩ := popped
  cases receiver with
  | none =>
    simp [Threads.epEnqueueWaiter, Threads.updEp, Threads.updTcb, Tcb.setBlockedFaultSender]
  | some receiver =>
    obtain ⟨other, held⟩ := waits receiver rfl
    simp only [wp_bind, wp_set, writeFaultIpcMessage, wp_modifyContext, wp_get]
    split
    · simp only [wp_ite, setBufferWords, wp_modify, wp_pure]
      refine ⟨fun _ => finishFaultIpcReceive_stops other _ ?_, fun _ => finishFaultIpcReceive_stops other _ held.isReply⟩
      split <;> exact held.isReply
    · exact finishFaultIpcReceive_stops other _ held.isReply

/-- A receive that a handler is told of does not let the thread run on. -/
theorem writeRecvCapFaultOrEmpty_stops (current : s.threads.current = some cur)
    (settled : s.WaitersSettled cur) (heard : s.hasFaultHandler cur = true) (cptr : Word) :
    Returns (writeRecvCapFaultOrEmpty cur cptr) (fun _ s' => (s'.threads.tcbs cur).state ≠ .running) s := by
  unfold KState.hasFaultHandler at heard
  simp only [Returns, writeRecvCapFaultOrEmpty, sendCapFaultIpc, sendSyntheticFaultIpc, wp_bind, wp_getContext,
    wp_get, current]
  split at heard
  · rename_i ep badge canSend receive canGrant canGrantReply handler
    simp only [Bool.and_eq_true, bne_iff_ne] at heard
    obtain ⟨⟨sends, grants⟩, real⟩ := heard
    simp only [handler, sends, grants, real, wp_ite, wp_bind, wp_pure]
    refine ⟨fun no => absurd no (by simp), fun _ => ?_⟩
    exact (deliverFaultIpc_stops settled ..).mono fun _ s' stopped =>
      ⟨fun no => absurd no (by decide), fun _ => stopped⟩
  · cases heard

/-- Waiting for a notification takes its signal, or blocks the thread. -/
theorem wait_differs (s : KState) (ntfn cur : Addr) :
    (((s.threads.wait ntfn cur true).2.tcbs cur).state ≠ .running ∧ (s.threads.wait ntfn cur true).1 = none) ∨
      (s.threads.wait ntfn cur true).2.ntfns ≠ s.threads.ntfns := by
  unfold Threads.wait Threads.consumeActive
  by_cases active : (s.threads.ntfns ntfn).state = .active
  · refine .inr fun same => ?_
    simp only [active, if_true] at same
    have idle := congrArg (·.state) (congrFun same ntfn)
    simp [Threads.updNtfn, active] at idle
  · refine .inl ?_
    simp [active, Threads.updTcb, Threads.updNtfn, Tcb.setBlockedOnNotification]

/-- Where the two receive calls need not agree, they do not. -/
theorem doRecv_ne_ipcRecv (current : s.threads.current = some cur) (runs : (s.threads.tcbs cur).state = .running)
    (settled : s.WaitersSettled cur) (free : s.cap (tcbSlot cur tcbCaller) = .null) (unlike : ¬ s.ReceivesAlike cur) :
    doRecv cur true s ≠ ipcRecv cur true s := by
  have differs : Returns (doRecv cur true) (fun _ s' => (s'.threads.tcbs cur).state ≠ .running ∨
      s'.threads.ntfns ≠ s.threads.ntfns) s := by
    have told := fun heard cptr => (writeRecvCapFaultOrEmpty_stops current settled heard cptr).mono
      fun _ s' stopped => (.inl stopped : (s'.threads.tcbs cur).state ≠ .running ∨ s'.threads.ntfns ≠ s.threads.ntfns)
    have of_eq (prog : Kern Unit) (same : doRecv cur true s = prog s) {post : Unit → KState → Prop}
        (returns : Returns prog post s) : Returns (doRecv cur true) post s := by
      unfold Returns wp at returns ⊢
      rwa [same]
    refine of_eq _ (doRecv_eq current free) ?_
    unfold KState.ReceivesAlike at unlike
    dsimp only
    cases names : s.named cur ((s.threads.tcbs cur).context.capReg s.env.arch) with
    | endpoint =>
      rw [names] at unlike
      exact absurd trivial unlike
    | notification ntfn badge canSend canReceive =>
      rw [names] at unlike
      simp only [wp_ite, wp_bind, wp_set]
      refine ⟨fun refused => told (by simpa using not_and.mp unlike (by simpa using refused)) _, fun _ => ?_⟩
      obtain ⟨stopped, none⟩ | taken := wait_differs s ntfn cur
      · rw [none]
        exact .inl stopped
      · cases (s.threads.wait ntfn cur true).1 with
        | none => exact .inr taken
        | some badge =>
          simp only [writeBadgeReply, wp_bind, wp_modifyContext]
          refine wp_mono (clearBufferMrs_threads cur) (fun _ s' same => .inr ?_) fun _ _ => False.elim
          rw [same]
          exact taken
    | _ =>
      rw [names] at unlike
      exact told (by simpa using unlike) _
  have missing : ∀ ep badge send receive grant grantReply, s.named cur
      ((s.threads.tcbs cur).context.capReg s.env.arch) ≠ .endpoint ep badge send receive grant grantReply := by
    intro ep badge send receive grant grantReply names
    exact unlike (by simp [KState.ReceivesAlike, names])
  obtain ⟨_, s', run, running, same⟩ := exists_ok_of_wp (writeEmptyReply_runs current runs)
  intro equal
  rw [ipcRecv_missing current missing, run] at equal
  exact (ok_of_wp differs equal).elim (· running) (· same)

end Differs

/--
One call that replies and receives does what the two calls do one after the other just when the
thread receives from an endpoint, or from nothing and without a handler that hears of it.
-/
theorem replyRecv_refines_iff (current : s.threads.current = some cur)
    (runs : (s.threads.tcbs cur).state = .running) (settled : s.CallerSettled cur)
    (waiters : s.WaitersSettled cur) :
    ipcReplyRecv cur s = (do ipcReply cur; doRecv cur true) s ↔ s.ReceivesAlike cur := by
  obtain ⟨_, s₁, run, freed⟩ := exists_ok_of_wp (ipcReply_frees current settled)
  have current₁ : s₁.threads.current = some cur := freed.current.trans current
  have free : s₁.cap (tcbSlot cur tcbCaller) = .null := (freed.caps _).trans (if_pos rfl)
  rw [ipcReplyRecv, bind_of_ok run, bind_of_ok run, ← freed.receivesAlike_iff settled]
  refine ⟨fun equal => ?_, fun alike => (doRecv_eq_ipcRecv current₁ free alike).symm⟩
  by_contra unlike
  -- The reply has touched neither the queues nor what the waiting threads may reply with.
  refine doRecv_ne_ipcRecv current₁ (freed.self ▸ runs) (fun ep t first => ?_) free unlike equal.symm
  rw [freed.eps] at first
  obtain ⟨other, held⟩ := waiters ep t first
  refine ⟨other, ?_⟩
  unfold KState.CallerSettled at held ⊢
  rw [freed.caps]
  split
  · exact .inl rfl
  · exact held

/-- A thread that replies to nobody and receives from the capability in one of its slots. -/
def receivingThread (cap : Cap) : KState where
  env := { arch := .riscv64, idleTcb := 0, irqNode := 0, bootPtPool := 0, ioapicPins := 0, fuel := 4 }
  caps :=
    { ctes := fun slot =>
        if slot = tcbSlot 4096 tcbCTableSlot then { cap := .cnode 8192 1 0 63 }
        else if slot = slotAt 8192 1 then { cap }
        else {} }
  threads :=
    { current := some 4096
      tcbs := fun t =>
        if t = 4096 then
          { state := .running, context := ({} : UserContext).setCapReg .riscv64 1 } else {}
      ntfns := fun _ => { state := .active, badge := 5 } }

theorem receivingThread_endpoint :
    ipcReplyRecv 4096 (receivingThread (.endpoint 64 0 true true true true)) =
      (do ipcReply 4096; doRecv 4096 true) (receivingThread (.endpoint 64 0 true true true true)) := by
  refine (replyRecv_refines_iff rfl rfl (.inl rfl) fun ep t first => ?_).mpr trivial
  simp [receivingThread] at first

/--
A thread that replies and receives on a notification with a pending signal.

The one call answers with nothing and leaves the signal; the two calls collect its badge.
-/
theorem receivingThread_notification :
    ∃ s₁ s₂, ipcReplyRecv 4096 (receivingThread (.notification 64 0 true true)) = .ok () s₁ ∧
      (do ipcReply 4096; doRecv 4096 true) (receivingThread (.notification 64 0 true true)) =
        .ok () s₂ ∧
      (s₁.threads.tcbs 4096).context.capReg .riscv64 = 0 ∧ (s₁.threads.ntfns 64).state = .active ∧
      (s₂.threads.tcbs 4096).context.capReg .riscv64 = 5 ∧ (s₂.threads.ntfns 64).state = .idle :=
  ⟨_, _, rfl, rfl, rfl, rfl, rfl, rfl⟩

end Rel4
