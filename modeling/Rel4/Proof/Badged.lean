import Rel4.Proof.Wake

/-! What cancelling the senders of one badge does to every thread and queue. -/

namespace Rel4

open Lib

namespace Threads

variable {env : Env} {th th' : Threads} {lists : QueueId → List Addr} {flux : Set Addr}
  {t ep : Addr} {badge : Word} {l : List Addr}

/-- A cancelled sender of a fault stops, and its message stays for whoever looks after it. -/
theorem cancelEndpointWaiter_fault {tcb : Tcb} (state : tcb.state = .blockedOnSend)
    (fault : tcb.senderIsFault = true) :
    tcb.cancelEndpointWaiter.1 =
      { tcb.clearEndpointIpcState with
        state := .inactive, waitingOn := none, senderIsFault := true, faultLabel := tcb.faultLabel,
        faultLen := tcb.faultLen, faultMrs := tcb.faultMrs } := by
  simp [Tcb.cancelEndpointWaiter, Tcb.clearEndpointIpcStatePreservingFault, state, fault,
    Tcb.clearEndpointIpcState, Tcb.clearFault]

/-- Any other cancelled sender starts over. -/
theorem cancelEndpointWaiter_plain {tcb : Tcb} (state : tcb.state = .blockedOnSend)
    (plain : tcb.senderIsFault = false) :
    tcb.cancelEndpointWaiter.1 =
      { tcb.clearEndpointIpcState with state := .restart, waitingOn := none } := by
  simp [Tcb.cancelEndpointWaiter, state, plain, Tcb.clearEndpointIpcState, Tcb.clearFault]

/-- The queues once the senders of a badge are gone: those that start over are queued in order. -/
def cancelledLists (th : Threads) (lists : QueueId → List Addr) (ep : Addr) (badge : Word) :
    QueueId → List Addr :=
  Function.update (Function.update lists (.endpoint ep) (th.keptSenders badge (lists (.endpoint ep))))
    .run (lists .run ++
      (th.badgedSenders badge (lists (.endpoint ep))).filter fun t => !(th.tcbs t).senderIsFault)

/-- Exactly the senders of one badge left their endpoint. -/
structure BadgeCancelled (env : Env) (th th' : Threads) (lists : QueueId → List Addr)
    (flux : Set Addr) (ep : Addr) (badge : Word) : Prop where
  queues : th'.Ordered env (th.cancelledLists lists ep badge) flux ∅
  idle : (th'.eps ep).state = .idle ↔ th.keptSenders badge (lists (.endpoint ep)) = []
  eps : ∀ other, other ≠ ep → th'.eps other = th.eps other
  kept : ∀ t ∉ th.badgedSenders badge (lists (.endpoint ep)), th'.tcbs t = th.tcbs t
  restarted : ∀ t ∈ th.badgedSenders badge (lists (.endpoint ep)),
    (th.tcbs t).senderIsFault = false → (th'.tcbs t).state = .restart ∧
      (th.cancelledLists lists ep badge .run).count t = 1
  stopped : ∀ t ∈ th.badgedSenders badge (lists (.endpoint ep)),
    (th.tcbs t).senderIsFault = true → (th'.tcbs t).state = .inactive ∧
      (th'.tcbs t).senderIsFault = true ∧ (th'.tcbs t).faultLabel = (th.tcbs t).faultLabel ∧
      (th'.tcbs t).faultLen = (th.tcbs t).faultLen ∧ (th'.tcbs t).faultMrs = (th.tcbs t).faultMrs

/-- A queue of senders is nobody's, or its endpoint says that it is sending. -/
theorem Ordered.sending_of_senders (ord : th.Ordered env lists flux ∅)
    (senders : ∀ t ∈ lists (.endpoint ep), (th.tcbs t).state = .blockedOnSend) :
    lists (.endpoint ep) = [] ∨ (th.eps ep).state = .sending := by
  cases queue : lists (.endpoint ep) with
  | nil => exact .inl rfl
  | cons t rest =>
    right
    have here : t ∈ lists (.endpoint ep) := by simp [queue]
    -- A thread in the queue is blocked in the direction the endpoint says.
    have state := (ord.eps ep).waiter t here
    rw [senders t here] at state
    cases kind : (th.eps ep).state <;> simp [kind, EpState.waiterState] at state ⊢

/-- Of the senders let go, exactly those without a fault may run. -/
theorem queuedAfter_cancelled
    (senders : ∀ t ∈ l, (th.tcbs t).state = .blockedOnSend) :
    queuedAfter lists (fun t => (th.tcbs t).cancelEndpointWaiter.1) (th.badgedSenders badge l) =
      Function.update lists .run (lists .run ++
        (th.badgedSenders badge l).filter fun t => !(th.tcbs t).senderIsFault) := by
  -- Whether a sender may run afterwards is decided by whether it faulted.
  have runs : ∀ t ∈ th.badgedSenders badge l,
      (th.tcbs t).cancelEndpointWaiter.1.state.isRunnable = !(th.tcbs t).senderIsFault := by
    intro t here
    have state := senders t (mem_badgedSenders.mp here).1
    cases fault : (th.tcbs t).senderIsFault
    · rw [cancelEndpointWaiter_plain state fault]
      rfl
    · rw [cancelEndpointWaiter_fault state fault]
      rfl
  rw [queuedAfter, List.filter_congr runs]

/-- What becomes of the threads decides the rest: a queue holds nobody twice. -/
theorem BadgeCancelled.of_tcbs (queues : th'.Ordered env (th.cancelledLists lists ep badge) flux ∅)
    (idle : (th'.eps ep).state = .idle ↔ th.keptSenders badge (lists (.endpoint ep)) = [])
    (eps : ∀ other, other ≠ ep → th'.eps other = th.eps other)
    (senders : ∀ t ∈ lists (.endpoint ep), (th.tcbs t).state = .blockedOnSend)
    (tcbs : ∀ t, th'.tcbs t = if t ∈ th.badgedSenders badge (lists (.endpoint ep)) then
      (th.tcbs t).cancelEndpointWaiter.1 else th.tcbs t) :
    BadgeCancelled env th th' lists flux ep badge := by
  refine ⟨queues, idle, eps, fun t stays => ?_, fun t goes plain => ?_, fun t goes fault => ?_⟩
  · rw [tcbs, if_neg stays]
  · have state := senders t (mem_badgedSenders.mp goes).1
    rw [tcbs, if_pos goes, cancelEndpointWaiter_plain state plain]
    -- It was appended, and no queue has a thread twice.
    refine ⟨rfl, List.count_eq_one_of_mem (queues.family.queue .run).nodup ?_⟩
    rw [cancelledLists, Function.update_self]
    exact List.mem_append_right _ (List.mem_filter.mpr ⟨goes, by simp [plain]⟩)
  · have state := senders t (mem_badgedSenders.mp goes).1
    rw [tcbs, if_pos goes, cancelEndpointWaiter_fault state fault]
    exact ⟨rfl, rfl, rfl, rfl, rfl⟩

/-- Cancelling a badge removes its senders and nobody else, and treats each as its message asks. -/
theorem cancelBadgedSends_exact (ord : th.Ordered env lists flux ∅) (ep : Addr) (badge : Word)
    (senders : ∀ t ∈ lists (.endpoint ep), (th.tcbs t).state = .blockedOnSend) :
    BadgeCancelled env th (th.cancelBadgedSends env ep badge) lists flux ep badge := by
  by_cases sending : (th.eps ep).state = .sending
  · -- The senders are sorted first, and those to go are let go one after the other.
    obtain ⟨links, ends, drained⟩ := ord.cancelBadgedSends sending badge
    -- Nobody in a queue is the thread that is out of the queues for the moment.
    have apart : ∀ t ∈ th.badgedSenders badge (lists (.endpoint ep)), t ∉ flux := fun t here inFlux =>
      ord.out t inFlux _ (mem_badgedSenders.mp here).1
    have queues := drained.reordered apart
    refine .of_tcbs ?_ ?_ (fun other apart => ?_) senders drained.tcbs
    · have lists' : queuedAfter (Function.update lists (.endpoint ep)
          (th.keptSenders badge (lists (.endpoint ep)))) (fun t => (th.tcbs t).cancelEndpointWaiter.1)
          (th.badgedSenders badge (lists (.endpoint ep))) = _ := queuedAfter_cancelled senders
      rw [Function.update_of_ne (by simp)] at lists'
      rw [cancelledLists, ← lists']
      exact queues
    · rw [drained.eps]
      simp [updEp]
    · rw [drained.eps]
      simp [updEp, apart]
  · -- Without senders there is nothing to do.
    have nobody : lists (.endpoint ep) = [] := (ord.sending_of_senders senders).resolve_right sending
    have same : th.cancelBadgedSends env ep badge = th := if_pos sending
    rw [same]
    refine .of_tcbs ?_ ?_ (fun _ _ => rfl) senders fun t => ?_
    · have lists' : th.cancelledLists lists ep badge = lists := by
        simp [cancelledLists, nobody, keptSenders, badgedSenders]
        rw [← nobody]
        simp
      rw [lists']
      exact ord
    · simp [nobody, keptSenders, (ord.eps ep).idle]
    · simp [nobody, badgedSenders]

section Sample

/-- A plain sender, one that faulted, and one with another badge, behind each other. -/
def senderQueue : (Addr → Links) × QueueEnds :=
  let first := Lib.pushBack (fun _ => {}) {} 2
  let second := Lib.pushBack first.1 first.2 3
  Lib.pushBack second.1 second.2 4

/-- Three threads blocked on one endpoint, and the idle thread. -/
def threeSenders : Threads where
  tcbs := fun t =>
    if t = 1 then { state := .idle }
    else if t = 2 then { state := .blockedOnSend, waitingOn := some (.endpoint 8), senderBadge := 5 }
    else if t = 3 then
      { state := .blockedOnSend, waitingOn := some (.endpoint 8), senderBadge := 5,
        senderIsFault := true, faultLabel := 2 }
    else if t = 4 then { state := .blockedOnSend, waitingOn := some (.endpoint 8), senderBadge := 7 }
    else {}
  links := senderQueue.1
  eps := fun ep => if ep = 8 then { state := .sending, ends := senderQueue.2 } else {}

/-- Who waits where. -/
def threeLists (q : QueueId) : List Addr := if q = .endpoint 8 then [2, 3, 4] else []

theorem senderQueue_isQueue : IsQueue senderQueue.1 senderQueue.2 [2, 3, 4] := by
  have first : IsQueue _ _ ([] ++ [2]) :=
    (IsQueue.empty : IsQueue (fun _ : Addr => {}) {} []).pushBack (by simp)
  have second : IsQueue _ _ ([] ++ [2] ++ [3]) := first.pushBack (by decide)
  exact second.pushBack (by decide)

theorem senderQueue_links {t : Addr} (absent : t ∉ [2, 3, 4]) : senderQueue.1 t = {} := by
  simp only [List.mem_cons, List.not_mem_nil, or_false, not_or] at absent
  unfold senderQueue
  simp only
  rw [pushBack_links_of_ne absent.2.2, pushBack_links_of_ne absent.2.1,
    pushBack_links_of_ne absent.1]
  · simp
  · simpa [Lib.pushBack] using Ne.symm absent.1
  · simpa [Lib.pushBack] using Ne.symm absent.2.1

theorem threeSenders_ordered (env : Env) (idle : env.idleTcb = 1) :
    threeSenders.Ordered env threeLists ∅ ∅ := by
  refine ⟨⟨fun q => ?_, fun q q' t here there => ?_, fun t absent _ => ?_⟩, fun t no => ?_,
    fun t _ => ?_, fun ep => ?_, fun ntfn => ?_⟩
  · cases q with
    | endpoint ep =>
      by_cases here : ep = 8
      · subst here
        exact senderQueue_isQueue
      · simpa [threeLists, Threads.ends, threeSenders, here] using IsQueue.empty
    | run => exact IsQueue.empty
    | notification ntfn => exact IsQueue.empty
  · unfold threeLists at here there
    split at here
    · split at there
      · simp_all
      · simp at there
    · simp at here
  · exact senderQueue_links (absent (.endpoint 8))
  · exact absurd no (Set.notMem_empty t)
  · -- The three senders are where they say, and nobody else is anywhere.
    by_cases queued : t ∈ [2, 3, 4]
    · obtain ⟨small, other, state, waits⟩ : t < walkLimit ∧ t ≠ 1 ∧
          (threeSenders.tcbs t).state = .blockedOnSend ∧
          (threeSenders.tcbs t).waitingOn = some (.endpoint 8) := by
        simp only [List.mem_cons, List.not_mem_nil, or_false] at queued
        rcases queued with rfl | rfl | rfl <;> decide
      refine ⟨fun _ => small, ?_, ?_, ?_, fun q _ => ?_, ?_, ?_⟩ <;>
        simp [threeLists, idle, isRunnable, ThreadState.isRunnable, Tcb.waitQueue, state, waits, other]
      have named : t = 2 ∨ t = 3 ∨ t = 4 := by simpa using queued
      rw [eq_comm, and_iff_left named]
    · simp only [List.mem_cons, List.not_mem_nil, or_false, not_or] at queued
      have waits : (threeSenders.tcbs t).waitingOn = none := by
        simp only [threeSenders, queued, if_false]
        split <;> rfl
      have state : (threeSenders.tcbs t).state = if t = 1 then .idle else .inactive := by
        simp only [threeSenders, queued, if_false]
        split <;> rfl
      have nowhere : ∀ q, t ∉ threeLists q := by
        intro q
        unfold threeLists
        split <;> simp [queued]
      by_cases one : t = 1
      · subst one
        refine ⟨fun _ => by decide, ?_, ?_, ?_, fun q _ => ?_, ?_, ?_⟩ <;>
          simp [nowhere, idle, isRunnable, ThreadState.isRunnable, Tcb.waitQueue, state, waits]
      · refine ⟨?_, ?_, ?_, ?_, fun q _ => ?_, ?_, ?_⟩ <;>
          simp [nowhere, idle, isRunnable, ThreadState.isRunnable, Tcb.waitQueue, state, waits, one]
  · by_cases here : ep = 8
    · subst here
      refine ⟨by decide, fun t queued => ?_⟩
      have queued : t ∈ [2, 3, 4] := queued
      simp only [List.mem_cons, List.not_mem_nil, or_false] at queued
      rcases queued with rfl | rfl | rfl <;> rfl
    · have nobody : threeLists (.endpoint ep) = [] := by simp [threeLists, here]
      have still : (threeSenders.eps ep).state = .idle := by simp [threeSenders, here]
      exact ⟨by simp [nobody, still], by simp [nobody]⟩
  · simp [threeSenders, threeLists]

theorem threeSenders_cancelled :
    ((threeSenders.cancelBadgedSends
        { arch := .riscv64, idleTcb := 1, irqNode := 0, bootPtPool := 0, ioapicPins := 0, fuel := 0 }
        8 5).tcbs 3).faultLabel = 2 := by
  have ord := threeSenders_ordered
    { arch := .riscv64, idleTcb := 1, irqNode := 0, bootPtPool := 0, ioapicPins := 0, fuel := 0 } rfl
  have done := cancelBadgedSends_exact ord 8 5 (by decide)
  exact (done.stopped 3 (by decide) rfl).2.2.1

end Sample

end Threads

end Rel4
