import Mathlib.Data.List.Perm.Subperm
import Mathlib.Data.Set.Insert
import Rel4.Kernel.Delete

/-! The invariant of all queues: every thread is where its own fields say it is. -/

namespace Rel4

open Lib
open Function (update update_apply update_of_ne)

/-- The queue a thread says it waits on. -/
def Tcb.waitQueue (t : Tcb) : Option QueueId :=
  match t.waitingOn with
  | some (.endpoint ep) => some (.endpoint ep)
  | some (.notification ntfn) => some (.notification ntfn)
  | none => none

/-- The state of whoever waits on an endpoint in a state. -/
def EpState.waiterState : EpState → ThreadState
  | sending => .blockedOnSend
  | _ => .blockedOnReceive

namespace Threads

/-- The fields of a thread agree with each other and with the queues it is on. -/
structure Fits (env : Env) (th : Threads) (lists : QueueId → List Addr) (t : Addr) : Prop where
  small : (th.tcbs t).state ≠ .inactive → t < walkLimit
  idle : (th.tcbs t).state = .idle ↔ t = env.idleTcb
  run : t ∈ lists .run → th.isRunnable t = true
  ready : th.isRunnable t = true → t ∈ lists .run ∨ th.current = some t
  waits : ∀ q, q ≠ .run → (t ∈ lists q ↔ (th.tcbs t).waitQueue = some q)
  onEndpoint : (∃ ep, (th.tcbs t).waitingOn = some (.endpoint ep)) ↔
    (th.tcbs t).state = .blockedOnSend ∨ (th.tcbs t).state = .blockedOnReceive
  onNotification : (∃ ntfn, (th.tcbs t).waitingOn = some (.notification ntfn)) ↔
    (th.tcbs t).state = .blockedOnNotification

/-- An endpoint is idle when nobody waits, and its waiters are all of the kind it says. -/
structure EpFits (th : Threads) (lists : QueueId → List Addr) (ep : Addr) : Prop where
  idle : (th.eps ep).state = .idle ↔ lists (.endpoint ep) = []
  waiter : ∀ t ∈ lists (.endpoint ep), (th.tcbs t).state = (th.eps ep).state.waiterState

/--
The queues spell out these lists, and every thread fits them.

Threads in flux are on no queue and may say anything; loose ones still have links of a queue that
was taken apart.
-/
structure Ordered (env : Env) (th : Threads) (lists : QueueId → List Addr) (flux loose : Set Addr) :
    Prop where
  family : Family th.links th.ends lists (· ∈ loose)
  out : ∀ t ∈ flux, ∀ q, t ∉ lists q
  fits : ∀ t ∉ flux, th.Fits env lists t
  eps : ∀ ep, th.EpFits lists ep
  ntfns : ∀ ntfn, (th.ntfns ntfn).state = .waiting ↔ lists (.notification ntfn) ≠ []

section Primitive

variable {env : Env} {th th' : Threads} {lists : QueueId → List Addr} {flux loose : Set Addr}
  {q : QueueId} {t u ep ntfn : Addr}

@[simp] theorem setEnds_ends (ends : QueueEnds) :
    (th.setEnds q ends).ends = update th.ends q ends := by
  funext q'
  cases q <;> cases q' <;>
    simp [setEnds, Threads.ends, updEp, updNtfn, update_apply, apply_ite]
  all_goals split <;> simp_all

@[simp] theorem setEnds_tcbs (ends : QueueEnds) : (th.setEnds q ends).tcbs = th.tcbs := by
  cases q <;> rfl

@[simp] theorem setEnds_current (ends : QueueEnds) :
    (th.setEnds q ends).current = th.current := by
  cases q <;> rfl

theorem isRunnable_iff :
    th.isRunnable t = true ↔ (th.tcbs t).state = .running ∨ (th.tcbs t).state = .restart := by
  rw [isRunnable]
  cases (th.tcbs t).state <;> simp [ThreadState.isRunnable]

/-- Fitting only depends on the thread's own state and on which lists it is in. -/
theorem Fits.congr_state {lists' : QueueId → List Addr} (fits : th.Fits env lists t)
    (state : (th'.tcbs t).state = (th.tcbs t).state)
    (waitingOn : (th'.tcbs t).waitingOn = (th.tcbs t).waitingOn)
    (current : th'.current = th.current) (member : ∀ q, t ∈ lists' q ↔ t ∈ lists q) :
    th'.Fits env lists' t := by
  have runnable : th'.isRunnable t = th.isRunnable t := by rw [isRunnable, state, isRunnable]
  have queue : (th'.tcbs t).waitQueue = (th.tcbs t).waitQueue := by
    rw [Tcb.waitQueue, waitingOn, Tcb.waitQueue]
  refine ⟨?_, ?_, ?_, ?_, ?_, ?_, ?_⟩
  · rw [state]
    exact fits.small
  · rw [state]
    exact fits.idle
  · rw [runnable, member]
    exact fits.run
  · rw [runnable, member, current]
    exact fits.ready
  · intro q wait
    rw [queue, member]
    exact fits.waits q wait
  · rw [waitingOn, state]
    exact fits.onEndpoint
  · rw [waitingOn, state]
    exact fits.onNotification

theorem Fits.congr {lists' : QueueId → List Addr} (fits : th.Fits env lists t)
    (tcb : th'.tcbs t = th.tcbs t) (current : th'.current = th.current)
    (member : ∀ q, t ∈ lists' q ↔ t ∈ lists q) : th'.Fits env lists' t :=
  fits.congr_state (by rw [tcb]) (by rw [tcb]) current member

/-- A thread in flux joins the queue its fields say, and is settled. -/
theorem Ordered.join (ord : th.Ordered env lists flux loose) (inFlux : t ∈ flux)
    (tcbs : th'.tcbs = th.tcbs) (current : th'.current = th.current)
    (links : th'.links = (Lib.pushBack th.links (th.ends q) t).1)
    (ends : th'.ends = update th.ends q (Lib.pushBack th.links (th.ends q) t).2)
    (fits : th'.Fits env (update lists q (lists q ++ [t])) t)
    (eps : ∀ ep, th'.EpFits (update lists q (lists q ++ [t])) ep)
    (ntfns : ∀ ntfn, (th'.ntfns ntfn).state = .waiting ↔
      update lists q (lists q ++ [t]) (.notification ntfn) ≠ []) :
    th'.Ordered env (update lists q (lists q ++ [t])) (flux \ {t}) loose := by
  have member : ∀ u q', u ≠ t → (u ∈ update lists q (lists q ++ [t]) q' ↔ u ∈ lists q') := by
    intro u q' other
    by_cases same : q' = q
    · subst same
      simp [other]
    · rw [update_of_ne same]
  refine ⟨links ▸ ends ▸ ord.family.pushBack q (ord.out t inFlux), ?_, ?_, eps, ntfns⟩
  · rintro u ⟨uFlux, other⟩ q' here
    exact ord.out u uFlux q' ((member u q' other).mp here)
  · intro u outside
    by_cases other : u = t
    · exact other ▸ fits
    · exact (ord.fits u fun uFlux => outside ⟨uFlux, other⟩).congr (congrFun tcbs u) current
        fun q' => member u q' other

/-- Nothing looks at a thread in flux. -/
theorem Ordered.updTcb (ord : th.Ordered env lists flux loose) (inFlux : t ∈ flux)
    (change : Tcb → Tcb) : (th.updTcb t change).Ordered env lists flux loose := by
  have other : ∀ {u}, u ≠ t → (th.updTcb t change).tcbs u = th.tcbs u := fun other =>
    update_of_ne other ..
  refine ⟨ord.family, ord.out, fun u outside => ?_, fun ep => ⟨(ord.eps ep).idle, ?_⟩, ord.ntfns⟩
  · exact (ord.fits u outside).congr (other fun same => outside (same ▸ inFlux)) rfl fun _ => Iff.rfl
  · intro u here
    rw [other fun same => ord.out t inFlux (.endpoint ep) (same ▸ here)]
    exact (ord.eps ep).waiter u here

/-- A thread in flux that fits without being on a queue is settled. -/
theorem Ordered.settle (ord : th.Ordered env lists flux loose) (fits : th.Fits env lists t) :
    th.Ordered env lists (flux \ {t}) loose := by
  refine ⟨ord.family, fun u inFlux => ord.out u inFlux.1, fun u outside => ?_, ord.eps, ord.ntfns⟩
  by_cases same : u = t
  · exact same ▸ fits
  · exact ord.fits u fun inFlux => outside ⟨inFlux, same⟩

/-- What it takes for a thread on no queue to fit. -/
structure Resting (env : Env) (th : Threads) (t : Addr) : Prop where
  small : (th.tcbs t).state ≠ .inactive → t < walkLimit
  other : t ≠ env.idleTcb
  unblocked : (th.tcbs t).waitingOn = none
  state : (th.tcbs t).state = .inactive ∨ (th.tcbs t).state = .blockedOnReply ∨
    (th.isRunnable t = true ∧ th.current = some t)

theorem Resting.fits (rest : th.Resting env t) (outside : ∀ q, t ∉ lists q) :
    th.Fits env lists t := by
  have unblocked := rest.unblocked
  have other := rest.other
  have cases : (th.tcbs t).state = .inactive ∨ (th.tcbs t).state = .blockedOnReply ∨
      (((th.tcbs t).state = .running ∨ (th.tcbs t).state = .restart) ∧ th.current = some t) := by
    simpa only [isRunnable_iff] using rest.state
  refine ⟨rest.small, ?_, fun here => absurd here (outside _), fun runnable => .inr ?_,
    fun q _ => by simp [outside, Tcb.waitQueue, unblocked], ?_, ?_⟩
  · rcases cases with state | state | ⟨state | state, -⟩ <;> simp [state, other]
  · rw [isRunnable_iff] at runnable
    rcases cases with state | state | ⟨-, current⟩
    · simp [state] at runnable
    · simp [state] at runnable
    · exact current
  · rcases cases with state | state | ⟨state | state, -⟩ <;> simp [state, unblocked]
  · rcases cases with state | state | ⟨state | state, -⟩ <;> simp [state, unblocked]

/-- A thread on some queue is not inactive. -/
theorem Ordered.state_of_mem (ord : th.Ordered env lists flux loose) (here : t ∈ lists q) :
    t ∉ flux ∧ th.Fits env lists t ∧ (th.tcbs t).state ≠ .inactive := by
  have settled : t ∉ flux := fun inFlux => ord.out t inFlux q here
  have fits := ord.fits t settled
  refine ⟨settled, fits, fun inactive => ?_⟩
  by_cases run : q = .run
  · subst run
    simpa [inactive] using isRunnable_iff.mp (fits.run here)
  · have wait := (fits.waits q run).mp here
    unfold Tcb.waitQueue at wait
    split at wait
    · rename_i ep on
      simpa [inactive] using fits.onEndpoint.mp ⟨ep, on⟩
    · rename_i ntfn on
      simpa [inactive] using fits.onNotification.mp ⟨ntfn, on⟩
    · cases wait

/-- There are no more threads on a queue than addresses, so a walk finds exactly its members. -/
theorem Ordered.contains_iff (ord : th.Ordered env lists flux loose) :
    th.contains q t = true ↔ t ∈ lists q := by
  have queue := ord.family.queue q
  refine queue.forward.reaches_iff ?_
  have bounded : lists q ⊆ List.range walkLimit := fun u here =>
    have ⟨_, fits, active⟩ := ord.state_of_mem here
    List.mem_range.mpr (fits.small active)
  simpa using (List.Nodup.subperm queue.nodup bounded).length_le

theorem EpFits.congr {lists' : QueueId → List Addr} (fits : th.EpFits lists ep)
    (ep' : (th'.eps ep).state = (th.eps ep).state) (tcbs : th'.tcbs = th.tcbs)
    (same : lists' (.endpoint ep) = lists (.endpoint ep)) : th'.EpFits lists' ep := by
  refine ⟨?_, ?_⟩
  · rw [ep', same]
    exact fits.idle
  · rw [ep', same, tcbs]
    exact fits.waiter

/-- Joining the runqueue. -/
theorem Ordered.joinRun (ord : th.Ordered env lists flux loose) (inFlux : t ∈ flux)
    (small : t < walkLimit) (other : t ≠ env.idleTcb) (runnable : th.isRunnable t = true)
    (unblocked : (th.tcbs t).waitingOn = none) :
    (th.pushBack .run t).Ordered env (update lists .run (lists .run ++ [t])) (flux \ {t})
      loose := by
  refine ord.join inFlux (q := .run) rfl rfl rfl (setEnds_ends _) ?_ (fun ep => ?_) (fun ntfn => ?_)
  · have out := ord.out t inFlux
    have state := isRunnable_iff.mp runnable
    refine ⟨fun _ => small, ?_, fun _ => runnable, fun _ => .inl (by simp), fun q wait => ?_, ?_, ?_⟩
    · rcases state with state | state <;> simp [pushBack, state, other]
    · rw [update_of_ne wait]
      simp [pushBack, out, Tcb.waitQueue, unblocked]
    · rcases state with state | state <;> simp [pushBack, state, unblocked]
    · rcases state with state | state <;> simp [pushBack, state, unblocked]
  · exact (ord.eps ep).congr rfl rfl (by simp)
  · rw [update_of_ne (by simp)]
    exact ord.ntfns ntfn

end Primitive

end Threads

end Rel4
