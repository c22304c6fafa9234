import Mathlib.Order.BooleanAlgebra.Set
import Rel4.Proof.Queues

/-! What the scheduler's primitives leave as it was, and threads taken off whatever they wait for. -/

namespace Rel4

open Lib

namespace Threads

variable {env : Env} {th th' : Threads} {lists : QueueId → List Addr} {flux loose : Set Addr}
  {q : QueueId} {t u ep ntfn : Addr}

section Frame

/-- An endpoint keeps the ends of its own queue. -/
theorem updEp_ends {change : Endpoint → Endpoint} : (th.updEp ep change).ends =
    Function.update th.ends (.endpoint ep) (change (th.eps ep)).ends := by
  funext q
  cases q <;> simp [updEp, Threads.ends, Function.update_apply, apply_ite]
  split <;> simp_all

@[simp] theorem pushBack_tcbs : (th.pushBack q t).tcbs = th.tcbs := setEnds_tcbs _

@[simp] theorem pushBack_current : (th.pushBack q t).current = th.current := setEnds_current _

@[simp] theorem remove_tcbs : (th.remove q t).tcbs = th.tcbs := setEnds_tcbs _

@[simp] theorem remove_current : (th.remove q t).current = th.current := setEnds_current _

@[simp] theorem enqueue_tcbs : (th.enqueue env t).tcbs = th.tcbs := by
  unfold enqueue
  split
  · rfl
  · split <;> simp

@[simp] theorem enqueue_current : (th.enqueue env t).current = th.current := by
  unfold enqueue
  split
  · rfl
  · split <;> simp

@[simp] theorem enqueue_eps : (th.enqueue env t).eps = th.eps := by
  unfold enqueue
  split
  · rfl
  · split <;> rfl

@[simp] theorem enqueue_ntfns : (th.enqueue env t).ntfns = th.ntfns := by
  unfold enqueue
  split
  · rfl
  · split <;> rfl

@[simp] theorem dequeue_eps : (th.dequeue t).eps = th.eps := by
  unfold dequeue
  split <;> rfl

@[simp] theorem dequeue_ntfns : (th.dequeue t).ntfns = th.ntfns := by
  unfold dequeue
  split <;> rfl

@[simp] theorem dequeue_tcbs : (th.dequeue t).tcbs = th.tcbs := by
  unfold dequeue
  split <;> simp

@[simp] theorem dequeue_current : (th.dequeue t).current = th.current := by
  unfold dequeue
  split <;> simp

end Frame

/-- A thread in flux that may run joins the runqueue. -/
theorem Ordered.enqueue_flux (ord : th.Ordered env lists flux loose) (inFlux : t ∈ flux)
    (tight : t ∉ loose) (small : t < walkLimit) (other : t ≠ env.idleTcb)
    (runnable : th.isRunnable t = true) (unblocked : (th.tcbs t).waitingOn = none) :
    (th.enqueue env t).Ordered env (Function.update lists .run (lists .run ++ [t])) (flux \ {t})
        loose ∧
      ∀ u ∈ flux, u ≠ t → (th.enqueue env t).links u = th.links u := by
  -- In flux it is on no queue, so neither test of the source holds it back.
  have absent : th.contains .run t = false := by
    rw [Bool.eq_false_iff]
    exact fun found => ord.out t inFlux .run (ord.contains_iff.mp found)
  have free : (th.links t).isUnlinked = true := by
    rw [ord.family.unlinked t (ord.out t inFlux) tight]
    rfl
  have pushes : th.enqueue env t = th.pushBack .run t := by
    simp [enqueue, isIdleThread, other, runnable, absent, free]
  rw [pushes]
  refine ⟨ord.joinRun inFlux small other runnable unblocked, fun u uFlux apart => ?_⟩
  -- Only the newcomer and the old tail of the runqueue are relinked, and no thread in flux is the tail.
  have notTail : (th.ends .run).tail ≠ some u := by
    rw [(ord.family.queue .run).tail]
    exact fun last => ord.out u uFlux .run (List.mem_of_getLast? last)
  have kept : (Lib.pushBack th.links (th.ends .run) t).1 u = th.links u :=
    pushBack_links_of_ne apart notTail
  exact kept

section Endpoints

@[simp] theorem epSettle_tcbs : (th.epSettle ep).tcbs = th.tcbs := by
  unfold epSettle
  split <;> rfl

@[simp] theorem epSettle_current : (th.epSettle ep).current = th.current := by
  unfold epSettle
  split <;> rfl

end Endpoints

section Notifications

/-- Unlink a waiter of a notification, which goes back to idle if it was the last one. -/
def ntfnLeave (th : Threads) (ntfn t : Addr) : Threads :=
  let th := th.remove (.notification ntfn) t
  if (th.ntfns ntfn).ends.head.isNone then
    th.updNtfn ntfn fun n => { n with ends := {}, state := .idle }
  else th

@[simp] theorem ntfnLeave_tcbs : (th.ntfnLeave ntfn t).tcbs = th.tcbs := by
  unfold ntfnLeave
  simp only
  split <;> simp [updNtfn]

@[simp] theorem ntfnLeave_current : (th.ntfnLeave ntfn t).current = th.current := by
  unfold ntfnLeave
  simp only
  split <;> simp [updNtfn]

/-- The source clears the tail and the state in two steps. -/
theorem ntfnRemoveWaiter_eq (found : th.contains (.notification ntfn) t = true) :
    th.ntfnRemoveWaiter ntfn t = th.ntfnLeave ntfn t := by
  simp only [ntfnRemoveWaiter, found, if_true, ntfnLeave]
  split
  · rename_i empty
    have gone : ((th.remove (.notification ntfn) t).ntfns ntfn).ends.head = none := by
      simpa using empty
    simp [ntfnSettle, updNtfn, gone]
  · rfl

end Notifications

section Withdraw

/-- The fields of a thread that was taken off what it waited for. -/
def withdrawn (tcb : Tcb) : Tcb :=
  match tcb.waitingOn with
  | none => tcb
  | some _ => { tcb with waitingOn := none }.clearEndpointIpcState

@[simp] theorem unlinkFromWaitObject_tcbs :
    (th.unlinkFromWaitObject t).tcbs = Function.update th.tcbs t (withdrawn (th.tcbs t)) := by
  cases blocked : (th.tcbs t).waitingOn with
  | none => simp [unlinkFromWaitObject, withdrawn, blocked]
  | some object =>
    have kept : ∀ ep, (th.epRemoveWaiter ep t).tcbs = th.tcbs := fun ep => by
      unfold Threads.epRemoveWaiter
      split <;> simp
    have kept' : ∀ ntfn, (th.ntfnRemoveWaiter ntfn t).tcbs = th.tcbs := fun ntfn => by
      by_cases found : th.contains (.notification ntfn) t = true
      · rw [ntfnRemoveWaiter_eq found, ntfnLeave_tcbs]
      · simp [Threads.ntfnRemoveWaiter, found]
    cases object <;> simp [unlinkFromWaitObject, withdrawn, blocked, Threads.updTcb, kept, kept']

@[simp] theorem unlinkFromWaitObject_current : (th.unlinkFromWaitObject t).current = th.current := by
  unfold unlinkFromWaitObject
  split
  · rfl
  · rename_i object blocked
    have kept : ∀ ep, (th.epRemoveWaiter ep t).current = th.current := fun ep => by
      unfold Threads.epRemoveWaiter
      split <;> simp
    have kept' : ∀ ntfn, (th.ntfnRemoveWaiter ntfn t).current = th.current := fun ntfn => by
      by_cases found : th.contains (.notification ntfn) t = true
      · rw [ntfnRemoveWaiter_eq found, ntfnLeave_current]
      · simp [Threads.ntfnRemoveWaiter, found]
    cases object <;> simp [Threads.updTcb, kept, kept']

end Withdraw

end Threads

end Rel4
