import Rel4.Proof.QueueOps

/-! Waking threads: cancelled waiters, signals, and objects whose last capability goes. -/

namespace Rel4

open Lib
open Function (update update_idem update_of_ne update_self)

namespace Threads

variable {env : Env} {th th' : Threads} {lists : QueueId → List Addr} {flux loose : Set Addr}
  {t u ep ntfn : Addr} {after : Tcb}

section Release

/-- What may become of a thread that is taken out of a queue for good. -/
structure Released (env : Env) (t : Addr) (after : Tcb) : Prop where
  small : t < walkLimit
  other : t ≠ env.idleTcb
  unblocked : after.waitingOn = none
  state : after.state = .inactive ∨ after.state.isRunnable = true

/-- Release a thread: it forgets its links, and is queued if it may run. -/
def release (env : Env) (th : Threads) (t : Addr) (after : Tcb) : Threads :=
  ((th.clearLinks t).updTcb t fun _ => after).enqueue env t

@[simp] theorem release_tcbs : (th.release env t after).tcbs = update th.tcbs t after := by
  simp [release, updTcb, clearLinks]

@[simp] theorem release_current : (th.release env t after).current = th.current := by
  simp [release, updTcb, clearLinks]

@[simp] theorem release_eps : (th.release env t after).eps = th.eps := by
  simp [release, updTcb, clearLinks]

@[simp] theorem release_ntfns : (th.release env t after).ntfns = th.ntfns := by
  simp [release, updTcb, clearLinks]

/-- Releasing a thread that is left stopped only forgets its links. -/
theorem release_of_stopped (stopped : after.state.isRunnable = false) :
    th.release env t after = (th.clearLinks t).updTcb t fun _ => after := by
  have asleep : ((th.clearLinks t).updTcb t fun _ => after).isRunnable t = false := by
    simpa [isRunnable, updTcb] using stopped
  simp [release, enqueue, asleep]

theorem Ordered.clearLinks (ord : th.Ordered env lists flux loose) (inFlux : t ∈ flux) :
    (th.clearLinks t).Ordered env lists flux (loose \ {t}) :=
  ⟨ord.family.clearLinks (ord.out t inFlux), ord.out,
    fun u out => (ord.fits u out).congr rfl rfl fun _ => Iff.rfl,
    fun ep => (ord.eps ep).congr rfl rfl rfl, ord.ntfns⟩

/-- The queues once some threads of a list were released: those that may run are queued in order. -/
def queuedAfter (lists : QueueId → List Addr) (after : Addr → Tcb) (l : List Addr) :
    QueueId → List Addr :=
  Function.update lists .run (lists .run ++ l.filter fun t => (after t).state.isRunnable)

@[simp] theorem queuedAfter_nil {after : Addr → Tcb} : queuedAfter lists after [] = lists := by
  simp [queuedAfter]

/-- The first thread is queued before the rest. -/
theorem queuedAfter_cons {after after' : Addr → Tcb} {rest : List Addr}
    (same : ∀ u ∈ rest, after' u = after u) :
    queuedAfter (queuedAfter lists after [t]) after' rest = queuedAfter lists after (t :: rest) := by
  have kept : rest.filter (fun u => (after' u).state.isRunnable) =
      rest.filter fun u => (after u).state.isRunnable :=
    List.filter_congr fun u here => by rw [same u here]
  rw [queuedAfter, queuedAfter, queuedAfter, kept, update_self, update_idem,
    List.append_assoc, ← List.filter_append]
  rfl

/-- A released thread is settled, and the other threads in flux keep their links. -/
theorem Ordered.release (ord : th.Ordered env lists flux loose) (inFlux : t ∈ flux)
    (released : Released env t after) :
    (th.release env t after).Ordered env (queuedAfter lists (fun _ => after) [t]) (flux \ {t})
        (loose \ {t}) ∧
      ∀ u ∈ flux, u ≠ t → (th.release env t after).links u = th.links u := by
  -- Its links are forgotten first, so it is loose no longer.
  have cleared : ((th.clearLinks t).updTcb t fun _ => after).Ordered env lists flux (loose \ {t}) :=
    (ord.clearLinks inFlux).updTcb inFlux _
  have same : ∀ u, u ≠ t → ((th.clearLinks t).updTcb t fun _ => after).links u = th.links u :=
    fun u other => update_of_ne other _ _
  have tcb : ((th.clearLinks t).updTcb t fun _ => after).tcbs t = after := by
    simp [Threads.updTcb]
  rcases released.state with stopped | runs
  · -- A stopped thread stays off the runqueue.
    have unqueued : queuedAfter lists (fun _ => after) [t] = lists := by
      simp [queuedAfter, stopped, ThreadState.isRunnable]
    rw [release_of_stopped (by rw [stopped]; rfl), unqueued]
    refine ⟨cleared.settle ?_, fun u _ other => same u other⟩
    refine Resting.fits ⟨fun _ => released.small, released.other, ?_, .inl ?_⟩ (ord.out t inFlux)
    · rw [tcb, released.unblocked]
    · rw [tcb, stopped]
  · obtain ⟨ord', links⟩ := cleared.enqueue_flux inFlux (by simp) released.small
      released.other (by rw [isRunnable, tcb, runs]) (by rw [tcb, released.unblocked])
    have queued : queuedAfter lists (fun _ => after) [t] =
        update lists .run (lists .run ++ [t]) := by
      simp [queuedAfter, runs]
    rw [queued]
    exact ⟨ord', fun u uFlux other => (links u uFlux other).trans (same u other)⟩

end Release

section Detached

variable {l : List Addr} {head : Option Addr} {change : Tcb → Tcb} {steps : Nat}
  {step : Threads → Addr → Threads}

/-- The members of a list, as a set. -/
abbrev members (l : List Addr) : Set Addr := { t | t ∈ l }

/-- The queues are in order again, and exactly the listed threads were changed. -/
structure Drained (env : Env) (th : Threads) (lists : QueueId → List Addr) (flux loose : Set Addr)
    (change : Tcb → Tcb) (l : List Addr) (th' : Threads) : Prop where
  ordered : th'.Ordered env (queuedAfter lists (fun t => change (th.tcbs t)) l) (flux \ members l)
    (loose \ members l)
  tcbs : ∀ u, th'.tcbs u = if u ∈ l then change (th.tcbs u) else th.tcbs u
  current : th'.current = th.current
  eps : th'.eps = th.eps
  ntfns : th'.ntfns = th.ntfns

/-- Draining a queue is releasing its first thread and draining the rest. -/
theorem Drained.cons {rest : List Addr} {links : Addr → Links} (absent : t ∉ rest)
    (done : Drained env ({ th with links }.release env t (change (th.tcbs t)))
      (queuedAfter lists (fun _ => change (th.tcbs t)) [t]) (flux \ {t}) (loose \ {t}) change rest
      th') : Drained env th lists flux loose change (t :: rest) th' := by
  have minus : ∀ s : Set Addr, (s \ {t}) \ members rest = s \ members (t :: rest) := by
    intro s
    ext u
    simp only [Set.mem_sdiff, Set.mem_singleton_iff, Set.mem_ofPred_eq, List.mem_cons]
    tauto
  refine ⟨?_, fun u => ?_, done.current.trans release_current, done.eps.trans release_eps,
    done.ntfns.trans release_ntfns⟩
  · have kept : ∀ u ∈ rest, change (({ th with links }.release env t (change (th.tcbs t))).tcbs u) =
        change (th.tcbs u) := by
      intro u here
      have other : u ≠ t := fun same => absent (same ▸ here)
      rw [release_tcbs, update_of_ne other]
    rw [← minus, ← minus, ← queuedAfter_cons kept]
    exact done.ordered
  · rw [done.tcbs u, release_tcbs]
    by_cases same : u = t
    · subst same
      simp [absent]
    · simp [same]

/-- A queue keeps some of its threads and lets the others go, with whatever links they had. -/
theorem Ordered.divide {q : QueueId} {kept : QueueEnds} {keeps others : List Addr}
    (ord : th.Ordered env lists flux loose) (perm : (keeps ++ others).Perm (lists q))
    (tcbs : th'.tcbs = th.tcbs) (current : th'.current = th.current)
    (links : ∀ u ∉ lists q, th'.links u = th.links u)
    (ends : th'.ends = update th.ends q kept) (queue : IsQueue th'.links kept keeps)
    (eps : ∀ ep, th'.EpFits (update lists q keeps) ep)
    (ntfns : ∀ ntfn, (th'.ntfns ntfn).state = .waiting ↔
      update lists q keeps (.notification ntfn) ≠ []) :
    th'.Ordered env (update lists q keeps) (flux ∪ members others)
      (loose ∪ members others) := by
  have apart : ∀ u ∈ others, u ∉ keeps := fun u goes stays =>
    (List.nodup_append.mp (perm.nodup_iff.mpr (ord.family.queue q).nodup)).2.2 u stays u goes rfl
  have member : ∀ {u q'}, u ∈ update lists q keeps q' → u ∈ lists q' := by
    intro u q' here
    by_cases same : q' = q
    · subst same
      rw [update_self] at here
      exact perm.mem_iff.mp (List.mem_append_left _ here)
    · rwa [update_of_ne same] at here
  refine ⟨?_, ?_, fun u out => ?_, eps, ntfns⟩
  · rw [ends]
    exact ord.family.divide perm queue links
  · rintro u (inFlux | goes) q' here
    · exact ord.out u inFlux q' (member here)
    · have same : q' = q :=
        ord.family.apart q' q u (member here) (perm.mem_iff.mp (List.mem_append_right _ goes))
      subst same
      exact apart u goes (by simpa using here)
  · refine (ord.fits u fun inFlux => out (.inl inFlux)).congr (by rw [tcbs]) current fun q' => ?_
    by_cases same : q' = q
    · subst same
      rw [update_self, ← perm.mem_iff, List.mem_append]
      exact ⟨.inl, fun here => here.resolve_right fun goes => out (.inr goes)⟩
    · rw [update_of_ne same]

/-- Everybody on a queue has an address, and no queue is longer than there are addresses. -/
theorem Ordered.length_le {q : QueueId} (ord : th.Ordered env lists flux loose) :
    (lists q).length ≤ walkLimit := by
  have bounded : lists q ⊆ List.range walkLimit := fun u here =>
    have ⟨_, fits, active⟩ := ord.state_of_mem here
    List.mem_range.mpr (fits.small active)
  simpa using (List.Nodup.subperm (ord.family.queue q).nodup bounded).length_le

/-- Whoever waits on an endpoint, in terms of its own fields. -/
theorem Ordered.waiter (ord : th.Ordered env lists flux loose) (here : t ∈ lists (.endpoint ep)) :
    t < walkLimit ∧ t ≠ env.idleTcb ∧ (th.tcbs t).waitingOn = some (.endpoint ep) ∧
      ((th.tcbs t).state = .blockedOnSend ∨ (th.tcbs t).state = .blockedOnReceive) := by
  obtain ⟨-, fits, active⟩ := ord.state_of_mem here
  have queue := (fits.waits _ (by simp)).mp here
  have waits : (th.tcbs t).waitingOn = some (.endpoint ep) := by
    unfold Tcb.waitQueue at queue
    split at queue <;> simp_all
  have state := fits.onEndpoint.mp ⟨ep, waits⟩
  refine ⟨fits.small active, fun idle => ?_, waits, state⟩
  rcases state with state | state <;> simp [fits.idle.mpr idle] at state

/-- Cancelling a waiter lets it start over, but for one that faulted, which stops. -/
theorem cancelEndpointWaiter_cases {tcb : Tcb}
    (blocked : tcb.state = .blockedOnSend ∨ tcb.state = .blockedOnReceive) :
    tcb.cancelEndpointWaiter.1.waitingOn = none ∧
      (tcb.cancelEndpointWaiter.1.state = .inactive ∧ tcb.cancelEndpointWaiter.2 = false ∨
        tcb.cancelEndpointWaiter.1.state = .restart ∧ tcb.cancelEndpointWaiter.2 = true ∧
          tcb.cancelEndpointWaiter.1.senderIsFault = false) := by
  unfold Tcb.cancelEndpointWaiter Tcb.clearEndpointIpcStatePreservingFault
  rw [if_neg (by tauto)]
  split
  · refine ⟨?_, .inl ⟨rfl, rfl⟩⟩
    simp only
    split <;> rfl
  · exact ⟨rfl, .inr ⟨rfl, rfl, rfl⟩⟩

theorem cancelEndpointWaiter_released {tcb : Tcb} (small : t < walkLimit) (other : t ≠ env.idleTcb)
    (blocked : tcb.state = .blockedOnSend ∨ tcb.state = .blockedOnReceive) :
    Released env t tcb.cancelEndpointWaiter.1 := by
  obtain ⟨unblocked, ⟨state, -⟩ | ⟨state, -⟩⟩ := cancelEndpointWaiter_cases blocked
  · exact ⟨small, other, unblocked, .inl state⟩
  · exact ⟨small, other, unblocked, .inr (by rw [state]; rfl)⟩

theorem cancelWaiter_eq (blocked : (th.tcbs t).state = .blockedOnSend ∨
    (th.tcbs t).state = .blockedOnReceive) :
    th.cancelWaiter env t = th.release env t (th.tcbs t).cancelEndpointWaiter.1 := by
  obtain ⟨-, ⟨state, answer⟩ | ⟨-, answer, -⟩⟩ := cancelEndpointWaiter_cases blocked
  · rw [release_of_stopped (by rw [state]; rfl)]
    simp [cancelWaiter, answer]
  · simp [cancelWaiter, answer, release]

/-- A queue that was in order before it was detached is in order again once it is drained. -/
theorem Drained.reordered
    (drained : Drained env th lists (flux ∪ members l) (∅ ∪ members l) change l th')
    (apart : ∀ t ∈ l, t ∉ flux) :
    th'.Ordered env (queuedAfter lists (fun t => change (th.tcbs t)) l) flux ∅ := by
  have ord' := drained.ordered
  have rest : (flux ∪ members l) \ members l = flux := by
    ext u
    have := apart u
    simp only [Set.mem_sdiff, Set.mem_union, Set.mem_ofPred_eq]
    tauto
  rw [rest] at ord'
  simpa using ord'

end Detached

section Sorting

variable {l keeps wakes : List Addr} {head : Option Addr} {keep wake : QueueEnds} {steps : Nat}

/-- A detached list has been sorted into two queues, and nobody else was touched. -/
structure Sorted (th : Threads) (keeps wakes : List Addr)
    (sorted : Threads × QueueEnds × QueueEnds) : Prop where
  frame : sorted.1 = { th with links := sorted.1.links }
  keep : IsQueue sorted.1.links sorted.2.1 keeps
  wake : IsQueue sorted.1.links sorted.2.2 wakes
  links : ∀ u, u ∉ keeps → u ∉ wakes → sorted.1.links u = th.links u

/-- Appending a thread to one of two queues leaves the other alone. -/
theorem pushBack_apart {links : Addr → Links} {ends ends' : QueueEnds} {l l' : List Addr}
    (queue : IsQueue links ends l) (queue' : IsQueue links ends' l') (absent : t ∉ l)
    (absent' : t ∉ l') (disjoint : ∀ u ∈ l, u ∉ l') :
    IsQueue (Lib.pushBack (Lib.clearLinks links t) ends t).1
      (Lib.pushBack (Lib.clearLinks links t) ends t).2 (l ++ [t]) ∧
    IsQueue (Lib.pushBack (Lib.clearLinks links t) ends t).1 ends' l' ∧
    ∀ u ∉ l, u ≠ t → (Lib.pushBack (Lib.clearLinks links t) ends t).1 u = links u := by
  have cleared : ∀ u, u ≠ t → Lib.clearLinks links t u = links u := fun u other =>
    update_of_ne other _ _
  have others : ∀ u ∉ l, u ≠ t → (Lib.pushBack (Lib.clearLinks links t) ends t).1 u = links u := by
    intro u absent other
    rw [pushBack_links_of_ne other, cleared u other]
    rw [queue.tail]
    exact fun last => absent (List.mem_of_getLast? last)
  refine ⟨(queue.congr fun u here => cleared u ?_).pushBack absent,
    queue'.congr fun u here => others u (fun inFirst => disjoint u inFirst here) ?_, others⟩
  · exact fun same => absent (same ▸ here)
  · exact fun same => absent' (same ▸ here)

/-- The senders with another badge, in their order. -/
def keptSenders (th : Threads) (badge : Word) (l : List Addr) : List Addr :=
  l.filter fun t => (th.tcbs t).senderBadge ≠ badge

/-- The senders with the badge, in their order. -/
def badgedSenders (th : Threads) (badge : Word) (l : List Addr) : List Addr :=
  l.filter fun t => (th.tcbs t).senderBadge = badge

theorem keptSenders_append_badged (badge : Word) (l : List Addr) :
    (th.keptSenders badge l ++ th.badgedSenders badge l).Perm l := by
  have parts := List.filter_append_perm (fun t => decide ((th.tcbs t).senderBadge ≠ badge)) l
  simpa [keptSenders, badgedSenders] using parts

/-- Sorting goes down the list, and keeps the order on both sides. -/
theorem sortSenders_sorted (badge : Word) (forward : Forward th.links head l) (enough : l.length ≤ steps)
    (keepQueue : IsQueue th.links keep keeps) (wakeQueue : IsQueue th.links wake wakes)
    (nodup : (keeps ++ wakes ++ l).Nodup) :
    Sorted th (keeps ++ th.keptSenders badge l) (wakes ++ th.badgedSenders badge l)
      (sortSenders badge steps head th keep wake) := by
  induction l generalizing th head steps keep wake keeps wakes with
  | nil =>
    have none : head = none := forward.head
    have stop : sortSenders badge steps head th keep wake = (th, keep, wake) := by
      rw [none]
      cases steps <;> rfl
    rw [stop]
    simp only [keptSenders, badgedSenders, List.filter_nil, List.append_nil]
    exact ⟨rfl, keepQueue, wakeQueue, fun _ _ _ => rfl⟩
  | cons t rest ih =>
    obtain ⟨steps, rfl⟩ : ∃ k, steps = k + 1 := ⟨steps - 1, by simp at enough; omega⟩
    have start : head = some t := forward.head
    subst start
    have shorter : rest.length ≤ steps := by simpa using enough
    have middle : (t :: (keeps ++ wakes ++ rest)).Nodup := (List.perm_middle.nodup_iff).mp nodup
    have fresh : t ∉ keeps ++ wakes ++ rest := (List.nodup_cons.mp middle).1
    have sorted : (keeps ++ wakes).Nodup := (List.nodup_append.mp nodup).1
    have disjoint : ∀ u ∈ keeps, u ∉ wakes := fun u here there =>
      (List.nodup_append.mp sorted).2.2 u here u there rfl
    simp only [List.mem_append, not_or] at fresh
    -- Whichever side the thread goes to, what is left of the list is walked as before.
    have onward : ∀ {links keep' wake' keeps' wakes'}, IsQueue links keep' keeps' →
        IsQueue links wake' wakes' → (keeps' ++ wakes').Perm (t :: (keeps ++ wakes)) →
        (∀ u ∉ keeps ++ wakes, u ≠ t → links u = th.links u) →
        Sorted th (keeps' ++ th.keptSenders badge rest) (wakes' ++ th.badgedSenders badge rest)
          (sortSenders badge steps (th.links t).next { th with links } keep' wake') := by
      intro links keep' wake' keeps' wakes' keepQueue' wakeQueue' perm same
      have lost : (keeps' ++ wakes' ++ rest).Perm (keeps ++ wakes ++ t :: rest) :=
        (perm.append_right rest).trans (List.perm_middle.symm)
      have walk : Forward ({ th with links } : Threads).links (th.links t).next rest :=
        forward.tail.congr fun u here =>
          same u (fun there => (List.nodup_append.mp nodup).2.2 u there u (by simp [here]) rfl)
            fun again => fresh.2 (again ▸ here)
      have done := ih walk shorter keepQueue' wakeQueue' (lost.nodup_iff.mpr nodup)
      refine ⟨done.frame, done.keep, done.wake, fun u notKeep notWake => ?_⟩
      rw [done.links u notKeep notWake]
      have absent : u ∉ keeps' ++ wakes' := by
        simp only [List.mem_append, not_or] at notKeep notWake ⊢
        exact ⟨notKeep.1, notWake.1⟩
      rw [perm.mem_iff, List.mem_cons, not_or] at absent
      exact same u absent.2 absent.1
    unfold sortSenders
    simp only
    split
    · rename_i badged
      have badged : (th.tcbs t).senderBadge = badge := badged
      obtain ⟨queue, other, links⟩ := pushBack_apart wakeQueue keepQueue fresh.1.2 fresh.1.1
        fun u here there => disjoint u there here
      have kept : th.keptSenders badge (t :: rest) = th.keptSenders badge rest := by
        simp [keptSenders, badged]
      have gone : wakes ++ th.badgedSenders badge (t :: rest) =
          wakes ++ [t] ++ th.badgedSenders badge rest := by
        simp [badgedSenders, badged]
      rw [kept, gone]
      refine onward other queue ?_ fun u absent apart => links u (fun here => absent ?_) apart
      · rw [← List.append_assoc]
        exact List.perm_append_singleton t _
      · exact List.mem_append_right _ here
    · rename_i other
      have other : (th.tcbs t).senderBadge ≠ badge := other
      obtain ⟨queue, waiting, links⟩ :=
        pushBack_apart keepQueue wakeQueue fresh.1.1 fresh.1.2 disjoint
      have kept : keeps ++ th.keptSenders badge (t :: rest) =
          keeps ++ [t] ++ th.keptSenders badge rest := by
        simp [keptSenders, other]
      have gone : th.badgedSenders badge (t :: rest) = th.badgedSenders badge rest := by
        simp [badgedSenders, other]
      rw [kept, gone]
      refine onward queue waiting ?_ fun u absent apart => links u (fun here => absent ?_) apart
      · rw [List.append_assoc]
        exact List.perm_middle
      · exact List.mem_append_left _ here

/-- Nobody looks at the links of a loose thread that is in flux. -/
theorem Ordered.relink {links : Addr → Links} (ord : th.Ordered env lists flux loose)
    (same : ∀ u, ¬ (u ∈ flux ∧ u ∈ loose) → links u = th.links u) :
    ({ th with links } : Threads).Ordered env lists flux loose := by
  refine ⟨⟨fun q => ?_, ord.family.apart, fun u out tight => ?_⟩, ord.out,
    fun u out => (ord.fits u out).congr rfl rfl fun _ => Iff.rfl,
    fun ep => (ord.eps ep).congr rfl rfl rfl, ord.ntfns⟩
  · exact (ord.family.queue q).congr fun u here =>
      same u fun inFlux => ord.out u inFlux.1 q here
  · exact (same u fun both => tight both.2).trans (ord.family.unlinked u out tight)

/-- The senders on a queue of their own are released one by one. -/
theorem Ordered.wakeSenders (ord : th.Ordered env lists flux loose)
    (queue : IsQueue th.links wake l) (enough : l.length ≤ steps)
    (all : ∀ t ∈ l, t ∈ flux ∧ t ∈ loose ∧ t < walkLimit ∧ t ≠ env.idleTcb ∧
      ((th.tcbs t).state = .blockedOnSend ∨ (th.tcbs t).state = .blockedOnReceive)) :
    Drained env th lists flux loose (fun tcb => tcb.cancelEndpointWaiter.1) l
      (wakeSenders env steps wake th) := by
  induction l generalizing th lists flux loose wake steps with
  | nil =>
    have empty : Lib.popFront th.links wake = none := by
      have noHead : wake.head = none := queue.head
      simp [Lib.popFront, noHead]
    have stop : Threads.wakeSenders env steps wake th = th := by
      cases steps with
      | zero => rfl
      | succ n => simp [Threads.wakeSenders, empty]
    rw [stop]
    exact ⟨by simpa [members] using ord, by simp, rfl, rfl, rfl⟩
  | cons t rest ih =>
    obtain ⟨steps, rfl⟩ : ∃ k, steps = k + 1 := ⟨steps - 1, by simp at enough; omega⟩
    obtain ⟨inFlux, isLoose, small, other, blocked⟩ := all t List.mem_cons_self
    obtain ⟨absent, nodup⟩ := List.nodup_cons.mp queue.nodup
    have apart : ∀ u ∈ rest, u ≠ t := fun u here same => absent (same ▸ here)
    -- Taking the first one off relinks nobody but the listed threads.
    have split : IsQueue th.links wake ([] ++ t :: rest) := queue
    have relinked := ord.relink fun u out => split.remove_links_of_not_mem fun here =>
      out ⟨(all u here).1, (all u here).2.1⟩
    obtain ⟨ord', links⟩ :=
      relinked.release inFlux (cancelEndpointWaiter_released small other blocked)
    rw [Threads.wakeSenders, queue.popFront_eq]
    have step : cancelWaiter env { th with links := (Lib.remove th.links wake t).1 } t =
        Threads.release env { th with links := (Lib.remove th.links wake t).1 } t
          (th.tcbs t).cancelEndpointWaiter.1 := cancelWaiter_eq blocked
    simp only [step]
    refine Drained.cons absent (ih ord' ?_ (by simpa using enough) fun u here => ?_)
    · refine split.remove.congr fun u here => links u (all u ?_).1 (apart u here)
      exact List.mem_cons_of_mem t here
    · obtain ⟨inFlux, isLoose, small, other, blocked⟩ := all u (List.mem_cons_of_mem t here)
      rw [release_tcbs, update_of_ne (apart u here)]
      exact ⟨⟨inFlux, apart u here⟩, ⟨isLoose, apart u here⟩, small, other, blocked⟩

/-- The endpoint once its senders are sorted: with nobody left it stays empty. -/
theorem Sorted.endpoint {sorted : Threads × QueueEnds × QueueEnds}
    (done : Sorted (th.updEp ep fun _ => {}) keeps wakes sorted) :
    (if sorted.2.1.head.isSome then
        sorted.1.updEp ep fun _ => { state := .sending, ends := sorted.2.1 }
      else sorted.1) =
      { th.updEp ep fun _ => ⟨if keeps = [] then .idle else .sending, sorted.2.1⟩ with
        links := sorted.1.links } := by
  have head := done.keep.head
  rw [done.frame]
  split
  · rename_i some
    have kept : keeps ≠ [] := by
      rintro rfl
      simp [head] at some
    simp [updEp, kept]
  · rename_i nobody
    have empty : sorted.2.1.head = none := by simpa using nobody
    simp [done.keep.eq_nil empty, done.keep.ends_eq empty]

/-- Once sorted, the senders that keep waiting are the queue and the others are let go. -/
theorem Ordered.sorted (ord : th.Ordered env lists flux loose)
    (sending : (th.eps ep).state = .sending) {sorted : Threads × QueueEnds × QueueEnds}
    (done : Sorted (th.updEp ep fun _ => {}) keeps wakes sorted)
    (perm : (keeps ++ wakes).Perm (lists (.endpoint ep))) :
    ({ th.updEp ep fun _ => ⟨if keeps = [] then .idle else .sending, sorted.2.1⟩ with
        links := sorted.1.links } : Threads).Ordered env
      (update lists (.endpoint ep) keeps) (flux ∪ members wakes)
      (loose ∪ members wakes) := by
  have ends : (th.updEp ep fun _ => ⟨if keeps = [] then .idle else .sending, sorted.2.1⟩).ends =
      update th.ends (.endpoint ep) sorted.2.1 := updEp_ends
  refine ord.divide perm rfl rfl (fun u absent => ?_) ends done.keep (fun ep' => ?_) fun ntfn => ?_
  · rw [← perm.mem_iff, List.mem_append, not_or] at absent
    exact done.links u absent.1 absent.2
  · by_cases same : ep' = ep
    · subst same
      refine ⟨by simp [updEp], fun u here => ?_⟩
      rw [update_self] at here
      have before : u ∈ lists (.endpoint ep') := perm.mem_iff.mp (List.mem_append_left _ here)
      have state := (ord.eps ep').waiter u before
      rw [sending] at state
      simpa [updEp, List.ne_nil_of_mem here] using state
    · refine (ord.eps ep').congr (by simp [updEp, same]) rfl ?_
      rw [update_of_ne (by simpa using same)]
  · rw [update_of_ne (by simp)]
    exact ord.ntfns ntfn

theorem mem_badgedSenders {badge : Word} :
    t ∈ th.badgedSenders badge l ↔ t ∈ l ∧ (th.tcbs t).senderBadge = badge := by
  simp [badgedSenders]

/-- The badged senders leave a queue that keeps everybody else in order, and are let go in turn. -/
theorem Ordered.cancelBadgedSends (ord : th.Ordered env lists flux ∅)
    (sending : (th.eps ep).state = .sending) (badge : Word) :
    ∃ links ends, Drained env
      { th.updEp ep fun _ =>
          ⟨if th.keptSenders badge (lists (.endpoint ep)) = [] then .idle else .sending, ends⟩ with
        links }
      (update lists (.endpoint ep) (th.keptSenders badge (lists (.endpoint ep))))
      (flux ∪ members (th.badgedSenders badge (lists (.endpoint ep))))
      (∅ ∪ members (th.badgedSenders badge (lists (.endpoint ep))))
      (fun tcb => tcb.cancelEndpointWaiter.1) (th.badgedSenders badge (lists (.endpoint ep)))
      (th.cancelBadgedSends env ep badge) := by
  have queue := ord.family.queue (.endpoint ep)
  have walk : Forward (th.updEp ep fun _ => {}).links (th.eps ep).ends.head (lists (.endpoint ep)) :=
    queue.forward
  have done : Sorted (th.updEp ep fun _ => {}) (th.keptSenders badge (lists (.endpoint ep)))
      (th.badgedSenders badge (lists (.endpoint ep)))
      (sortSenders badge walkLimit (th.eps ep).ends.head (th.updEp ep fun _ => {}) {} {}) :=
    sortSenders_sorted badge walk ord.length_le .empty .empty queue.nodup
  have short : (th.badgedSenders badge (lists (.endpoint ep))).length ≤ walkLimit :=
    Nat.le_trans (List.length_filter_le _ _) ord.length_le
  have drained := (ord.sorted sending done (keptSenders_append_badged badge _)).wakeSenders done.wake
    short fun t here =>
      have ⟨small, other, _, blocked⟩ := ord.waiter (mem_badgedSenders.mp here).1
      ⟨.inr here, .inr here, small, other, blocked⟩
  have busy : ¬ (th.eps ep).state ≠ .sending := by simpa using sending
  rw [Threads.cancelBadgedSends, if_neg busy]
  simp only
  rw [done.endpoint]
  exact ⟨_, _, drained⟩

end Sorting

end Threads

end Rel4
