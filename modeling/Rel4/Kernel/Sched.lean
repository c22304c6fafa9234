import Rel4.Kernel.Thread

/-! The runqueue, endpoint and notification wait lists, and the scheduler's choices. -/

namespace Rel4

/--
Steps after which a walk along queue links is given up.

There are no more addresses than this, so a longer walk would go round in circles.
-/
def walkLimit : Nat := 2 ^ 64

/-- The queues that keep their ends somewhere: the runqueue, an endpoint, a notification. -/
inductive QueueId
  | run
  | endpoint (ep : Addr)
  | notification (ntfn : Addr)
deriving DecidableEq

namespace Threads

variable (env : Env) (th : Threads)

/-- Change one thread. -/
def updTcb (tcb : Addr) (change : Tcb → Tcb) : Threads :=
  { th with tcbs := Function.update th.tcbs tcb (change (th.tcbs tcb)) }

/-- Change one endpoint. -/
def updEp (ep : Addr) (change : Endpoint → Endpoint) : Threads :=
  { th with eps := Function.update th.eps ep (change (th.eps ep)) }

/-- Change one notification. -/
def updNtfn (ntfn : Addr) (change : Notification → Notification) : Threads :=
  { th with ntfns := Function.update th.ntfns ntfn (change (th.ntfns ntfn)) }

/-- Where a queue keeps its ends. -/
def ends : QueueId → QueueEnds
  | .run => th.runqueue
  | .endpoint ep => (th.eps ep).ends
  | .notification ntfn => (th.ntfns ntfn).ends

/-- Store the ends of a queue. -/
def setEnds (queue : QueueId) (ends : QueueEnds) : Threads :=
  match queue with
  | .run => { th with runqueue := ends }
  | .endpoint ep => th.updEp ep fun e => { e with ends }
  | .notification ntfn => th.updNtfn ntfn fun n => { n with ends }

/-- Whether a thread is reachable from the head of a queue. -/
def contains (queue : QueueId) (tcb : Addr) : Bool :=
  Lib.reaches th.links tcb walkLimit (th.ends queue).head

/-- Append a thread to a queue. -/
def pushBack (queue : QueueId) (tcb : Addr) : Threads :=
  let (links, ends) := Lib.pushBack th.links (th.ends queue) tcb
  { th with links }.setEnds queue ends

/-- Unlink a thread from the queue it is on. -/
def remove (queue : QueueId) (tcb : Addr) : Threads :=
  let (links, ends) := Lib.remove th.links (th.ends queue) tcb
  { th with links }.setEnds queue ends

/-- Take the first thread off a queue. -/
def popFront (queue : QueueId) : Option (Addr × Threads) :=
  (Lib.popFront th.links (th.ends queue)).map fun (tcb, links, ends) =>
    (tcb, { th with links }.setEnds queue ends)

/-- Forget a thread's links without touching any queue. -/
def clearLinks (tcb : Addr) : Threads := { th with links := Lib.clearLinks th.links tcb }

/-- The idle thread is static and never queued. -/
def isIdleThread (tcb : Addr) : Bool := tcb == env.idleTcb

/-- Whether a thread may run. -/
def isRunnable (tcb : Addr) : Bool := (th.tcbs tcb).state.isRunnable

/-- Add a thread to the runqueue; nothing happens if it may not run or is queued already. -/
def enqueue (tcb : Addr) : Threads :=
  if isIdleThread env tcb || !th.isRunnable tcb then th
  else if th.contains .run tcb || !(th.links tcb).isUnlinked then th
  else th.pushBack .run tcb

/-- Take a thread off the runqueue, if it is there. -/
def dequeue (tcb : Addr) : Threads :=
  if th.contains .run tcb then th.remove .run tcb else th

/-- Append a waiter and put the endpoint in the given state. -/
def epEnqueueWaiter (ep : Addr) (tcb : Addr) (state : EpState) : Threads :=
  (th.updEp ep fun e => { e with state }).pushBack (.endpoint ep) tcb

/-- An endpoint whose queue ran empty goes back to idle. -/
def epSettle (ep : Addr) : Threads :=
  if (th.eps ep).ends.head.isNone then th.updEp ep fun _ => {} else th

/-- Remove the first waiter of an endpoint. -/
def epPopHead (ep : Addr) : Option Addr × Threads :=
  match th.popFront (.endpoint ep) with
  | some (tcb, th) => (some tcb, th.epSettle ep)
  | none => (none, th.epSettle ep)

/-- Remove the first waiter only if the endpoint holds waiters of this kind. -/
def popWaiterIfState (ep : Addr) (state : EpState) : Option Addr × Threads :=
  if (th.eps ep).state ≠ state then (none, th) else th.epPopHead ep

/-- Remove the first blocked sender, if any. -/
def popSender (ep : Addr) : Option Addr × Threads := th.popWaiterIfState ep .sending

/-- Remove the first blocked receiver, if any. -/
def popReceiver (ep : Addr) : Option Addr × Threads := th.popWaiterIfState ep .receiving

/-- Remove any waiter of an endpoint, if it is there. -/
def epRemoveWaiter (ep : Addr) (tcb : Addr) : Threads :=
  if th.contains (.endpoint ep) tcb then (th.remove (.endpoint ep) tcb).epSettle ep else th

/-- Take one waiter out of a detached list, and queue it if it may run. -/
def cancelWaiter (tcb : Addr) : Threads :=
  let (after, runnable) := (th.tcbs tcb).cancelEndpointWaiter
  let th := (th.clearLinks tcb).updTcb tcb fun _ => after
  if runnable then th.enqueue env tcb else th

/-- Cancel every waiter of a detached list, following the links read before each step. -/
def cancelWaiters : Nat → Option Addr → Threads → Threads
  | 0, _, th => th
  | _ + 1, none, th => th
  | steps + 1, some tcb, th => cancelWaiters steps (th.links tcb).next (th.cancelWaiter env tcb)

/-- Wake everybody when the last capability to an endpoint goes. -/
def epFinalize (ep : Addr) : Threads :=
  cancelWaiters env walkLimit (th.eps ep).ends.head (th.updEp ep fun _ => {})

/-- Sort a detached list of senders into those that keep waiting and those that are cancelled. -/
def sortSenders (badge : Word) : Nat → Option Addr → Threads → QueueEnds → QueueEnds →
    Threads × QueueEnds × QueueEnds
  | 0, _, th, keep, wake => (th, keep, wake)
  | _ + 1, none, th, keep, wake => (th, keep, wake)
  | steps + 1, some tcb, th, keep, wake =>
    let next := (th.links tcb).next
    let th := th.clearLinks tcb
    if (th.tcbs tcb).senderBadge = badge then
      let (links, wake) := Lib.pushBack th.links wake tcb
      sortSenders badge steps next { th with links } keep wake
    else
      let (links, keep) := Lib.pushBack th.links keep tcb
      sortSenders badge steps next { th with links } keep wake

/-- Cancel the senders on a queue of their own, one by one. -/
def wakeSenders : Nat → QueueEnds → Threads → Threads
  | 0, _, th => th
  | steps + 1, wake, th =>
    match Lib.popFront th.links wake with
    | none => th
    | some (tcb, links, wake) => wakeSenders steps wake ({ th with links }.cancelWaiter env tcb)

/-- Cancel the blocked senders of one badge; everybody else stays queued. -/
def cancelBadgedSends (ep : Addr) (badge : Word) : Threads :=
  if (th.eps ep).state ≠ .sending then th else
  let detached := th.updEp ep fun _ => {}
  let (th, keep, wake) := sortSenders badge walkLimit (th.eps ep).ends.head detached {} {}
  let th :=
    if keep.head.isSome then th.updEp ep fun _ => { state := .sending, ends := keep } else th
  wakeSenders env walkLimit wake th

/-- A notification whose queue ran empty forgets its tail. -/
def ntfnSettle (ntfn : Addr) : Threads :=
  if (th.ntfns ntfn).ends.head.isNone then
    th.updNtfn ntfn fun n => { n with ends := { n.ends with tail := none } }
  else th

/-- Remove the first waiter of a notification. -/
def ntfnPopHead (ntfn : Addr) : Option Addr × Threads :=
  match th.popFront (.notification ntfn) with
  | some (tcb, th) => (some tcb, th.ntfnSettle ntfn)
  | none => (none, th.ntfnSettle ntfn)

/-- Remove any waiter of a notification, if it is there. -/
def ntfnRemoveWaiter (ntfn : Addr) (tcb : Addr) : Threads :=
  if th.contains (.notification ntfn) tcb then
    let th := th.remove (.notification ntfn) tcb
    if (th.ntfns ntfn).ends.head.isNone then
      (th.ntfnSettle ntfn).updNtfn ntfn fun n => { n with state := .idle }
    else th
  else th

/-- Collect a latched badge if one is pending. -/
def consumeActive (ntfn : Addr) : Option (Word × Threads) :=
  if (th.ntfns ntfn).state = .active then
    some ((th.ntfns ntfn).badge, th.updNtfn ntfn fun n => { n with badge := 0, state := .idle })
  else none

/-- Keep a badge until somebody asks for it. -/
def latch (ntfn : Addr) (badge : Word) : Threads :=
  th.updNtfn ntfn fun n => { n with badge, state := .active }

/-- Signal a notification that has waiters: the first of them takes the badge. -/
def signalWaiting (ntfn : Addr) (badge : Word) : Threads :=
  match th.ntfnPopHead ntfn with
  | (none, th) => th.updNtfn ntfn fun n => { n with state := .idle }
  | (some dest, th) =>
    let th :=
      if (th.ntfns ntfn).ends.head.isNone then th.updNtfn ntfn fun n => { n with state := .idle }
      else th
    (th.updTcb dest (·.completeNotificationWait env.arch badge)).enqueue env dest

/-- Whether a thread waits to receive on this endpoint. -/
def waitsToReceive (tcb : Addr) (ep : Addr) : Bool :=
  (th.tcbs tcb).state = .blockedOnReceive ∧ (th.tcbs tcb).waitingOn = some (.endpoint ep)

/-- Take a bound thread off its endpoint and hand it the badge. -/
def deliverToBoundEndpointReceiver (ntfn tcb ep : Addr) (badge : Word) : Threads :=
  let th := th.epRemoveWaiter ep tcb
  let th := th.updNtfn ntfn fun n => { n with badge := 0, state := .idle }
  (th.updTcb tcb (·.completeBoundEndpointNotificationWait env.arch badge)).enqueue env tcb

/-- Signal a notification without waiters: a bound receiver takes the badge, or it is latched. -/
def signalIdleOrActive (ntfn : Addr) (badge : Word) : Threads :=
  let latched := if (th.ntfns ntfn).state = .active then (th.ntfns ntfn).badge else 0
  let combined := latched ||| badge
  match (th.ntfns ntfn).boundTcb with
  | none => th.latch ntfn combined
  | some bound =>
    if (th.tcbs bound).state ≠ .blockedOnReceive then th.latch ntfn combined
    else match (th.tcbs bound).waitingOn with
      | some (.endpoint ep) =>
        if th.waitsToReceive bound ep then
          th.deliverToBoundEndpointReceiver env ntfn bound ep combined
        else th.latch ntfn combined
      | _ =>
        let th := th.updNtfn ntfn fun n => { n with badge := 0, state := .idle }
        (th.updTcb bound (·.completeNotificationWait env.arch combined)).enqueue env bound

/-- Signal a notification. -/
def signal (ntfn : Addr) (badge : Word) : Threads :=
  match (th.ntfns ntfn).state with
  | .waiting => th.signalWaiting env ntfn badge
  | .idle | .active => th.signalIdleOrActive env ntfn badge

/-- Wait on a notification: the answer is a badge, or nothing if the thread was blocked. -/
def wait (ntfn tcb : Addr) (blocking : Bool) : Option Word × Threads :=
  match th.consumeActive ntfn with
  | some (badge, th) => (some badge, th)
  | none =>
    if blocking then
      let th := (th.dequeue tcb).updTcb tcb (·.setBlockedOnNotification ntfn)
      let th := th.pushBack (.notification ntfn) tcb
      (none, th.updNtfn ntfn fun n => { n with state := .waiting })
    else (some 0, th)

/-- Restart every waiter of a detached notification queue. -/
def restartWaiters : Nat → Option Addr → Threads → Threads
  | 0, _, th => th
  | _ + 1, none, th => th
  | steps + 1, some tcb, th =>
    let next := (th.links tcb).next
    let th := (th.clearLinks tcb).updTcb tcb Tcb.restartNotificationWaiter
    restartWaiters steps next (th.enqueue env tcb)

/-- A bound thread forgets the notification it is bound to. -/
def clearBoundNotificationIf (tcb ntfn : Addr) : Threads :=
  if (th.tcbs tcb).boundNotification = some ntfn then
    th.updTcb tcb fun t => { t with boundNotification := none }
  else th

/-- Bind a notification, dropping an earlier binding of the thread. -/
def bindNotification (tcb ntfn : Addr) : Threads :=
  let th := match (th.tcbs tcb).boundNotification with
    | some previous => th.updNtfn previous fun n => { n with boundTcb := none }
    | none => th
  (th.updTcb tcb fun t => { t with boundNotification := some ntfn }).updNtfn ntfn
    fun n => { n with boundTcb := some tcb }

/-- Drop a thread's binding. -/
def unbindNotification (tcb : Addr) : Threads :=
  match (th.tcbs tcb).boundNotification with
  | none => th
  | some ntfn =>
    (th.updNtfn ntfn fun n => { n with boundTcb := none }).updTcb tcb
      fun t => { t with boundNotification := none }

/-- Leave the endpoint or notification the thread is queued on. -/
def unlinkFromWaitObject (tcb : Addr) : Threads :=
  match (th.tcbs tcb).waitingOn with
  | none => th
  | some object =>
    let th := match object with
      | .notification ntfn => th.ntfnRemoveWaiter ntfn tcb
      | .endpoint ep => th.epRemoveWaiter ep tcb
    th.updTcb tcb fun t => { t with waitingOn := none }.clearEndpointIpcState

/-- Charge a tick to the current thread, and ask for rotation when its slice is used up. -/
def timerTick : Threads :=
  match th.current with
  | none => th
  | some cur =>
    if isIdleThread env cur || (th.tcbs cur).state ≠ .running then th
    else if 1 < (th.tcbs cur).timeSlice then
      th.updTcb cur fun t => { t with timeSlice := t.timeSlice - 1 }
    else
      { th.updTcb cur fun t => { t with timeSlice := timeSliceTicks } with
        rescheduleRequired := true }

/-- Put the caller at the tail of the runqueue and rotate at the next kernel exit. -/
def yieldCurrent (cur : Addr) : Threads :=
  if isIdleThread env cur then th else { th.enqueue env cur with rescheduleRequired := true }

/-- Make a thread current and ready to return to user mode. -/
def resumeUser (tcb : Addr) : Threads :=
  { th.updTcb tcb Tcb.prepareForUserRestore with current := some tcb }

end Threads

end Rel4
