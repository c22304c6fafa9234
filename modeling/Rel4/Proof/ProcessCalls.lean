import Rel4.Host.Tasks
import Rel4.Proof.Process

/-! The sections of the calls, put together from the few changes that they make. -/

namespace Rel4.Host

open Lib (update_elim)
open Function (update update_idem update_of_ne update_self)

namespace Processes

/-- The table with everything that belongs to it. -/
structure Consistent (s : Processes) (held : Nat → Nat) (calls : Nat → Nat → Prop) (quits : Nat → Prop) : Prop where
  named : Named s.procs s.nextPid
  owned : Owned s.pool s.procs held
  answered : Answered s.threads s.procs s.nextPid held calls quits

variable {s : Processes} {held : Nat → Nat} {calls : Nat → Nat → Prop} {quits : Nat → Prop} {i j : Fin maxProcs}
  {copies : Copies} {pid slot : Nat} {status : Int}

section Find

theorem find_spec {pred : Fin maxProcs → Prop} [DecidablePred pred]
    (found : (List.finRange maxProcs).find? (fun i => pred i) = some i) : pred i := by
  simpa using List.find?_some found

theorem findProc_spec (found : s.findProc pid = some i) :
    (s.procs i).pid = pid ∧ (s.procs i).state ≠ .unused :=
  find_spec found

theorem findProc_none (found : s.findProc pid = none) (i : Fin maxProcs) (used : (s.procs i).state ≠ .unused) :
    (s.procs i).pid ≠ pid := by
  intro isPid
  have := List.find?_eq_none.mp found i (List.mem_finRange i)
  simp [isPid, used] at this

theorem waitingParent_spec (found : s.waitingParent j = some i) :
    (s.procs i).pid = (s.procs j).parentPid ∧ (s.procs i).state = .waiting :=
  ⟨(find_spec found).1, (find_spec found).2.1⟩

end Find

section Release

@[simp] theorem release_procs : (s.release slot).procs = s.procs := by
  unfold release halt
  repeat' split
  all_goals rfl

@[simp] theorem release_nextPid : (s.release slot).nextPid = s.nextPid := by
  unfold release halt
  repeat' split
  all_goals rfl

@[simp] theorem release_threads : (s.release slot).threads = s.threads := by
  unfold release halt
  repeat' split
  all_goals rfl

@[simp] theorem release_ended : (s.release slot).ended = s.ended := by
  unfold release halt
  repeat' split
  all_goals rfl

@[simp] theorem release_reaps : (s.release slot).reaps = s.reaps := by
  unfold release halt
  repeat' split
  all_goals rfl

theorem answerWait_procs : (s.answerWait i).procs =
    update s.procs i { (s.procs i).clearWaitBlock with state := .runnable } := by
  simp [answerWait, setProc, sendAndRelease, send]

end Release

section Kept

/-- What answering a wait and reaping keep, the latter of processes that are not spared. -/
structure Kept (spared : Fin maxProcs → Prop) (P : Processes → Prop) : Prop where
  reap : ∀ s j waiter, P s → (s.procs j).state = .zombie → ¬ spared j → P (s.reapProcess j waiter)
  answer : ∀ s i, P s → (s.procs i).state = .waiting → P (s.answerWait i)

variable {spared : Fin maxProcs → Prop} {P : Processes → Prop} {exitingPid : Nat}

theorem Kept.replyWaitingParent (kept : Kept spared P) (here : P s) (zombie : (s.procs j).state = .zombie)
    (free : ¬ spared j) : P (s.replyWaitingParent copies j) := by
  unfold Processes.replyWaitingParent
  split
  · exact here
  · rename_i i found
    obtain ⟨-, waiting⟩ := waitingParent_spec found
    dsimp only
    split
    · refine kept.answer _ i (kept.reap s j _ here zombie free) ?_
      revert waiting
      change _ → (update s.procs j .empty i).state = .waiting
      exact update_elim i (fun waiting => by cases zombie.symm.trans waiting) fun _ _ => id
    · exact kept.answer s i here waiting

/-- One turn of the loop over the children of a process that ends. -/
theorem Kept.reparentChild (kept : Kept spared P)
    (spares : ∀ s j, P s → spared j → (s.procs j).parentPid ≠ exitingPid)
    (adopt : ∀ s j, P s → (s.procs j).parentPid = exitingPid → (s.procs j).state ≠ .unused →
      P (s.setProc j { s.procs j with parentPid := 1 }))
    (here : P s) (j : Fin maxProcs) : P (s.reparentChild copies exitingPid j) := by
  unfold Processes.reparentChild
  split
  · rename_i child
    have free : ¬ spared j := fun spare => spares s j here spare child.1
    dsimp only
    split
    · rename_i zombie
      exact kept.replyWaitingParent (adopt s j here child.1 child.2) zombie free
    · exact adopt s j here child.1 child.2
  · exact here

theorem Kept.reparentChildren (kept : Kept spared P)
    (spares : ∀ s j, P s → spared j → (s.procs j).parentPid ≠ exitingPid)
    (adopt : ∀ s j, P s → (s.procs j).parentPid = exitingPid → (s.procs j).state ≠ .unused →
      P (s.setProc j { s.procs j with parentPid := 1 }))
    (here : P s) : P (s.reparentChildren copies exitingPid) :=
  List.foldlRecOn _ _ here fun _ here j _ => kept.reparentChild spares adopt here j

/-- A process that has ended, and is not a child of the exiting one, stays in the loop as it is. -/
theorem reparentChildren_spares (zombie : (s.procs i).state = .zombie) (other : (s.procs i).parentPid ≠ exitingPid) :
    (s.reparentChildren copies exitingPid).procs i = s.procs i := by
  have kept : Kept (fun j => j = i) fun s' => s'.procs i = s.procs i := by
    refine ⟨fun s' j waiter same _ distinct => ?_, fun s' j same waiting => ?_⟩
    · exact (update_of_ne (Ne.symm distinct) ..).trans same
    · have distinct : i ≠ j := by
        rintro rfl
        rw [same, zombie] at waiting
        cases waiting
      rw [answerWait_procs, update_of_ne distinct, same]
  refine kept.reparentChildren (fun s' j same isI => ?_) (fun s' j same child _ => ?_) rfl
  · rw [isI, same]
    exact other
  · have distinct : i ≠ j := by
      rintro rfl
      rw [same] at child
      exact other child
    exact (update_of_ne distinct ..).trans same

/-- The process that ends is still there after the loop. -/
theorem reparentChildren_zombie (other : (s.procs i).parentPid ≠ (s.procs i).pid) :
    ((((s.dropBlockedReplyCaps i).zombify i status).reparentChildren copies (s.procs i).pid).procs i).state =
      .zombie := by
  have dropped : ((s.dropBlockedReplyCaps i).procs i).parentPid = (s.procs i).parentPid := by
    unfold dropBlockedReplyCaps
    split
    · simp [setProc, stopAndRelease, send, TaskStruct.clearWaitBlock]
    · rfl
  have here : ((s.dropBlockedReplyCaps i).zombify i status).procs i =
      { (s.dropBlockedReplyCaps i).procs i with state := .zombie, exitStatus := status } :=
    update_self ..
  rw [reparentChildren_spares] <;> rw [here]
  rw [dropped]
  exact other

/-- What the end of a process keeps. -/
theorem Kept.makeZombieProcess (kept : Kept (fun _ => False) P) (other : (s.procs i).parentPid ≠ (s.procs i).pid)
    (adopt : ∀ s' j, P s' → (s'.procs j).parentPid = (s.procs i).pid → (s'.procs j).state ≠ .unused →
      P (s'.setProc j { s'.procs j with parentPid := 1 }))
    (here : P ((s.dropBlockedReplyCaps i).zombify i status)) : P (s.makeZombieProcess copies i status) := by
  unfold Processes.makeZombieProcess
  refine kept.replyWaitingParent ?_ (reparentChildren_zombie other) id
  exact kept.reparentChildren (fun _ _ _ => False.elim) adopt here

end Kept

section Consistent

section

variable (ok : s.Consistent held calls quits)
include ok

/-- The same calls are under way, and more processes may be about to stop. -/
theorem Consistent.congr {held' : Nat → Nat} {calls' : Nat → Nat → Prop} {quits' : Nat → Prop}
    (sameHeld : ∀ slot, held' slot = held slot)
    (sameCalls : ∀ slot pid, calls' slot pid ↔ calls slot pid) (more : ∀ slot, quits slot → quits' slot) :
    s.Consistent held' calls' quits' := by
  obtain rfl : held' = held := funext sameHeld
  obtain rfl : calls' = calls := funext fun slot => funext fun pid => propext (sameCalls slot pid)
  exact ⟨ok.named, ok.owned, ok.answered.mono more⟩

theorem Consistent.suspend (pid : Nat) :
    Consistent (s.suspend pid) held calls quits :=
  ⟨ok.named, ok.owned, ok.answered.stop pid⟩

theorem Consistent.call (running : s.threads pid = .running) (request : Request) :
    Consistent { s with threads := update s.threads pid (.sending request) } held calls quits :=
  ⟨ok.named, ok.owned, ok.answered.call running request⟩

theorem Consistent.receive {request : Request}
    (sending : s.threads pid = .sending request) (here : held slot ≠ 0) (new : ∀ pid, ¬ calls slot pid) :
    Consistent { s with threads := update s.threads pid (.awaiting slot) } held
      (fun other pid' => calls other pid' ∨ other = slot ∧ pid' = pid) quits :=
  ⟨ok.named, ok.owned, ok.answered.receive ok.owned sending here new⟩

theorem Consistent.acquire {free : List Nat} (first : s.pool.free = slot :: free) :
    Consistent { s with pool := { s.pool with free } } (update held slot (held slot + 1)) calls quits := by
  refine ⟨ok.named, ok.owned.acquire first, { ok.answered with has := fun other pid call => ?_ }⟩
  have := ok.answered.has other pid call
  rw [held_more]
  omega

/-- The slot of a call that is over goes back to the pool. -/
theorem Consistent.release (called : held slot ≠ 0) (answered : ∀ pid, ¬ calls slot pid) :
    (s.release slot).halted = s.halted ∧
      (s.release slot).Consistent (update held slot (held slot - 1)) calls quits := by
  rw [ok.owned.release_eq (ok.owned.nonzero_of_held called) (Nat.add_pos_left (Nat.pos_of_ne_zero called) _)]
  refine ⟨rfl, ok.named, ok.owned.release called, { ok.answered with has := fun other pid call => ?_ }⟩
  have distinct : other ≠ slot := by
    rintro rfl
    exact answered pid call
  rw [update_of_ne distinct]
  exact ok.answered.has other pid call

/-- A call is answered, or its process is stopped. -/
theorem Consistent.send {quits' : Nat → Prop} (call : calls slot pid)
    (kept : ∀ other, other ≠ slot → quits other → quits' other) (resume : Bool) (stays : resume = true → ¬ quits slot) :
    (s.send slot resume).Consistent held (fun other pid' => calls other pid' ∧ other ≠ slot) quits' := by
  refine ⟨ok.named, ok.owned, ok.answered.send ok.owned call kept ?_⟩
  cases resume with
  | false => exact .inl rfl
  | true => exact .inr ⟨rfl, stays rfl⟩

theorem Consistent.reap (zombie : (s.procs j).state = .zombie) (waiter : Nat) :
    Consistent (s.reapProcess j waiter) held calls quits := by
  have clear := ok.owned.unblocked (i := j) (by simp [zombie])
  refine ⟨ok.named.clear, ok.owned.update clear.symm ?_, (ok.answered.stop _).clear zombie⟩
  exact ⟨fun some => absurd rfl some, fun waiting => (by cases waiting)⟩

/-- The slot of a blocked process goes back to the pool. -/
theorem Consistent.release_wait (waiting : (s.procs i).state = .waiting) (resume : Bool) :
    (s.send (s.procs i).waitReplySlot resume).release (s.procs i).waitReplySlot = { s with
        pool := { s.pool with free := (s.procs i).waitReplySlot :: s.pool.free }
        threads := woken s.threads (s.procs i).waitReplySlot (if resume then .running else .stopped) } :=
  Owned.release_eq (s := s.send (s.procs i).waitReplySlot resume) ok.owned ((ok.owned.blocked i).mpr waiting)
    (Nat.add_pos_right _ (waits_pos rfl))

theorem Consistent.answer (waiting : (s.procs i).state = .waiting) :
    Consistent (s.answerWait i) held calls quits := by
  unfold answerWait sendAndRelease
  rw [ok.release_wait waiting true]
  have used : (s.procs i).state ≠ .unused := by rw [waiting]; decide
  let p : TaskStruct := { (s.procs i).clearWaitBlock with state := .runnable }
  have on : p.state ≠ .waiting := fun waiting => (by cases waiting)
  refine ⟨ok.named.update used rfl (ok.named.parent_lt i used), ?_, ?_⟩
  · exact ok.owned.unblock (p := p) ((ok.owned.blocked i).mpr waiting) rfl on
  · exact ok.answered.unblock (p := p) ok.owned waiting rfl rfl on (.inr ⟨rfl, .inl rfl⟩)

/-- A process ends, whose thread is stopped or about to be. -/
theorem Consistent.end (used : (s.procs i).state ≠ .unused) (ending : s.threads (s.procs i).pid = .stopped ∨
      ∃ slot, s.threads (s.procs i).pid = .awaiting slot ∧ quits slot) :
    Consistent ((s.dropBlockedReplyCaps i).zombify i status) held calls quits := by
  unfold dropBlockedReplyCaps
  split
  · rename_i blocked
    have waiting := (ok.owned.blocked i).mp blocked
    unfold stopAndRelease zombify setProc
    rw [ok.release_wait waiting false]
    simp only [update_idem, update_self]
    let p : TaskStruct := { (s.procs i).clearWaitBlock with state := .zombie, exitStatus := status }
    have on : p.state ≠ .waiting := fun waiting => (by cases waiting)
    refine ⟨ok.named.update used rfl (ok.named.parent_lt i used), ?_, ?_⟩
    · exact ok.owned.unblock (p := p) blocked rfl on
    · exact ok.answered.unblock (p := p) ok.owned waiting rfl rfl on (.inl rfl)
  · rename_i free
    have free : (s.procs i).waitReplySlot = 0 := not_not.mp free
    have on : (s.procs i).state ≠ .waiting := fun waiting => (ok.owned.blocked i).mpr waiting free
    refine ⟨ok.named.update used rfl (ok.named.parent_lt i used), ok.owned.update rfl ?_, ?_⟩
    · exact ⟨fun some => absurd free some, fun waiting => (by cases waiting)⟩
    · exact ok.answered.update used rfl rfl ⟨fun waiting => (by cases waiting), fun waiting => absurd waiting on⟩
        (.inr ending)

theorem Consistent.answer_halted (waiting : (s.procs i).state = .waiting) : (s.answerWait i).halted = s.halted := by
  unfold answerWait sendAndRelease
  rw [ok.release_wait waiting true]
  rfl

theorem Consistent.end_halted : ((s.dropBlockedReplyCaps i).zombify i status).halted = s.halted := by
  unfold dropBlockedReplyCaps
  split
  · rename_i blocked
    unfold stopAndRelease zombify setProc
    rw [ok.release_wait ((ok.owned.blocked i).mp blocked) false]
  · rfl

end

/-- Reaping and answering a wait go without complaint. -/
theorem Consistent.kept {halted : Option Halt} :
    Kept (fun _ => False) fun s => s.Consistent held calls quits ∧ s.halted = halted :=
  ⟨fun _ _ waiter ok zombie _ => ⟨ok.1.reap zombie waiter, ok.2⟩,
    fun _ _ ok waiting => ⟨ok.1.answer waiting, (ok.1.answer_halted waiting).trans ok.2⟩⟩

theorem Consistent.makeZombieProcess (ok : s.Consistent held calls quits) (used : (s.procs i).state ≠ .unused)
    (ending : s.threads (s.procs i).pid = .stopped ∨
      ∃ slot, s.threads (s.procs i).pid = .awaiting slot ∧ quits slot) (copies : Copies) (status : Int) :
    (s.makeZombieProcess copies i status).Consistent held calls quits ∧
      (s.makeZombieProcess copies i status).halted = s.halted := by
  refine Consistent.kept.makeZombieProcess (Nat.ne_of_lt (ok.named.parent_lt i used)) ?_
    ⟨ok.end used ending, ok.end_halted⟩
  rintro s' j ⟨ok', same⟩ child used'
  -- A child is younger than its parent, which is not younger than `init`.
  have younger : 1 < (s'.procs j).pid := by
    have := ok'.named.parent_lt j used'
    have := ok.named.parent_lt i used
    omega
  refine ⟨⟨ok'.named.update used' rfl younger, ok'.owned.update rfl (ok'.owned.blocked j), ?_⟩, same⟩
  exact ok'.answered.update used' rfl rfl Iff.rfl (.inl id)

end Consistent

section Live

theorem reapProcess_live {waiter : Nat} (live : Live s.procs pid) (zombie : (s.procs j).state = .zombie) :
    Live (s.reapProcess j waiter).procs pid :=
  live.update fun _ alive => absurd zombie alive.not_zombie

theorem answerWait_live (live : Live s.procs pid) : Live (s.answerWait i).procs pid := by
  rw [answerWait_procs]
  exact live.update fun isPid _ => ⟨isPid, .inl rfl⟩

/-- The end of a process leaves the others alone. -/
theorem makeZombieProcess_live (live : Live s.procs pid) (parent : (s.procs i).parentPid ≠ (s.procs i).pid)
    (other : (s.procs i).pid ≠ pid) (copies : Copies) (status : Int) :
    Live (s.makeZombieProcess copies i status).procs pid := by
  have kept : Kept (fun _ => False) fun s => Live s.procs pid :=
    ⟨fun _ _ _ live zombie _ => reapProcess_live live zombie, fun _ _ live _ => answerWait_live live⟩
  refine kept.makeZombieProcess parent (fun s' j live _ _ => ?_) ?_
  · exact live.update fun isPid alive => ⟨isPid, alive⟩
  · refine Live.update (i := i) ?_ fun isPid => absurd ?_ other
    · unfold dropBlockedReplyCaps
      split
      · simp only [setProc, stopAndRelease, release_procs, send]
        exact live.update fun isPid alive => ⟨isPid, alive⟩
      · exact live
    · rw [← isPid]
      unfold dropBlockedReplyCaps
      split
      · simp [setProc, stopAndRelease, send, TaskStruct.clearWaitBlock]
      · rfl

end Live

section Calls

variable {answers : Answers} {task : HostTask}

/-- The host goes on, or stops because `init` has ended. -/
def GoesOn (s host : Processes) : Prop := host.halted = s.halted ∨ host.halted = s.halted.or (some .initEnded)

/-- What the section of a call makes of the table, and what it answers. -/
inductive Acted (s : Processes) (slot : Nat) (task : HostTask) (copies : Copies) : Processes → Option SyscallResult → Prop
  | kept (ret : Int) : Acted s slot task copies s (some (.reply ret))
  | unhandled : Acted s slot task copies s none
  | skip (ret : Int) (request : task.request = .fork) :
    Acted s slot task copies { s with nextPid := s.nextPid + 1 } (some (.reply ret))
  | fork (i j : Fin maxProcs) (request : task.request = .fork) (isPid : (s.procs i).pid = task.pid)
    (used : (s.procs i).state ≠ .unused) (free : (s.procs j).state = .unused) :
    Acted s slot task copies { s.setProc j (.create s.nextPid (s.procs i).pid) with
      nextPid := s.nextPid + 1
      threads := Function.update s.threads s.nextPid .running } (some (.reply s.nextPid))
  | initEnded : Acted s slot task copies (s.halt .initEnded) (some .stop)
  | exit (i : Fin maxProcs) (status : Int) (request : task.request = .exit status) (isPid : (s.procs i).pid = task.pid)
    (used : (s.procs i).state ≠ .unused) (child : (s.procs i).parentPid ≠ 0) :
    Acted s slot task copies (s.makeZombieProcess copies i (linuxExitStatus status)) (some .stop)
  | fault (i : Fin maxProcs) (request : task.request = .fault) (isPid : (s.procs i).pid = task.pid)
    (used : (s.procs i).state ≠ .unused) (child : (s.procs i).parentPid ≠ 0) :
    Acted s slot task copies ((s.suspend (s.procs i).pid).makeZombieProcess copies i (linuxExitStatus 1)) (some .stop)
  | kill (i : Fin maxProcs) (target : Int) (request : task.request = .kill target) (positive : 0 < target)
    (found : s.findProc target.toNat = some i) :
    Acted s slot task copies ((s.suspend (s.procs i).pid).makeZombieProcess copies i (linuxExitStatus 1)) (some (.reply 0))
  | reap (i j : Fin maxProcs) (zombie : (s.procs j).state = .zombie) :
    Acted s slot task copies (s.reapProcess j (s.procs i).pid) (some (.reply (s.procs j).pid))
  | block (i : Fin maxProcs) (waitPid : Int) (statusPtr : Nat) (changes : ∃ nohang, task.request = .wait4 waitPid statusPtr nohang)
    (isPid : (s.procs i).pid = task.pid) (used : (s.procs i).state ≠ .unused) :
    Acted s slot task copies (s.blockWait i waitPid statusPtr slot) (some .block)

/-- What a call does when its process is looked up first. -/
theorem onProc_acted {f : Fin maxProcs → Processes × Option SyscallResult} {copies : Copies}
    (each : ∀ i, (s.procs i).pid = task.pid → (s.procs i).state ≠ .unused → s.Acted slot task copies (f i).1 (f i).2) :
    s.Acted slot task copies (s.onProc task.pid f).1 (s.onProc task.pid f).2 := by
  unfold onProc
  split
  · exact .kept _
  · rename_i i found
    exact each i (findProc_spec found).1 (findProc_spec found).2

/-- Every call is one of the cases. -/
theorem acted (s : Processes) (slot : Nat) (task : HostTask) (answers : Answers) :
    s.Acted slot task answers.copies (s.act slot task answers).1 (s.act slot task answers).2 := by
  unfold Processes.act
  cases request : task.request with
  | other => exact .kept _
  | fork =>
    refine onProc_acted fun i isPid used => ?_
    unfold sysFork
    split
    · exact .kept _
    · rename_i j free
      dsimp only
      split
      · exact .kept _
      · exact .skip _ request
      · exact .fork i j request isPid used (find_spec free)
  | exit status =>
    refine onProc_acted fun i isPid used => ?_
    unfold sysExit
    split
    · exact .initEnded
    · rename_i child
      dsimp only [Prod.map, id]
      exact .exit i status request isPid used child
  | kill target =>
    dsimp only
    unfold sysKill
    split
    · exact .kept _
    · split
      · exact .kept _
      · rename_i i found
        dsimp only [Prod.map, id]
        exact .kill i target request (by omega) found
  | wait4 target ptr nohang =>
    refine onProc_acted fun i isPid used => ?_
    unfold waitCommon
    split
    · rename_i j found
      split
      · exact .reap i j (by simpa using List.find?_some found)
      · exact .kept _
    · split
      · exact .kept _
      · split
        · exact .kept _
        · exact .block i target ptr ⟨nohang, request⟩ isPid used
  | fault =>
    refine onProc_acted fun i isPid used => ?_
    split
    · unfold faultKill
      split
      · exact .initEnded
      · rename_i child
        dsimp only [Prod.map, id]
        exact .fault i request isPid used child
    · split
      · exact .kept _
      · exact .unhandled

theorem acted_of_act {host : Processes} {result : Option SyscallResult}
    (done : s.act slot task answers = (host, result)) : s.Acted slot task answers.copies host result := by
  have := s.acted slot task answers
  rwa [done] at this

/-- The section of a call. If the process blocks, the slot is its own; if it is to be stopped, that is known. -/
theorem Consistent.act {host : Processes} {result : Option SyscallResult} (ok : s.Consistent held calls quits)
    (call : calls slot task.pid) (done : s.act slot task answers = (host, result)) :
    s.GoesOn host ∧
      match result with
      | some .block =>
        host.Consistent (update held slot (held slot - 1)) (fun other pid => calls other pid ∧ other ≠ slot) quits
      | some .stop => host.Consistent held calls fun other => quits other ∨ other = slot
      | _ => host.Consistent held calls quits := by
  have more : s.Consistent held calls (fun other => quits other ∨ other = slot) :=
    ⟨ok.named, ok.owned, ok.answered.mono fun _ => .inl⟩
  -- A process whose thread is suspended ends.
  have killed {quits : Nat → Prop} (ok : s.Consistent held calls quits) {i : Fin maxProcs}
      (used : (s.procs i).state ≠ .unused) (status : Int) :
      ((s.suspend (s.procs i).pid).makeZombieProcess answers.copies i status).Consistent held calls quits ∧
        ((s.suspend (s.procs i).pid).makeZombieProcess answers.copies i status).halted = s.halted :=
    (ok.suspend (s.procs i).pid).makeZombieProcess used (.inl (update_self ..)) answers.copies status
  cases acted_of_act done with
  | kept | unhandled => exact ⟨.inl rfl, ok⟩
  | skip => exact ⟨.inl rfl, ok.named.skip, ok.owned, ok.answered.skip⟩
  | fork i j request isPid used free =>
    have clear := ok.owned.unblocked (i := j) (by simp [free])
    refine ⟨.inl rfl, ok.named.create (ok.named.below i used), ok.owned.update clear.symm ?_,
      ok.answered.create ok.named free _⟩
    exact ⟨fun some => absurd rfl some, fun waiting => (by cases waiting)⟩
  | initEnded => exact ⟨.inr rfl, more.named, more.owned, more.answered⟩
  | exit i status request isPid used =>
    have ending : s.threads (s.procs i).pid = .stopped ∨
        ∃ other, s.threads (s.procs i).pid = .awaiting other ∧ (quits other ∨ other = slot) := by
      rcases ok.answered.called slot _ (isPid ▸ call) with is | stopped
      · exact .inr ⟨slot, is, .inr rfl⟩
      · exact .inl stopped
    obtain ⟨ok, same⟩ := more.makeZombieProcess used ending answers.copies (linuxExitStatus status)
    exact ⟨.inl same, ok⟩
  | fault i request isPid used =>
    obtain ⟨ok, same⟩ := killed more used (linuxExitStatus 1)
    exact ⟨.inl same, ok⟩
  | kill i target request positive found =>
    obtain ⟨ok, same⟩ := killed ok (findProc_spec found).2 (linuxExitStatus 1)
    exact ⟨.inl same, ok⟩
  | reap i j zombie => exact ⟨.inl rfl, ok.reap zombie _⟩
  | block i waitPid statusPtr changes isPid used =>
    have call : calls slot (s.procs i).pid := isPid ▸ call
    have free := ok.answered.apart slot _ i call used rfl
    exact ⟨.inl rfl, ok.named.update used rfl (ok.named.parent_lt i used),
      ok.owned.block free (ok.answered.has _ _ call) rfl rfl, ok.answered.block ok.owned used call rfl rfl rfl⟩

/-- A fault that is not handled changes nothing yet. -/
theorem act_none {host : Processes} (done : s.act slot task answers = (host, none)) : host = s := by
  cases acted_of_act done
  rfl

/-- A call ends no process but its own, or the one that it is to kill. -/
theorem act_live {host : Processes} {result : Option SyscallResult} (named : Named s.procs s.nextPid)
    (live : Live s.procs pid) (own : (∃ status, task.request = .exit status) ∨ task.request = .fault → task.pid ≠ pid)
    (other : task.request ≠ .kill pid) (done : s.act slot task answers = (host, result)) : Live host.procs pid := by
  have younger {i : Fin maxProcs} (used : (s.procs i).state ≠ .unused) : (s.procs i).parentPid ≠ (s.procs i).pid :=
    Nat.ne_of_lt (named.parent_lt i used)
  cases acted_of_act done with
  | kept | unhandled | skip | initEnded => exact live
  | fork i j request isPid used free => exact live.update fun _ alive => absurd free alive.used
  | exit i status request isPid used =>
    exact makeZombieProcess_live live (younger used) (isPid ▸ own (.inl ⟨_, request⟩)) answers.copies _
  | fault i request isPid used =>
    exact makeZombieProcess_live (s := s.suspend _) live (younger used) (isPid ▸ own (.inr request)) answers.copies _
  | kill i target request positive found =>
    obtain ⟨isPid, used⟩ := findProc_spec found
    refine makeZombieProcess_live (s := s.suspend _) live (younger used) ?_ answers.copies _
    rintro rfl
    apply other
    rw [request]
    congr
    show target = ((s.procs i).pid : Int)
    omega
  | reap i j zombie => exact reapProcess_live live zombie
  | block => exact live.update fun isPid _ => ⟨isPid, .inr rfl⟩

end Calls

end Processes

end Rel4.Host
