import Rel4.Proof.HostRuns

/-!
A kill ends a process whatever its calls are doing.

The calls of some kind that are still to be carried out are of processes that have not ended, as long as no kill
hits a process with such a call.
-/

namespace Rel4.Host

open Lib
open Function (update update_of_ne update_self)

/-- A kind of call, by the request and the stage, that is decided when the call is carried out. -/
structure DueKind where
  due : Request → TaskStage → Bool
  of_looked : ∀ request, due request .looked = true → due request .spawned = true
  of_faulted : ∀ request, due request .faulted = true → due request .looked = true
  not_returned : ∀ request ret, due request (.returned ret) = false
  not_answering : ∀ request ok, due request (.answering ok) = false
  not_sent : ∀ request, due request .sent = false

namespace HostSystem

variable {Worker : Type} (kind : DueKind) (s : HostSystem Worker)

/-- The reactor has received a call of a kind from a process. -/
def receivedDue (pid : Nat) : Bool :=
  match s.reactor with
  | .received _ sender request => sender = pid ∧ kind.due request .spawned
  | _ => false

/-- A task with a call of a kind is for a process. -/
def taskDue (slot pid : Nat) : Bool :=
  match s.tasks slot with
  | some task => task.pid = pid ∧ kind.due task.request task.stage
  | none => false

/-- A process has a call of a kind to be carried out, not counting a task. -/
def hasDue (pid but : Nat) : Bool :=
  s.receivedDue kind pid || s.host.pool.all.any fun slot => slot != but && s.taskDue kind slot pid

/-- If the move is a kill, then its target has no call of a kind to be carried out. -/
def spares (move : HostMove Worker) : Bool :=
  match move with
  | .act thread _ =>
    match s.polling thread with
    | some slot =>
      match s.tasks slot with
      | some task =>
        match task.request with
        | .kill target => target ≤ 0 || !s.hasDue kind target.toNat slot
        | _ => true
      | none => true
    | none => true
  | _ => true

variable {kind s} {s' : HostSystem Worker} {slot pid : Nat} {task : HostTask}

theorem taskDue_iff (there : s.tasks slot = some task) :
    s.taskDue kind slot pid = true ↔ task.pid = pid ∧ kind.due task.request task.stage = true := by
  simp [taskDue, there]

theorem taskDue_none (there : s.tasks slot = none) : s.taskDue kind slot pid = false := by
  simp [taskDue, there]

theorem taskDue_congr (same : s'.tasks slot = s.tasks slot) : s'.taskDue kind slot pid = s.taskDue kind slot pid := by
  rw [taskDue, taskDue, same]

/-- The calls of a kind that are to be carried out are of processes that have not ended. -/
structure DueLive (kind : DueKind) (s : HostSystem Worker) : Prop where
  received : ∀ pid, s.receivedDue kind pid = true → Live s.host.procs pid
  tasks : ∀ slot pid, s.taskDue kind slot pid = true → Live s.host.procs pid

theorem start_dueLive (caps : ReplySlots) : (start caps : HostSystem Worker).DueLive kind :=
  ⟨fun _ due => (by cases due), fun _ _ due => (by cases due)⟩

namespace DueLive

/-- Tasks that go on or are over have at most the calls that they had. -/
theorem replace (live : s.DueLive kind) {next : Option HostTask} (tasks : s'.tasks = update s.tasks slot next)
    (reactor : s'.reactor = s.reactor)
    (kept : ∀ pid, (s.receivedDue kind pid = true ∨ ∃ other ≠ slot, s.taskDue kind other pid = true) →
      Live s.host.procs pid → Live s'.host.procs pid)
    (its : ∀ t, next = some t → kind.due t.request t.stage = true → Live s'.host.procs t.pid) : s'.DueLive kind := by
  refine ⟨fun pid due => ?_, fun other pid due => ?_⟩
  · rw [receivedDue, reactor] at due
    exact kept pid (.inl due) (live.received pid due)
  · cases there' : s'.tasks other with
    | none =>
      rw [taskDue_none there'] at due
      cases due
    | some task' =>
      rcases Sound.tasks_cases tasks there' with ⟨-, new⟩ | ⟨distinct, there⟩
      · obtain ⟨rfl, isDue⟩ := (taskDue_iff there').mp due
        exact its task' new isDue
      · rw [taskDue_congr (there'.trans there.symm)] at due
        exact kept pid (.inr ⟨other, distinct, due⟩) (live.tasks other pid due)

theorem advance (live : s.DueLive kind) {host : Processes} {stage : TaskStage}
    (kept : ∀ pid, (s.receivedDue kind pid = true ∨ ∃ other ≠ slot, s.taskDue kind other pid = true) →
      Live s.host.procs pid → Live host.procs pid)
    (its : kind.due task.request stage = true → Live host.procs task.pid) :
    DueLive kind ({ s with host }.advance slot task stage) :=
  live.replace rfl rfl kept (by rintro _ ⟨⟩; exact its)

/-- Nobody ends, and there are no new calls. -/
theorem mono (live : s.DueLive kind) (procs : s'.host.procs = s.host.procs)
    (received : ∀ pid, s'.receivedDue kind pid = true → s.receivedDue kind pid = true)
    (tasks : ∀ slot pid, s'.taskDue kind slot pid = true → s.taskDue kind slot pid = true) : s'.DueLive kind := by
  refine ⟨fun pid due => ?_, fun slot pid due => ?_⟩
  · rw [procs]
    exact live.received pid (received pid due)
  · rw [procs]
    exact live.tasks slot pid (tasks slot pid due)

/-- A call that is due is under way, with another slot than a task that acts. -/
theorem called (due : s.receivedDue kind pid = true ∨ ∃ other ≠ slot, s.taskDue kind other pid = true)
    (sound : s.Sound) (there : s.tasks slot = some task) : ∃ other, other ≠ slot ∧ s.Called other pid := by
  rcases due with due | ⟨other, distinct, due⟩
  · unfold receivedDue at due
    split at due
    · rename_i slot' sender request received
      have isPid : sender = pid := (of_decide_eq_true due).1
      refine ⟨slot', ?_, .inr ⟨request, by rw [received, isPid]⟩⟩
      rintro rfl
      exact sound.not_reactor there (by rw [received]; rfl)
    · cases due
  · cases there' : s.tasks other with
    | none =>
      rw [taskDue_none there'] at due
      cases due
    | some task' =>
      obtain ⟨isPid, isDue⟩ := (taskDue_iff there').mp due
      refine ⟨other, distinct, .inl ⟨task', there', isPid, ?_⟩⟩
      intro sent
      rw [sent, kind.not_sent] at isDue
      cases isDue

/-- What a kill with a positive target has to keep to. -/
theorem not_hasDue {thread : Option Worker} {answers : Answers} {target : Nat}
    (ok : s.spares kind (.act thread answers) = true) (polls : s.polling thread = some slot)
    (there : s.tasks slot = some task) (request : task.request = .kill target) (positive : 0 < target) :
    s.hasDue kind target slot = false := by
  simp only [spares, polls, there, request] at ok
  simpa [Nat.ne_of_gt positive] using ok

/-- A call that acts spares the processes with other calls that are due. -/
theorem act_kept {thread : Option Worker} {answers : Answers} {host : Processes} {result : Option SyscallResult}
    (sound : s.Sound) (ok : s.spares kind (.act thread answers) = true) (polls : s.polling thread = some slot)
    (there : s.tasks slot = some task) (stage : task.stage = .looked ∨ task.stage = .faulted)
    (done : s.host.act slot task answers = (host, result)) (pid : Nat)
    (due : s.receivedDue kind pid = true ∨ ∃ other ≠ slot, s.taskDue kind other pid = true)
    (live : Live s.host.procs pid) : Live host.procs pid := by
  obtain ⟨other, distinct, call⟩ := called due sound there
  refine Processes.act_live sound.host.named live (fun _ isPid => ?_) (fun isKill => ?_) done
  · -- Its own process has no other call.
    have own := Sound.called there (Sound.acting stage).1
    rw [isPid] at own
    exact distinct (sound.host.answered.one _ _ _ call own)
  · have positive : 0 < pid := by
      obtain ⟨i, isPid, alive⟩ := live
      have := sound.host.named.parent_lt i alive.used
      omega
    have spared := not_hasDue ok polls there isKill positive
    unfold hasDue at spared
    rcases due with due | ⟨other, distinct, due⟩
    · rw [due] at spared
      cases spared
    · have mine : other ∈ s.host.pool.all := by
        have used : s.held other ≠ 0 := by
          cases there' : s.tasks other with
          | none =>
            rw [taskDue_none there'] at due
            cases due
          | some task' => simp [held, there']
        refine (sound.host.owned.in_use ?_ (Nat.add_pos_left (Nat.pos_of_ne_zero used) _)).1
        rintro rfl
        exact used sound.host.owned.unheld
      have := List.any_eq_false.mp (Bool.or_eq_false_iff.mp spared).2 other mine
      simp [distinct, due] at this

/-- The reactor receives a call of a process that sends one, and has not ended. -/
theorem recv {request : Request} (live : s.DueLive kind) (sound : s.Sound)
    (sending : s.host.threads pid = .sending request) :
    DueLive kind { s with
      host := { s.host with threads := update s.host.threads pid (.awaiting slot) }
      reactor := .received slot pid request } := by
  refine ⟨fun other due => ?_, live.tasks⟩
  have isPid : pid = other := (of_decide_eq_true due).1
  subst isPid
  rcases sound.host.answered.alive pid (by rw [sending]; exact Thread.noConfusion) with alive | ⟨slot', is, -⟩
  · exact alive
  · cases sending.symm.trans is

theorem spawn {request : Request} (live : s.DueLive kind) (received : s.reactor = .received slot pid request) :
    DueLive kind
      { s.setTask slot (some { pid, request, stage := .spawned, polled := false }) with reactor := .idle } := by
  refine ⟨fun other due => (by cases due), fun other pid' due => ?_⟩
  by_cases here : other = slot
  · subst here
    have isDue := (taskDue_iff (update_self ..)).mp due
    exact live.received pid' (by simp only [receivedDue, received]; exact decide_eq_true isDue)
  · exact live.tasks other pid' ((taskDue_congr (update_of_ne here ..)).symm.trans due)

/-- A task is taken up or left, with what it is for. -/
theorem setPolled (there : s.tasks slot = some task) (polled : Bool) (other pid : Nat) :
    (s.setTask slot (some { task with polled })).taskDue kind other pid = s.taskDue kind other pid := by
  by_cases here : other = slot
  · subst here
    have there' : (s.setTask other (some { task with polled })).tasks other = some { task with polled } :=
      update_self ..
    rw [taskDue, taskDue, there, there']
  · exact taskDue_congr (update_of_ne here ..)

/-- Every move that spares such calls keeps it. -/
theorem step [DecidableEq Worker] {move : HostMove Worker} (live : s.DueLive kind) (sound : s.Sound)
    (taken : s.step move = some s') (ok : s.spares kind move = true) : s'.DueLive kind := by
  obtain ⟨-, stepped⟩ := stepped_of_step taken
  cases stepped with
  | call running => exact live.mono rfl (fun _ => id) fun _ _ => id
  | exhausted => exact live.mono rfl (fun _ => id) fun _ _ => id
  | acquire => exact live.mono rfl (fun _ due => (by cases due)) fun _ _ => id
  | recv holding sending => exact live.recv sound sending
  | recvOther => exact live.mono Processes.release_procs (fun _ due => (by cases due)) fun _ _ => id
  | spawn received => exact live.spawn received
  | poll idle there =>
    exact live.mono rfl (fun _ => id) fun other pid due => (setPolled there true other pid).symm.trans due
  | rest polls there =>
    exact live.mono rfl (fun _ => id) fun other pid due => (setPolled there false other pid).symm.trans due
  | lost => exact live.mono rfl (fun _ => id) fun _ _ => id
  | @look thread slot task i polls there spawned found =>
    refine live.advance (fun _ _ => id) fun due => live.tasks slot task.pid ((taskDue_iff there).mpr ⟨rfl, ?_⟩)
    rw [spawned]
    exact kind.of_looked _ due
  | @acted thread answers slot task host result polls there stage done =>
    have kept := act_kept sound ok polls there stage done
    rcases result with _ | ret | _ | _
    · refine live.advance kept fun due => ?_
      obtain rfl := Processes.act_none done
      refine live.tasks slot task.pid ((taskDue_iff there).mpr ⟨rfl, ?_⟩)
      rcases stage with is | is <;> rw [is]
      · exact kind.of_faulted _ due
      · exact due
    · refine live.advance kept fun due => ?_
      rw [kind.not_returned] at due
      cases due
    · refine live.advance kept fun due => ?_
      rw [kind.not_answering] at due
      cases due
    · exact live.replace rfl rfl kept (by simp)
  | check polls there =>
    refine live.advance (fun _ _ => id) fun due => ?_
    rw [kind.not_answering] at due
    cases due
  | send polls there =>
    refine live.advance (fun _ _ => id) fun due => ?_
    rw [kind.not_sent] at due
    cases due
  | release =>
    refine live.replace rfl rfl (fun pid _ => ?_) (by simp)
    show _ → Live (s.host.release _).procs pid
    rw [Processes.release_procs]
    exact id

end DueLive

section Halts

variable [DecidableEq Worker]

/-- The ways in which the host can stop. -/
theorem halted_of_step {move : HostMove Worker} (sound : s.Sound) (taken : s.step move = some s') :
    s'.host.halted = none ∨ s'.host.halted = some .initEnded ∨
    (s'.host.halted = some .outOfReplyCaps ∧ s.reactor = .idle ∧ s.polling none = none ∧ s.host.pool.free = []) ∨
    (s'.host.halted = some .unknownPid ∧
      ∃ slot task, s.tasks slot = some task ∧ task.stage = .spawned ∧ s.host.findProc task.pid = none) := by
  obtain ⟨going, stepped⟩ := stepped_of_step taken
  cases stepped with
  | call | acquire | recv | spawn | poll | rest | look | check | send => exact .inl going
  | exhausted idle main empty =>
    refine .inr (.inr (.inl ⟨?_, idle, main, empty⟩))
    show s.host.halted.or _ = _
    rw [going]
    rfl
  | @recvOther slot holding =>
    have its : s.reactor.slot = some slot := by rw [holding]; rfl
    have free := sound.no_task its
    exact .inl ((sound.host.release (by simp [held, its]) (by simp [Called, free, holding])).1.trans going)
  | lost polls there spawned unknown =>
    refine .inr (.inr (.inr ⟨?_, _, _, there, spawned, unknown⟩))
    show s.host.halted.or _ = _
    rw [going]
    rfl
  | acted polls there stage done =>
    rw [settle_host]
    rcases (sound.host.act (Sound.called there (Sound.acting stage).1) done).1 with same | ended
    · exact .inl (same.trans going)
    · rw [going] at ended
      exact .inr (.inl ended)
  | @release thread slot task polls there stage =>
    have used : s.held slot ≠ 0 := by simp [held, there]
    exact .inl ((sound.host.release used (sound.not_called there stage)).1.trans going)

end Halts

end HostSystem

/-- The calls that have been received, and whose process has not been looked up yet. -/
def DueKind.unseen : DueKind where
  due _ stage := stage = .spawned
  of_looked _ due := by cases due
  of_faulted _ due := by cases due
  not_returned _ _ := rfl
  not_answering _ _ := rfl
  not_sent _ := rfl

namespace HostSystem

/-- If no kill hits a process with a message that was received and not looked at yet, then the process of a
message is always found. -/
theorem sender_found {Worker : Type} [DecidableEq Worker] {caps : ReplySlots} {s : HostSystem Worker}
    (run : Run step (fun s move => s.spares .unseen move = true) (start caps) s) :
    s.host.halted ≠ some .unknownPid := by
  refine (run.keeps (fun s => (s.Sound ∧ s.DueLive .unseen) ∧ s.host.halted ≠ some .unknownPid)
    ⟨⟨start_sound caps, start_dueLive caps⟩, fun halted => (by cases halted)⟩ ?_).2
  rintro s move s' ⟨⟨sound, live⟩, -⟩ taken ok
  refine ⟨⟨sound.step taken, live.step sound taken ok⟩, fun unknown => ?_⟩
  rcases halted_of_step sound taken with halted | halted | ⟨halted, -⟩ | ⟨-, slot, task, there, spawned, lost⟩
  · cases unknown.symm.trans halted
  · cases unknown.symm.trans halted
  · cases unknown.symm.trans halted
  · -- The process has not ended, so that its entry is found.
    obtain ⟨i, isPid, alive⟩ := live.tasks slot task.pid ((taskDue_iff there).mpr ⟨rfl, by rw [spawned]; rfl⟩)
    exact Processes.findProc_none lost i alive.used isPid

/--
However calls alternate, processes have different identifiers; one that waits for an answer has a call
that serves it, or is blocked until a child ends, never both; and no two wait with one reply slot.
-/
theorem answers_reach_callers {Worker : Type} [DecidableEq Worker] {caps : ReplySlots} {s : HostSystem Worker}
    (run : Run step (fun _ _ => True) (start caps) s) :
    (∀ i j, (s.host.procs i).state ≠ .unused → (s.host.procs j).state ≠ .unused →
      (s.host.procs i).pid = (s.host.procs j).pid → i = j) ∧
    (∀ pid slot, s.host.threads pid = .awaiting slot →
      Xor (s.Called slot pid) (∃ i, (s.host.procs i).pid = pid ∧ (s.host.procs i).state = .waiting ∧
        (s.host.procs i).waitReplySlot = slot)) ∧
    ∀ pid pid' slot, s.host.threads pid = .awaiting slot → s.host.threads pid' = .awaiting slot → pid = pid' := by
  obtain ⟨named, owned, answered⟩ :=
    (run.keeps Sound (start_sound caps) fun _ _ _ sound taken _ => sound.step taken).host
  have apart {slot pid} (call : s.Called slot pid) := owned.not_blocked (answered.has slot pid call)
  refine ⟨named.inj, fun pid slot awaits => ?_, fun pid pid' slot awaits awaits' => ?_⟩
  · rcases answered.awaited pid slot awaits with call | blocked
    · exact .inl ⟨call, fun ⟨i, _, _, isSlot⟩ => apart call i isSlot⟩
    · exact .inr ⟨blocked, fun call => blocked.elim fun i ⟨_, _, isSlot⟩ => apart call i isSlot⟩
  · rcases answered.awaited pid slot awaits with call | ⟨i, rfl, waits, rfl⟩ <;>
      rcases answered.awaited pid' _ awaits' with call' | ⟨j, rfl, -, isSlot⟩
    · exact answered.same slot pid pid' call call'
    · exact absurd isSlot (apart call j)
    · exact absurd rfl (apart call' i)
    · rw [(owned.alone ((owned.blocked i).mpr waits)).2 j isSlot]

section Sample

/-- The slots that the allocator gives out first. -/
def sampleSlots : ReplySlots where
  slots := List.range' 1 maxFaultReplyCaps
  length_eq := List.length_range' ..
  nodup := List.nodup_range' ..
  nonzero := by decide

/-- There is room for another process, and every address can be written. -/
def sampleAnswers : Answers where
  copies _ _ := true
  room := .enough
  handled := false
  ret := 0

/-- A process asks for something, and a task is made for it. -/
def asks (pid : Nat) (request : Request) : List (HostMove (Fin numWorkerThreads)) :=
  [.acquire, .call pid request, .recv pid, .spawn]

/-- A thread carries a call out as far as its section. -/
def carries (thread : Option (Fin numWorkerThreads)) (slot : Nat) : List (HostMove (Fin numWorkerThreads)) :=
  [.poll thread slot, .look thread, .act thread sampleAnswers]

/-- A thread answers a call and gives the slot back. -/
def finishes (thread : Option (Fin numWorkerThreads)) : List (HostMove (Fin numWorkerThreads)) :=
  [.check thread, .send thread, .release thread]

/-- `init` forks twice. -/
def twoChildren : List (HostMove (Fin numWorkerThreads)) :=
  asks 1 .fork ++ carries none 72 ++ finishes none ++ asks 1 .fork ++ carries none 72 ++ finishes none

/-- `init` waits; one child is to kill the other, which has just called itself. -/
def killedUnseen : List (HostMove (Fin numWorkerThreads)) :=
  twoChildren ++ asks 1 (.wait4 (-1) 0 false) ++ carries none 72 ++ asks 3 (.kill 2) ++ asks 2 .other ++
    carries none 71 ++ finishes none ++ [.poll none 70, .look none]

theorem killedUnseen_made : (moves step (start sampleSlots) killedUnseen).isSome = true := by decide +kernel

/-- The killed child is reaped before its task first runs, which does not find it. -/
theorem reaped_sender_halts : ∃ s : HostSystem (Fin numWorkerThreads),
    Run step (fun _ _ => True) (start sampleSlots) s ∧ s.host.halted = some .unknownPid :=
  ⟨_, Run.start.of_moves _ (Option.some_get killedUnseen_made).symm, by decide +kernel⟩

/-- The child has not called yet when it is killed. -/
def killedIdle : List (HostMove (Fin numWorkerThreads)) :=
  twoChildren ++ asks 1 (.wait4 (-1) 0 false) ++ carries none 72 ++ asks 3 (.kill 2) ++ carries none 71 ++
    finishes none ++ asks 1 .other ++ carries none 71

theorem killedIdle_made :
    (moves (guarded step (spares .unseen)) (start sampleSlots) killedIdle).isSome = true := by decide +kernel

theorem sender_found_sample : ∃ s : HostSystem (Fin numWorkerThreads),
    Run step (fun s move => s.spares .unseen move = true) (start sampleSlots) s ∧
      s.host.reaps = [{ waiter := 1, pid := 2, status := 256 }] ∧ s.host.halted ≠ some .unknownPid := by
  have run := Run.of_guarded .start _ (Option.some_get killedIdle_made).symm
  exact ⟨_, run, by decide +kernel, sender_found run⟩

theorem answers_reach_callers_sample : ∃ s : HostSystem (Fin numWorkerThreads),
    s.host.threads 1 = .awaiting 71 ∧ ∀ pid, s.host.threads pid = .awaiting 71 → pid = 1 := by
  have run := Run.of_guarded .start _ (Option.some_get killedIdle_made).symm
  exact ⟨_, by decide +kernel, fun pid awaits =>
    (answers_reach_callers (run.mono fun _ _ _ => trivial)).2.2 pid 1 71 awaits (by decide +kernel)⟩

end Sample

end HostSystem

end Rel4.Host
