import Rel4.Lib.Interleave
import Rel4.Proof.ProcessCalls

/-! What holds of the host in every run, whatever the processes ask for and however the threads alternate. -/

namespace Rel4.Host.HostSystem

open Lib
open Function (update update_of_ne update_self)

variable {Worker : Type}

section Effects

variable [DecidableEq Worker] (s : HostSystem Worker)

/-- A task goes on. -/
def advance (slot : Nat) (task : HostTask) (stage : TaskStage) : HostSystem Worker :=
  s.setTask slot (some { task with stage })

/-- A task whose call has been carried out is to answer, to kill its process, or over as the process waits. -/
def settle (thread : Option Worker) (slot : Nat) (task : HostTask) : Option SyscallResult → HostSystem Worker
  | none => s.advance slot task .faulted
  | some (.reply ret) => s.advance slot task (.returned ret)
  | some .stop => s.advance slot task (.answering false)
  | some .block => s.dropTask thread slot

theorem settle_host (thread : Option Worker) (slot : Nat) (task : HostTask) (result : Option SyscallResult) :
    (s.settle thread slot task result).host = s.host := by
  unfold settle
  split <;> rfl

/-- What a move does, one case for each way it can end. -/
inductive Stepped : HostMove Worker → HostSystem Worker → Prop
  | call {pid : Nat} {request : Request} (running : s.host.threads pid = .running) :
    Stepped (.call pid request)
      { s with host := { s.host with threads := Function.update s.host.threads pid (.sending request) } }
  | exhausted (idle : s.reactor = .idle) (main : s.polling none = none) (empty : s.host.pool.free = []) :
    Stepped .acquire { s with host := s.host.halt .outOfReplyCaps }
  | acquire {slot : Nat} {free : List Nat} (idle : s.reactor = .idle) (main : s.polling none = none)
    (first : s.host.pool.free = slot :: free) :
    Stepped .acquire
      { s with host := { s.host with pool := { s.host.pool with free } }, reactor := .holding slot }
  | recv {slot pid : Nat} {request : Request} (holding : s.reactor = .holding slot)
    (sending : s.host.threads pid = .sending request) :
    Stepped (.recv pid)
      { s with
        host := { s.host with threads := Function.update s.host.threads pid (.awaiting slot) }
        reactor := .received slot pid request }
  | recvOther {slot : Nat} (holding : s.reactor = .holding slot) :
    Stepped .recvOther { s with host := s.host.release slot, reactor := .idle }
  | spawn {slot pid : Nat} {request : Request} (received : s.reactor = .received slot pid request) :
    Stepped .spawn
      { s.setTask slot (some { pid, request, stage := .spawned, polled := false }) with reactor := .idle }
  | poll {thread : Option Worker} {slot : Nat} {task : HostTask} (idle : s.polling thread = none)
    (there : s.tasks slot = some task) (unpolled : task.polled = false)
    (main : thread = none → s.reactor = .idle) :
    Stepped (.poll thread slot)
      ((s.setTask slot (some { task with polled := true })).setPolling thread (some slot))
  | rest {thread : Option Worker} {slot : Nat} {task : HostTask} (polls : s.polling thread = some slot)
    (there : s.tasks slot = some task) (waits : task.stage.waits = true) :
    Stepped (.rest thread) ((s.setTask slot (some { task with polled := false })).setPolling thread none)
  | lost {thread : Option Worker} {slot : Nat} {task : HostTask} (polls : s.polling thread = some slot)
    (there : s.tasks slot = some task) (spawned : task.stage = .spawned)
    (unknown : s.host.findProc task.pid = none) :
    Stepped (.look thread) { s with host := s.host.halt .unknownPid }
  | look {thread : Option Worker} {slot : Nat} {task : HostTask} {i : Fin maxProcs}
    (polls : s.polling thread = some slot) (there : s.tasks slot = some task) (spawned : task.stage = .spawned)
    (found : s.host.findProc task.pid = some i) : Stepped (.look thread) (s.advance slot task .looked)
  | acted {thread : Option Worker} {answers : Answers} {slot : Nat} {task : HostTask} {host : Processes}
    {result : Option SyscallResult} (polls : s.polling thread = some slot) (there : s.tasks slot = some task)
    (stage : task.stage = .looked ∨ task.stage = .faulted)
    (done : s.host.act slot task answers = (host, result)) :
    Stepped (.act thread answers) ({ s with host }.settle thread slot task result)
  | check {thread : Option Worker} {slot : Nat} {task : HostTask} {ret : Int} (polls : s.polling thread = some slot)
    (there : s.tasks slot = some task) (stage : task.stage = .returned ret) :
    Stepped (.check thread) (s.advance slot task (.answering (s.host.processCanReply task.pid)))
  | send {thread : Option Worker} {slot : Nat} {task : HostTask} {ok : Bool} (polls : s.polling thread = some slot)
    (there : s.tasks slot = some task) (stage : task.stage = .answering ok) :
    Stepped (.send thread) ({ s with host := s.host.send slot ok }.advance slot task .sent)
  | release {thread : Option Worker} {slot : Nat} {task : HostTask} (polls : s.polling thread = some slot)
    (there : s.tasks slot = some task) (stage : task.stage = .sent) :
    Stepped (.release thread) ({ s with host := s.host.release slot }.dropTask thread slot)

variable {s} {s' : HostSystem Worker} {move : HostMove Worker}

omit [DecidableEq Worker] in
/-- A thread moves the task that it polls. -/
theorem onTask_eq_some {thread : Option Worker} {f : Nat → HostTask → Option (HostSystem Worker)}
    (taken : s.onTask thread f = some s') :
    ∃ slot task, s.polling thread = some slot ∧ s.tasks slot = some task ∧ f slot task = some s' := by
  unfold onTask at taken
  split at taken
  · cases taken
  · rename_i slot polls
    split at taken
    · cases taken
    · rename_i task there
      exact ⟨slot, task, polls, there, taken⟩

/-- Every move is one of the cases, and the host has not stopped before it. -/
theorem stepped_of_step (taken : s.step move = some s') : s.host.halted = none ∧ s.Stepped move s' := by
  unfold step at taken
  split at taken
  · cases taken
  · rename_i going
    refine ⟨not_not.mp going, ?_⟩
    cases move with
    | call pid request =>
      dsimp only at taken
      split at taken <;> cases taken
      rename_i running
      exact .call running
    | acquire =>
      dsimp only at taken
      split at taken
      · rename_i idle
        unfold Processes.acquire at taken
        cases free : s.host.pool.free with
        | nil =>
          rw [free] at taken
          cases taken
          exact .exhausted idle.1 idle.2 free
        | cons slot rest =>
          rw [free] at taken
          cases taken
          exact .acquire idle.1 idle.2 free
      · cases taken
    | recv pid =>
      dsimp only at taken
      split at taken <;> cases taken
      rename_i holding sending
      exact .recv holding sending
    | recvOther =>
      dsimp only at taken
      split at taken <;> cases taken
      rename_i holding
      exact .recvOther holding
    | spawn =>
      dsimp only at taken
      split at taken <;> cases taken
      rename_i received
      exact .spawn received
    | poll thread slot =>
      dsimp only at taken
      split at taken
      · rename_i task idle there
        split at taken <;> cases taken
        rename_i ready
        exact .poll idle there ready.1 ready.2
      · cases taken
    | rest thread =>
      obtain ⟨slot, task, polls, there, taken⟩ := onTask_eq_some taken
      split at taken <;> cases taken
      rename_i waits
      exact .rest polls there waits
    | look thread =>
      obtain ⟨slot, task, polls, there, taken⟩ := onTask_eq_some taken
      split at taken
      · rename_i spawned
        split at taken <;> cases taken
        · rename_i unknown
          exact .lost polls there spawned unknown
        · rename_i i found
          exact .look polls there spawned found
      · cases taken
    | act thread answers =>
      obtain ⟨slot, task, polls, there, taken⟩ := onTask_eq_some taken
      split at taken
      · rename_i stage
        split at taken <;> cases taken <;> rename_i done
        all_goals
          have acted := Stepped.acted polls there stage done
          exact acted
      · cases taken
    | check thread =>
      obtain ⟨slot, task, polls, there, taken⟩ := onTask_eq_some taken
      split at taken <;> cases taken
      rename_i stage
      exact .check polls there stage
    | send thread =>
      obtain ⟨slot, task, polls, there, taken⟩ := onTask_eq_some taken
      split at taken <;> cases taken
      rename_i stage
      exact .send polls there stage
    | release thread =>
      obtain ⟨slot, task, polls, there, taken⟩ := onTask_eq_some taken
      split at taken <;> cases taken
      rename_i stage
      exact .release polls there stage

end Effects

section Sound

variable (s : HostSystem Worker)

/-- How many hold a slot for a call: a task, or the reactor. -/
def held (slot : Nat) : Nat :=
  (if (s.tasks slot).isSome then 1 else 0) + if s.reactor.slot = some slot then 1 else 0

/-- A call of a process is under way with a slot, and is not answered yet. -/
def Called (slot pid : Nat) : Prop :=
  (∃ task, s.tasks slot = some task ∧ task.pid = pid ∧ task.stage ≠ .sent) ∨
    ∃ request, s.reactor = .received slot pid request

/-- The call with a slot is about to stop its process. -/
def Quits (slot : Nat) : Prop := ∃ task, s.tasks slot = some task ∧ task.stage = .answering false

/-- The table is consistent with the calls under way, and every task that cannot wait any more is polled. -/
structure Sound : Prop where
  host : s.host.Consistent s.held s.Called s.Quits
  jobs : Exclusive s.polling fun slot => ∃ task, s.tasks slot = some task ∧ task.polled = true
  polled : ∀ slot task, s.tasks slot = some task → task.polled = true → ∃ thread, s.polling thread = some slot
  going : ∀ slot task, s.tasks slot = some task → task.stage.waits = false → task.stage ≠ .spawned →
    task.polled = true
  main : s.reactor ≠ .idle → s.polling none = none

variable {s} {s' : HostSystem Worker} {slot pid : Nat} {task : HostTask}

theorem start_named (caps : ReplySlots) : Named (Processes.start caps).procs (Processes.start caps).nextPid := by
  dsimp only [Processes.start]
  refine ⟨Nat.le_refl 2, fun i => ?_, fun i => ?_, fun i j => ?_⟩
  · exact update_elim i (fun _ => Nat.lt_succ_self 1) fun _ _ used => absurd rfl used
  · exact update_elim i (fun _ => Nat.one_pos) fun _ _ used => absurd rfl used
  · refine update_elim i ?_ fun _ _ used => absurd rfl used
    exact update_elim j (fun _ _ _ => rfl) fun _ _ _ used => absurd rfl used

theorem start_owned (caps : ReplySlots) :
    Owned (Processes.start caps).pool (Processes.start caps).procs fun _ => 0 := by
  have clear (i : Fin maxProcs) : ((Processes.start caps).procs i).waitReplySlot = 0 ∧
      ((Processes.start caps).procs i).state ≠ .waiting := by
    dsimp only [Processes.start]
    exact update_elim i (by decide) fun _ _ => by decide
  refine ⟨caps.length_eq, caps.nodup, caps.nonzero, fun zero => caps.nonzero (List.mem_reverse.mp zero), rfl,
    fun slot nonzero => ?_, fun i => ?_⟩
  · have none : waits (Processes.start caps).procs slot = 0 := by
      refine List.countP_eq_zero.mpr fun i _ => ?_
      simp [TaskStruct.hasSlot, (clear i).1, Ne.symm nonzero]
    show caps.slots.reverse.count slot + 0 + _ = _
    rw [none, List.count_reverse, caps.nodup.count]
    rfl
  · exact ⟨fun some => absurd (clear i).1 some, fun waiting => absurd waiting (clear i).2⟩

theorem start_answered (caps : ReplySlots) {calls : Nat → Nat → Prop} {quits : Nat → Prop}
    (idle : ∀ slot pid, ¬ calls slot pid) :
    Answered (Processes.start caps).threads (Processes.start caps).procs (Processes.start caps).nextPid (fun _ => 0)
      calls quits := by
  dsimp only [Processes.start]
  refine ⟨fun a b call => absurd call (idle a b), fun a b c call => absurd call (idle a c),
    fun a b c call => absurd call (idle a b), fun a b call => absurd call (idle a b),
    fun a b call => absurd call (idle a b), fun a b i call => absurd call (idle a b), fun i => ?_,
    fun pid => ?_, fun pid slot => ?_, fun pid => ?_⟩
  · exact update_elim i (fun waiting => by cases waiting) fun _ _ waiting => by cases waiting
  · exact update_elim pid (fun young => absurd young (by decide)) fun _ _ _ => rfl
  · exact update_elim pid (fun is => by cases is) fun _ _ is => by cases is
  · refine update_elim pid (fun _ => .inl ⟨⟨0, by decide⟩, ?_⟩) fun _ _ awake => absurd rfl awake
    rw [update_self]
    exact ⟨rfl, .inl rfl⟩

theorem start_sound (caps : ReplySlots) : (start caps : HostSystem Worker).Sound := by
  have idle (slot pid : Nat) : ¬ (start caps : HostSystem Worker).Called slot pid := by
    rintro (⟨task, there, -⟩ | ⟨request, received⟩)
    · cases there
    · cases received
  refine ⟨⟨start_named caps, start_owned caps, start_answered caps idle⟩, ?_, ?_, ?_, fun busy => absurd rfl busy⟩
  · exact ⟨fun thread job polls => (by cases polls), fun thread other job polls => (by cases polls)⟩
  · intro slot task there
    cases there
  · intro slot task there
    cases there

namespace Sound

section

variable (sound : s.Sound)
include sound

/-- A slot is held for one call at most. -/
theorem held_le (slot : Nat) : s.held slot ≤ 1 := by
  by_cases zero : slot = 0
  · rw [zero, sound.host.owned.unheld]
    exact Nat.zero_le 1
  · have := sound.host.owned.owners slot zero
    split at this <;> omega

/-- The reactor does not have the slot of a task. -/
theorem not_reactor (there : s.tasks slot = some task) : s.reactor.slot ≠ some slot := by
  intro its
  have := sound.held_le slot
  simp [held, there, its] at this

theorem no_task (its : s.reactor.slot = some slot) : s.tasks slot = none := by
  cases there : s.tasks slot with
  | none => rfl
  | some task => exact absurd its (sound.not_reactor there)

/-- A thread that polls a task is the one that its mark is about. -/
theorem is_polled {thread : Option Worker} (polls : s.polling thread = some slot)
    (there : s.tasks slot = some task) : task.polled = true := by
  obtain ⟨task', there', polled⟩ := sound.jobs.marked thread slot polls
  cases there.symm.trans there'
  exact polled

end

section Calls

variable {next : Option HostTask} (tasks : s'.tasks = Function.update s.tasks slot next) (reactor : s'.reactor = s.reactor)
include tasks

theorem tasks_cases {other : Nat} {task' : HostTask} (there' : s'.tasks other = some task') :
    other = slot ∧ next = some task' ∨ other ≠ slot ∧ s.tasks other = some task' := by
  rw [tasks] at there'
  revert there'
  exact update_elim other (fun new => .inl ⟨rfl, new⟩) fun _ distinct there' => .inr ⟨distinct, there'⟩

theorem tasks_other {other : Nat} {task' : HostTask} (there' : s.tasks other = some task') (distinct : other ≠ slot) :
    s'.tasks other = some task' := by
  rwa [tasks, update_of_ne distinct]

/-- A thread takes up, keeps or leaves the task at a slot, and no other thread has to do with it. -/
theorem turn {thread : Option Worker} (sound : s.Sound) (same : s'.reactor = s.reactor)
    (others : ∀ other, other ≠ thread → s'.polling other = s.polling other)
    (alone : ∀ other, other ≠ thread → s.polling other ≠ some slot)
    (mine : ∀ other, s.polling thread = some other → other = slot)
    (fits : s'.polling thread = none ∧ (∀ t, next = some t → t.polled = false) ∨
      s'.polling thread = some slot ∧ (∃ t, next = some t ∧ t.polled = true) ∧
        (thread = none → s.polling none = some slot ∨ s.reactor = .idle))
    (going : ∀ t, next = some t → t.stage.waits = false → t.stage ≠ .spawned → t.polled = true)
    (ok : s'.host.Consistent s'.held s'.Called s'.Quits) : s'.Sound := by
  refine ⟨ok, ?_, ?_, ?_, fun busy => ?_⟩
  · refine sound.jobs.turn thread slot others alone (fits.imp And.left ?_) ?_
    · rintro ⟨is, ⟨t, new, polled⟩, -⟩
      exact ⟨is, t, by rw [tasks, update_self, new], polled⟩
    · rintro other distinct ⟨task', there', polled'⟩
      exact ⟨task', tasks_other tasks there' distinct, polled'⟩
  · intro other task' there' polled'
    rcases tasks_cases tasks there' with ⟨rfl, new⟩ | ⟨distinct, there'⟩
    · rcases fits with ⟨-, unpolled⟩ | ⟨is, -⟩
      · cases (unpolled task' new).symm.trans polled'
      · exact ⟨thread, is⟩
    · obtain ⟨thread', polls'⟩ := sound.polled other task' there' polled'
      refine ⟨thread', (others thread' ?_).trans polls'⟩
      rintro rfl
      exact distinct (mine other polls')
  · intro other task' there'
    rcases tasks_cases tasks there' with ⟨-, new⟩ | ⟨-, there'⟩
    · exact going task' new
    · exact sound.going other task' there'
  · rw [same] at busy
    have free := sound.main busy
    by_cases here : none = thread
    · subst here
      rcases fits with ⟨is, -⟩ | ⟨-, -, idle⟩
      · exact is
      · rcases idle rfl with polls | idle
        · cases free.symm.trans polls
        · exact absurd idle busy
    · exact (others none here).trans free

theorem quits (there : s.tasks slot = some task)
    (kept : task.stage = .answering false → ∃ t, next = some t ∧ t.stage = .answering false) (other : Nat)
    (quit : s.Quits other) : s'.Quits other := by
  obtain ⟨task', there', stage'⟩ := quit
  by_cases here : other = slot
  · subst here
    cases there.symm.trans there'
    obtain ⟨t, new, stage⟩ := kept stage'
    exact ⟨t, by rw [tasks, update_self, new], stage⟩
  · exact ⟨task', tasks_other tasks there' here, stage'⟩

include reactor

theorem held_some {task' : HostTask} (new : next = some task') (there : s.tasks slot = some task) (other : Nat) :
    s'.held other = s.held other := by
  unfold held
  rw [tasks, reactor]
  exact update_elim other (by rw [new, there]; rfl) fun _ _ => rfl

theorem held_none (new : next = none) (there : s.tasks slot = some task) (other : Nat) :
    s'.held other = update s.held slot (s.held slot - 1) other := by
  unfold held
  rw [tasks, reactor]
  by_cases here : other = slot
  · rw [here, update_self, update_self, new, there]
    simp
  · rw [update_of_ne here, update_of_ne here]

/-- A call goes on as long as its answer is not sent. -/
theorem called_some {task' : HostTask} (new : next = some task') (there : s.tasks slot = some task)
    (isPid : task'.pid = task.pid) (sent : task'.stage = .sent ↔ task.stage = .sent) (other pid : Nat) :
    s'.Called other pid ↔ s.Called other pid := by
  unfold Called
  rw [tasks, reactor]
  refine or_congr_left ?_
  exact update_elim other (by simp [new, there, isPid, sent]) fun _ _ => .rfl

/-- Once its answer is sent, a call is over. -/
theorem called_over (sound : s.Sound) (there : s.tasks slot = some task) (ended : ∀ t, next = some t → t.stage = .sent)
    (other pid : Nat) : s'.Called other pid ↔ s.Called other pid ∧ other ≠ slot := by
  unfold Called
  rw [tasks, reactor]
  by_cases here : other = slot
  · subst here
    have away (request) : s.reactor ≠ .received other pid request := fun its => sound.not_reactor there (by rw [its]; rfl)
    rw [update_self]
    simp only [away, exists_false, or_false, ne_eq, not_true_eq_false, and_false, iff_false]
    rintro ⟨t, new, -, unsent⟩
    exact unsent (ended t new)
  · rw [update_of_ne here]
    simp [here]

end Calls

section

variable {thread : Option Worker} {host : Processes} (sound : s.Sound) (polls : s.polling thread = some slot)
include sound polls

/-- A task that is polled goes on to another stage, and the table changes. -/
theorem advance {stage : TaskStage} (there : s.tasks slot = some task)
    (ok : host.Consistent ({ s with host }.advance slot task stage).held
      ({ s with host }.advance slot task stage).Called ({ s with host }.advance slot task stage).Quits) :
    ({ s with host }.advance slot task stage).Sound := by
  have polled := sound.is_polled polls there
  refine turn (s := s) rfl sound rfl (fun _ _ => rfl) (sound.jobs.mine polls) (fun other is => ?_)
    (.inr ⟨polls, ⟨_, rfl, polled⟩, fun isMain => .inl (isMain ▸ polls)⟩) ?_ ok
  · exact Option.some.inj (is.symm.trans polls)
  · rintro _ ⟨⟩ - -
    exact polled

/-- A task is over, and its thread is free. -/
theorem dropTask [DecidableEq Worker]
    (ok : host.Consistent ({ s with host }.dropTask thread slot).held ({ s with host }.dropTask thread slot).Called
      ({ s with host }.dropTask thread slot).Quits) : ({ s with host }.dropTask thread slot).Sound :=
  turn (s := s) rfl sound rfl (fun _ distinct => update_of_ne distinct ..) (sound.jobs.mine polls)
    (fun _ is => Option.some.inj (is.symm.trans polls)) (.inl ⟨update_self .., by simp⟩) (by simp) ok

end

section Steps

variable {thread : Option Worker} {request : Request}

section

variable (sound : s.Sound)
include sound

/-- The reactor changes, and no task does. -/
theorem setReactor {host : Processes} {reactor : Reactor} (main : reactor ≠ .idle → s.polling none = none)
    (ok : host.Consistent (held { s with host, reactor }) (Called { s with host, reactor })
      (Quits { s with host, reactor })) : Sound { s with host, reactor } :=
  { sound with host := ok, main }

theorem acquire {free : List Nat} (idle : s.reactor = .idle) (main : s.polling none = none)
    (first : s.host.pool.free = slot :: free) :
    Sound { s with host := { s.host with pool := { s.host.pool with free } }, reactor := .holding slot } := by
  refine sound.setReactor (fun _ => main) ((sound.host.acquire first).congr (fun other => ?_) (fun other pid => ?_)
    fun other quit => quit)
  · rw [held_more]
    simp [held, idle, Reactor.slot]
  · simp [Called, idle]

theorem recv (holding : s.reactor = .holding slot) (sending : s.host.threads pid = .sending request) :
    Sound { s with
      host := { s.host with threads := update s.host.threads pid (.awaiting slot) }
      reactor := .received slot pid request } := by
  have its : s.reactor.slot = some slot := by rw [holding]; rfl
  have free := sound.no_task its
  have new (pid' : Nat) : ¬ s.Called slot pid' := by simp [Called, free, holding]
  refine sound.setReactor (fun _ => sound.main (by rw [holding]; exact Reactor.noConfusion))
    ((sound.host.receive sending (by simp [held, its]) new).congr (fun other => ?_) (fun other pid' => ?_)
    fun other quit => quit)
  · simp [held, holding, Reactor.slot]
  · simp [Called, holding, eq_comm]

theorem recvOther (holding : s.reactor = .holding slot) :
    Sound { s with host := s.host.release slot, reactor := .idle } := by
  have its : s.reactor.slot = some slot := by rw [holding]; rfl
  have free := sound.no_task its
  have new (pid' : Nat) : ¬ s.Called slot pid' := by simp [Called, free, holding]
  refine sound.setReactor (fun busy => absurd rfl busy)
    ((sound.host.release (by simp [held, its]) new).2.congr (fun other => ?_) (fun other pid' => ?_)
    fun other quit => quit)
  · refine update_elim other ?_ fun other distinct => ?_
    · simp [held, holding, Reactor.slot]
    · simp [held, holding, Reactor.slot, Ne.symm distinct]
  · simp [Called, holding]

theorem spawn (received : s.reactor = .received slot pid request) :
    Sound { s.setTask slot (some { pid, request, stage := .spawned, polled := false }) with reactor := .idle } := by
  have its : s.reactor.slot = some slot := by rw [received]; rfl
  have free := sound.no_task its
  have on {other : Nat} {task' : HostTask} (there : s.tasks other = some task') : update s.tasks slot
      (some { pid, request, stage := .spawned, polled := false }) other = some task' := by
    rwa [update_of_ne]
    rintro rfl
    cases free.symm.trans there
  refine ⟨sound.host.congr (fun other => ?_) (fun other pid' => ?_) ?_, ?_, ?_, ?_, fun busy => absurd rfl busy⟩
  · show (if (update s.tasks slot _ other).isSome then 1 else 0) + 0 = _
    unfold held
    rw [its]
    exact update_elim other (by simp [free]) fun other distinct => by simp [Ne.symm distinct]
  · constructor
    · rintro (⟨task', there', isPid, unsent⟩ | ⟨request', received'⟩)
      · rcases tasks_cases (s := s) rfl there' with ⟨rfl, ⟨⟩⟩ | ⟨-, there'⟩
        · exact .inr ⟨request, by rw [received, ← isPid]⟩
        · exact .inl ⟨task', there', isPid, unsent⟩
      · cases received'
    · rintro (⟨task', there', isPid, unsent⟩ | ⟨request', received'⟩)
      · exact .inl ⟨task', on there', isPid, unsent⟩
      · cases received.symm.trans received'
        exact .inl ⟨_, update_self .., rfl, TaskStage.noConfusion⟩
  · rintro other ⟨task', there', stage⟩
    exact ⟨task', on there', stage⟩
  · refine sound.jobs.stay (fun _ => rfl) ?_
    rintro other ⟨task', there', polled⟩
    exact ⟨task', on there', polled⟩
  · intro other task' there' polled
    rcases tasks_cases (s := s) rfl there' with ⟨-, ⟨⟩⟩ | ⟨-, there'⟩
    · cases polled
    · exact sound.polled other task' there' polled
  · intro other task' there' stage spawned
    rcases tasks_cases (s := s) rfl there' with ⟨-, ⟨⟩⟩ | ⟨-, there'⟩
    · exact absurd rfl spawned
    · exact sound.going other task' there' stage spawned

/-- A task is taken up or left, which concerns its thread only. -/
theorem setPolled (there : s.tasks slot = some task) (polled : Bool) :
    s.host.Consistent (s.setTask slot (some { task with polled })).held
      (s.setTask slot (some { task with polled })).Called (s.setTask slot (some { task with polled })).Quits :=
  sound.host.congr (held_some rfl rfl rfl there) (called_some rfl rfl rfl there rfl .rfl)
    (quits rfl there fun quit => ⟨_, rfl, quit⟩)

theorem poll [DecidableEq Worker] (idle : s.polling thread = none) (there : s.tasks slot = some task)
    (unpolled : task.polled = false) (main : thread = none → s.reactor = .idle) :
    ((s.setTask slot (some { task with polled := true })).setPolling thread (some slot)).Sound := by
  refine turn (s := s) rfl sound rfl (fun _ distinct => update_of_ne distinct ..) (fun other _ polls => ?_)
    (fun other polls => ?_) (.inr ⟨update_self .., ⟨_, rfl, rfl⟩, fun isMain => .inr (main isMain)⟩) ?_
    (sound.setPolled there true)
  · cases unpolled.symm.trans (sound.is_polled polls there)
  · cases idle.symm.trans polls
  · rintro _ ⟨⟩ - -
    rfl

theorem rest [DecidableEq Worker] (polls : s.polling thread = some slot)
    (there : s.tasks slot = some task) (waits : task.stage.waits = true) :
    ((s.setTask slot (some { task with polled := false })).setPolling thread none).Sound := by
  refine turn (s := s) rfl sound rfl (fun _ distinct => update_of_ne distinct ..) (sound.jobs.mine polls)
    (fun _ is => Option.some.inj (is.symm.trans polls)) (.inl ⟨update_self .., ?_⟩) ?_ (sound.setPolled there false)
  · rintro _ ⟨⟩
    rfl
  · rintro _ ⟨⟩ stage -
    cases waits.symm.trans stage

end

/-- A call that a task polled now is about to carry out is under way. -/
theorem called (there : s.tasks slot = some task) (unsent : task.stage ≠ .sent) : s.Called slot task.pid :=
  .inl ⟨task, there, rfl, unsent⟩

/-- Once the answer is sent, no call is under way with the slot. -/
theorem not_called (sound : s.Sound) (there : s.tasks slot = some task) (sent : task.stage = .sent) (pid : Nat) :
    ¬ s.Called slot pid := by
  rintro (⟨task', there', -, unsent⟩ | ⟨request, received⟩)
  · cases there.symm.trans there'
    exact unsent sent
  · exact sound.not_reactor there (by rw [received]; rfl)

/-- A task that acts has neither sent anything nor decided to. -/
theorem acting (stage : task.stage = .looked ∨ task.stage = .faulted) :
    task.stage ≠ .sent ∧ task.stage ≠ .answering false := by
  rcases stage with is | is <;> rw [is] <;> exact ⟨TaskStage.noConfusion, TaskStage.noConfusion⟩

/-- Every move keeps it. -/
theorem step [DecidableEq Worker] {move : HostMove Worker} (sound : s.Sound) (taken : s.step move = some s') :
    s'.Sound := by
  obtain ⟨-, stepped⟩ := stepped_of_step taken
  cases stepped with
  | call running => exact { sound with host := sound.host.call running _ }
  | exhausted => exact { sound with host := ⟨sound.host.named, sound.host.owned, sound.host.answered⟩ }
  | acquire idle main first => exact sound.acquire idle main first
  | recv holding sending => exact sound.recv holding sending
  | recvOther holding => exact sound.recvOther holding
  | spawn received => exact sound.spawn received
  | poll idle there unpolled main => exact sound.poll idle there unpolled main
  | rest polls there waits => exact sound.rest polls there waits
  | lost => exact { sound with host := ⟨sound.host.named, sound.host.owned, sound.host.answered⟩ }
  | look polls there spawned found =>
    exact sound.advance polls there (sound.host.congr (held_some rfl rfl rfl there)
      (called_some rfl rfl rfl there rfl (by simp [spawned])) (quits rfl there (by simp [spawned])))
  | @acted thread answers slot task host result polls there stage done =>
    obtain ⟨unsent, unquit⟩ := acting stage
    have ok := (sound.host.act (called there unsent) done).2
    rcases result with _ | ret | _ | _
    · exact sound.advance polls there (ok.congr (held_some rfl rfl rfl there)
        (called_some rfl rfl rfl there rfl (by simp [unsent])) (quits rfl there (absurd · unquit)))
    · exact sound.advance polls there (ok.congr (held_some rfl rfl rfl there)
        (called_some rfl rfl rfl there rfl (by simp [unsent])) (quits rfl there (absurd · unquit)))
    · refine sound.advance polls there (ok.congr (held_some rfl rfl rfl there)
        (called_some rfl rfl rfl there rfl (by simp [unsent])) ?_)
      rintro other (quit | rfl)
      · exact quits rfl there (absurd · unquit) other quit
      · exact ⟨_, update_self .., rfl⟩
    · exact sound.dropTask polls (ok.congr (held_none rfl rfl rfl there)
        (called_over rfl rfl sound there (by simp)) (quits rfl there (absurd · unquit)))
  | check polls there stage =>
    exact sound.advance polls there (sound.host.congr (held_some rfl rfl rfl there)
      (called_some rfl rfl rfl there rfl (by simp [stage])) (quits rfl there (by simp [stage])))
  | send polls there stage =>
    have unsent := called there (by rw [stage]; exact TaskStage.noConfusion)
    refine sound.advance polls there ((sound.host.send unsent ?_ _ ?_).congr (held_some rfl rfl rfl there)
      (called_over rfl rfl sound there (by rintro _ ⟨⟩; rfl)) fun _ => id)
    · rintro other distinct ⟨task', there', stage'⟩
      exact ⟨task', (update_of_ne distinct ..).trans there', stage'⟩
    · rintro rfl ⟨task', there', stage'⟩
      cases there.symm.trans there'
      cases stage.symm.trans stage'
  | @release thread slot task polls there stage =>
    have answered := sound.not_called there stage
    refine sound.dropTask polls ((sound.host.release (by simp [held, there]) answered).2.congr (held_none rfl rfl rfl there) ?_
      (quits rfl there (by simp [stage])))
    have ended : ∀ other pid, ({ s with host := s.host.release slot }.dropTask thread slot).Called other pid ↔ _ :=
      called_over (s := s) rfl rfl sound there (by simp)
    refine fun other pid => (ended other pid).trans (and_iff_left_of_imp ?_)
    rintro call rfl
    exact answered pid call

end Steps

end Sound

end Sound

end Rel4.Host.HostSystem
