import Rel4.Host.Rpc
import Rel4.Lib.Count
import Rel4.Lib.Interleave

/-! Whoever has the gate is alone with the server: calls get their own replies, and bytes do not mix. -/

namespace Rel4.Host.RpcSystem

open Lib
open Function (update update_eq_self update_of_ne update_self)

variable {Task : Type} {s s' : RpcSystem Task} {task : Task} {stage : RpcStage}

section Invariant

/-- No message is under way. -/
def Quiet (s : RpcSystem Task) : Prop := s.inbox = [] ∧ s.outbox = [] ∧ s.value = none

/-- A reply answers a message, and the shared buffer is as the server left it. -/
def Answers (s : RpcSystem Task) (id serial : Nat) (reply : RpcReply) : Prop :=
  reply.id = id ∧ reply.serial = serial ∧ s.shared = reply.left

/-- The bytes of a write are in the shared buffer. -/
def Holding (s : RpcSystem Task) (call : RpcCall) (data : List UInt8) : Prop :=
  call.kind = .write → s.sharedBytes call.length = data

/-- What is under way while a task is at a stage. -/
def InOrder (s : RpcSystem Task) (task : Task) : RpcStage → Prop
  | .away | .asking _ => True
  | .inside _ => s.Quiet
  | .staged call data | .numbered call data _ | .clean call data _ => s.Quiet ∧ s.Holding call data
  | .waiting call data id serial =>
    s.inbox = [{ serial, sender := task, id, call }] ∧ s.outbox = [] ∧ s.value = none ∧ s.Holding call data ∨
    s.inbox = [] ∧ ∃ reply, s.Answers id serial reply ∧
      (s.outbox = [reply] ∧ s.value = none ∨ s.outbox = [] ∧ s.value = some reply)
  | .replied _ _ id serial reply => s.Quiet ∧ s.Answers id serial reply
  | .calling call serial =>
    call.kind = .sync ∧ s.inbox = [{ serial, sender := task, id := 0, call }] ∧ s.outbox = [] ∧ s.value = none

/-- One task at most has the gate, and what is under way is its. -/
structure Orderly (s : RpcSystem Task) : Prop where
  alone : ∀ task other, (s.stages task).holds = true → (s.stages other).holds = true → task = other
  locked : ∀ task, (s.stages task).holds = true → s.locked = true
  quiet : (∀ task, (s.stages task).holds = false) → s.Quiet
  inOrder : ∀ task, s.InOrder task (s.stages task)

theorem InOrder.of_not_holds (out : stage.holds = false) : s.InOrder task stage := by
  cases stage <;> trivial

theorem start_orderly (shared : Nat → UInt8) : (start shared : RpcSystem Task).Orderly where
  alone _ _ holds := by cases holds
  locked _ holds := by cases holds
  quiet _ := ⟨rfl, rfl, rfl⟩
  inOrder _ := trivial

/-- Whatever is under way belongs to somebody who has the gate. -/
theorem Orderly.someone (orderly : s.Orderly) (busy : ¬ s.Quiet) : ∃ task, (s.stages task).holds = true := by
  by_contra nobody
  refine busy (orderly.quiet fun task => ?_)
  simpa using not_exists.mp nobody task

/-- Whoever has the gate goes on, and nobody else is concerned. -/
theorem Orderly.goOn [DecidableEq Task] (orderly : s.Orderly) (stage : RpcStage) (holds : (s.stages task).holds = true)
    (stages : s'.stages = update s.stages task stage) (locked : s'.locked = s.locked)
    (still : stage.holds = true) (inOrder : s'.InOrder task stage) : s'.Orderly := by
  have others (other) (distinct : other ≠ task) : (s'.stages other).holds = false := by
    rw [stages, update_of_ne distinct]
    by_contra also
    exact distinct (orderly.alone other task (by simpa using also) holds)
  have here : s'.stages task = stage := by rw [stages, update_self]
  have only (other) (also : (s'.stages other).holds = true) : other = task := by
    by_contra distinct
    rw [others other distinct] at also
    cases also
  refine ⟨fun a b first second => (only a first).trans (only b second).symm, fun other also => ?_, fun nobody => ?_,
    fun other => ?_⟩
  · rw [locked]
    exact orderly.locked task holds
  · have := nobody task
    rw [here, still] at this
    cases this
  · by_cases distinct : other = task
    · rw [distinct, here]
      exact inOrder
    · exact .of_not_holds (others other distinct)

/-- What a task at a stage has by the invariant. -/
theorem Orderly.at (orderly : s.Orderly) (found : s.stages task = stage) : s.InOrder task stage := by
  rw [← found]
  exact orderly.inOrder task

theorem holds_of_eq (found : s.stages task = stage) (holds : stage.holds = true) :
    (s.stages task).holds = true := by
  rw [found, holds]

/-- Messages are under way in two of the stages only. -/
theorem InOrder.quiet_or (inOrder : s.InOrder task stage) (holds : stage.holds = true) :
    s.Quiet ∨ (∃ call data id serial, stage = .waiting call data id serial) ∨
      ∃ call serial, stage = .calling call serial := by
  cases stage with
  | away => cases holds
  | asking call => cases holds
  | inside call => exact .inl inOrder
  | staged call data => exact .inl inOrder.1
  | numbered call data id => exact .inl inOrder.1
  | clean call data id => exact .inl inOrder.1
  | waiting call data id serial => exact .inr (.inl ⟨_, _, _, _, rfl⟩)
  | replied call data id serial reply => exact .inl inOrder.1
  | calling call serial => exact .inr (.inr ⟨_, _, rfl⟩)

/-- The only message to the server is of a task that waits for the reply, or is in a synchronous call. -/
theorem Orderly.sender (orderly : s.Orderly) {request : RpcRequest Task} {rest : List (RpcRequest Task)}
    (inbox : s.inbox = request :: rest) :
    rest = [] ∧ s.outbox = [] ∧ s.value = none ∧
      ((∃ data, s.stages request.sender = .waiting request.call data request.id request.serial ∧
        s.Holding request.call data) ∨
      request.call.kind = .sync ∧ s.stages request.sender = .calling request.call request.serial) := by
  have busy : ¬ s.Quiet := fun quiet => by cases inbox.symm.trans quiet.1
  obtain ⟨task, holds⟩ := orderly.someone busy
  rcases (orderly.inOrder task).quiet_or holds with quiet | ⟨call, data, id, serial, found⟩ | ⟨call, serial, found⟩
  · cases busy quiet
  · rcases orderly.at found with ⟨alone, outbox, value, holding⟩ | ⟨none, -⟩
    · cases inbox.symm.trans alone
      exact ⟨rfl, outbox, value, .inl ⟨data, found, holding⟩⟩
    · cases inbox.symm.trans none
  · obtain ⟨sync, alone, outbox, value⟩ := orderly.at found
    cases inbox.symm.trans alone
    exact ⟨rfl, outbox, value, .inr ⟨sync, found⟩⟩

/-- The only message from the server is for a task that waits for it. -/
theorem Orderly.receiver (orderly : s.Orderly) {reply : RpcReply} {rest : List RpcReply}
    (outbox : s.outbox = reply :: rest) :
    rest = [] ∧ s.inbox = [] ∧
      ∃ task call data, s.stages task = .waiting call data reply.id reply.serial ∧ s.shared = reply.left := by
  have busy : ¬ s.Quiet := fun quiet => by cases outbox.symm.trans quiet.2.1
  obtain ⟨task, holds⟩ := orderly.someone busy
  rcases (orderly.inOrder task).quiet_or holds with quiet | ⟨call, data, id, serial, found⟩ | ⟨call, serial, found⟩
  · cases busy quiet
  · rcases orderly.at found with ⟨-, none, -⟩ | ⟨inbox, given, ⟨rfl, rfl, left⟩, ⟨alone, -⟩ | ⟨none, -⟩⟩
    · cases outbox.symm.trans none
    · cases outbox.symm.trans alone
      exact ⟨rfl, inbox, task, call, data, found, left⟩
    · cases outbox.symm.trans none
  · cases outbox.symm.trans (orderly.at found).2.2.1

theorem sharedBytes_putBytes (data : List UInt8) : (s.putBytes data).sharedBytes data.length = data := by
  unfold sharedBytes putBytes
  refine List.ext_getElem (by simp) fun i small _ => ?_
  simp only [List.length_map, List.length_range] at small
  simp [small]

end Invariant

section Steps

variable [DecidableEq Task] {call : RpcCall} {data : List UInt8} {reply : RpcReply}

variable (orderly : s.Orderly)
include orderly

/-- A free gate is taken by one task. -/
theorem Orderly.acquire (free : s.locked = false) :
    Orderly { s.setStage task (.inside call) with locked := true } := by
  have nobody (other) : (s.stages other).holds = false := by
    by_contra holds
    cases free.symm.trans (orderly.locked other (by simpa using holds))
  have quiet := orderly.quiet nobody
  have only (other) : (update s.stages task (.inside call) other).holds = true → other = task :=
    update_elim other (fun _ => rfl) fun other _ holds => by cases (nobody other).symm.trans holds
  refine ⟨fun a b first second => (only a first).trans (only b second).symm, fun _ _ => rfl,
    fun _ => quiet, fun other => ?_⟩
  change InOrder _ other (update s.stages task _ other)
  exact update_elim other quiet fun other _ => .of_not_holds (nobody other)

/-- A task outside that stays outside concerns nobody. -/
theorem Orderly.outside (before : (s.stages task).holds = false)
    (after : stage.holds = false) : (s.setStage task stage).Orderly := by
  have same (other) : ((s.setStage task stage).stages other).holds = (s.stages other).holds := by
    change (update s.stages task stage other).holds = _
    exact update_elim other (after.trans before.symm) fun _ _ => rfl
  refine ⟨fun a b first second => ?_, fun a first => ?_, fun nobody => ?_, fun other => ?_⟩
  · exact orderly.alone a b ((same a).symm.trans first) ((same b).symm.trans second)
  · exact orderly.locked a ((same a).symm.trans first)
  · have quiet := orderly.quiet fun a => (same a).symm.trans (nobody a)
    exact quiet
  · show InOrder _ other (update s.stages task stage other)
    refine update_elim other (.of_not_holds after) fun other _ => ?_
    have := orderly.inOrder other
    revert this
    cases s.stages other <;> exact id

/-- The gate is given back when nothing is under way. -/
theorem Orderly.drop (holds : (s.stages task).holds = true) (quiet : s.Quiet) :
    Orderly { s.setStage task .away with locked := false } := by
  have nobody (other) : (update s.stages task .away other).holds = false := by
    refine update_elim other rfl fun other distinct => ?_
    by_contra also
    exact distinct (orderly.alone other task (by simpa using also) holds)
  refine ⟨fun a _ first => ?_, fun a first => ?_, fun _ => quiet,
    fun other => .of_not_holds (nobody other)⟩
  · cases (nobody a).symm.trans first
  · cases (nobody a).symm.trans first

/-- The server takes the message of the task that has the gate, and answers it. -/
theorem Orderly.serve {request : RpcRequest Task} {rest : List (RpcRequest Task)}
    (inbox : s.inbox = request :: rest) (mrs : List Nat) (left : Nat → UInt8) :
    ({ s with inbox := rest }.answer request mrs left).Orderly := by
  obtain ⟨last, outbox, value, ⟨data, found, -⟩ | ⟨-, found⟩⟩ := orderly.sender inbox
  · refine orderly.goOn (.waiting request.call data request.id request.serial) (holds_of_eq found rfl) ?_ ?_ rfl
      (.inr ?_)
    all_goals simp only [answer, found]
    · rw [← found, update_eq_self]
    · rw [outbox]
      exact ⟨last, _, ⟨rfl, rfl, rfl⟩, .inl ⟨rfl, value⟩⟩
  · refine orderly.goOn (.inside request.call) (holds_of_eq found rfl) ?_ ?_ rfl ?_
    all_goals simp only [answer, found]
    · rfl
    · rfl
    · exact ⟨last, outbox, value⟩

/-- The reactor puts the reply in the cell of the task that waits for it. -/
theorem Orderly.complete {rest : List RpcReply} (outbox : s.outbox = reply :: rest) :
    ({ s with outbox := rest }.fill reply).Orderly := by
  obtain ⟨last, inbox, task, call, data, found, left⟩ := orderly.receiver outbox
  refine orderly.goOn (.waiting call data reply.id reply.serial) (holds_of_eq found rfl) ?_ rfl rfl (.inr ?_)
  · show s.stages = _
    rw [← found, update_eq_self]
  · exact ⟨inbox, reply, ⟨rfl, rfl, left⟩, .inr ⟨last, rfl⟩⟩

/-- A task that has found its process goes on with its bytes in the shared buffer. -/
theorem Orderly.prepare (taken : s.step (.stage task data) = some s') : s'.Orderly := by
  simp only [step] at taken
  split at taken
  · rename_i call found
    have quiet := orderly.at found
    split at taken
    · cases taken
    · split at taken <;> cases taken
      rename_i fits
      refine orderly.goOn (.staged call data) (holds_of_eq found rfl) rfl rfl rfl
        ⟨quiet, fun _ => ?_⟩
      rw [← fits]
      exact sharedBytes_putBytes data
    · rename_i kind
      cases taken
      exact orderly.goOn (.staged call []) (holds_of_eq found rfl) rfl rfl rfl
        ⟨quiet, fun write => by cases kind.symm.trans write⟩
    · rename_i kind
      cases taken
      exact orderly.goOn (.staged call []) (holds_of_eq found rfl) rfl rfl rfl
        ⟨quiet, fun write => by cases kind.symm.trans write⟩
  · cases taken

/-- A task that looks into the cell finds its own reply there, or nothing. -/
theorem Orderly.poll (taken : s.step (.poll task) = some s') : s'.Orderly := by
  simp only [step] at taken
  split at taken
  · rename_i call data id serial found
    have inOrder := orderly.at found
    have holds : (s.stages task).holds = true := holds_of_eq found rfl
    split at taken
    · rename_i reply value
      cases taken
      rcases inOrder with ⟨-, -, none, -⟩ | ⟨inbox, given, answers, ⟨-, none⟩ | ⟨outbox, some⟩⟩
      · cases value.symm.trans none
      · cases value.symm.trans none
      · cases value.symm.trans some
        exact orderly.goOn (.replied call data id serial reply) holds rfl rfl rfl
          ⟨⟨inbox, outbox, rfl⟩, answers⟩
    · cases taken
      refine orderly.goOn (.waiting call data id serial) holds ?_ rfl rfl ?_
      · show s.stages = _
        rw [← found, update_eq_self]
      · exact inOrder
  · cases taken

/-- Copying what was read changes nothing that is under way. -/
theorem Orderly.copy (taken : s.step (.copy task) = some s') : s'.Orderly := by
  simp only [step] at taken
  split at taken
  · rename_i call data id serial reply found
    obtain ⟨quiet, answers⟩ := orderly.at found
    split at taken <;> cases taken
    refine orderly.goOn (.replied call data id serial reply) (holds_of_eq found rfl) ?_ rfl rfl
      ⟨quiet, answers⟩
    show s.stages = _
    rw [← found, update_eq_self]
  · cases taken

/-- Every move keeps the order. -/
theorem Orderly.step {move : RpcMove Task} (taken : s.step move = some s') :
    s'.Orderly := by
  cases move with
  | stage task data => exact orderly.prepare taken
  | poll task => exact orderly.poll taken
  | copy task => exact orderly.copy taken
  | call task call =>
    simp only [RpcSystem.step] at taken
    split at taken <;> cases taken
    rename_i found
    exact orderly.outside (by rw [found]; rfl) rfl
  | acquire task =>
    simp only [RpcSystem.step] at taken
    split at taken
    · split at taken <;> cases taken
      rename_i free
      exact orderly.acquire (by simpa using free)
    · cases taken
  | number task =>
    simp only [RpcSystem.step] at taken
    split at taken <;> cases taken
    rename_i call data found
    obtain ⟨quiet, holding⟩ := orderly.at found
    exact orderly.goOn (.numbered call data s.nextId) (holds_of_eq found rfl) rfl rfl rfl
      ⟨quiet, holding⟩
  | reset task =>
    simp only [RpcSystem.step] at taken
    split at taken <;> cases taken
    rename_i call data id found
    obtain ⟨quiet, holding⟩ := orderly.at found
    exact orderly.goOn (.clean call data id) (holds_of_eq found rfl) rfl rfl rfl
      ⟨⟨quiet.1, quiet.2.1, rfl⟩, holding⟩
  | send task =>
    simp only [RpcSystem.step] at taken
    split at taken <;> cases taken
    rename_i call data id found
    obtain ⟨quiet, holding⟩ := orderly.at found
    refine orderly.goOn (.waiting call data id s.sent) (holds_of_eq found rfl) rfl rfl rfl
      (.inl ⟨?_, quiet.2.1, quiet.2.2, holding⟩)
    show s.inbox ++ _ = _
    rw [quiet.1, List.nil_append]
  | syncCall task =>
    simp only [RpcSystem.step] at taken
    split at taken
    · rename_i call found
      have quiet := orderly.at found
      split at taken <;> cases taken
      rename_i sync
      refine orderly.goOn (.calling call s.sent) (holds_of_eq found rfl) rfl rfl rfl
        ⟨sync, ?_, quiet.2.1, quiet.2.2⟩
      show s.inbox ++ _ = _
      rw [quiet.1, List.nil_append]
    · cases taken
  | drop task =>
    simp only [RpcSystem.step] at taken
    split at taken <;> cases taken <;> rename_i found
    · exact orderly.drop (holds_of_eq found rfl) (orderly.at found)
    · exact orderly.drop (holds_of_eq found rfl) (orderly.at found).1
    · exact orderly.drop (holds_of_eq found rfl) (orderly.at found).1
  | serve mrs left =>
    simp only [RpcSystem.step] at taken
    split at taken <;> cases taken
    exact orderly.serve ‹_› mrs left
  | complete =>
    simp only [RpcSystem.step] at taken
    split at taken <;> cases taken
    exact orderly.complete ‹_›

end Steps

section Calls

variable [DecidableEq Task] {shared : Nat → UInt8}

theorem orderly_of_run (run : Run step (fun _ _ => True) (start shared) s) : s.Orderly :=
  run.keeps Orderly (start_orderly shared) fun _ _ _ orderly taken _ => orderly.step taken

/-- Whatever the interleaving: a call gets the reply to its own message, with the identifier it has sent; what
a read copies is what the server has left for it; and what the server finds for a write are the writer's
bytes. -/
theorem calls_paired_and_isolated (run : Run step (fun _ _ => True) (start shared) s) :
    (∀ task call data id serial reply, s.stages task = .replied call data id serial reply →
      reply.id = id ∧ reply.serial = serial) ∧
    (∀ task call data id serial reply s', s.stages task = .replied call data id serial reply →
      s.step (.copy task) = some s' → s'.copied task = (List.range reply.count).map reply.left) ∧
    ∀ request rest, s.inbox = request :: rest → request.call.kind = .write →
      (∃ data, s.stages request.sender = .waiting request.call data request.id request.serial ∧
        s.sharedBytes request.call.length = data) := by
  have orderly := orderly_of_run run
  refine ⟨?_, ?_, ?_⟩
  · intro task call data id serial reply found
    obtain ⟨-, same, its, -⟩ := orderly.at found
    exact ⟨same, its⟩
  · intro task call data id serial reply s' found taken
    obtain ⟨-, -, -, left⟩ := orderly.at found
    simp only [step, found] at taken
    split at taken <;> cases taken
    show Function.update s.copied task _ task = _
    rw [Function.update_self, sharedBytes, left]
  · intro request rest inbox write
    obtain ⟨-, -, -, ⟨data, found, holding⟩ | ⟨sync, -⟩⟩ := orderly.sender inbox
    · exact ⟨data, found, holding write⟩
    · cases sync.symm.trans write

/-- One task writes and another one reads, which asks for the gate while the write is under way. -/
def sampleCalls : List (RpcMove Bool) :=
  [.call false ⟨.write, 3, [1], 2⟩, .acquire false, .call true ⟨.read, 2, [1], 4⟩, .stage false [8, 9],
    .number false, .reset false, .send false, .poll false, .serve [0, 2] fun _ => 0, .complete, .poll false,
    .drop false, .acquire true, .stage true [], .number true, .reset true, .send true, .serve [0, 3] fun _ => 7,
    .complete, .poll true, .copy true]

theorem sampleCalls_made : (moves step (start fun _ => 0) sampleCalls).isSome = true := by decide +kernel

theorem calls_paired_and_isolated_sample : ∃ s : RpcSystem Bool,
    Run step (fun _ _ => True) (start fun _ => 0) s ∧ s.copied true = [7, 7, 7] ∧
      ∀ task call data id serial reply, s.stages task = .replied call data id serial reply →
        reply.id = id ∧ reply.serial = serial := by
  have run : Run step (fun _ _ => True) (start fun _ => 0)
      ((moves step (start fun _ => 0) sampleCalls).get sampleCalls_made) :=
    Run.start.of_moves _ (Option.some_get sampleCalls_made).symm
  exact ⟨_, run, by decide +kernel, (calls_paired_and_isolated run).1⟩

end Calls

end Rel4.Host.RpcSystem
