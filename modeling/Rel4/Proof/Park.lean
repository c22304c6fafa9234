import Rel4.Lib.Count
import Rel4.Lib.Interleave
import Rel4.Rt.Park

/-! A task in the ready queue never finds all workers asleep for good. -/

namespace Rel4.Rt.ParkSystem

open Lib

section Counting

variable {n : Nat} {Caller : Type} {s : ParkSystem (Fin n) Caller} {worker : Fin n}

/-- How many workers are counted as parked. -/
def parkedWorkers (s : ParkSystem (Fin n) Caller) : Nat :=
  (List.finRange n).countP fun worker => (s.workers worker).parked

/-- Only one worker's place in the count can change. -/
theorem parkedWorkers_setWorker (worker : Fin n) (stage : ParkStage) :
    (s.setWorker worker stage).parkedWorkers + (if (s.workers worker).parked then 1 else 0) =
      s.parkedWorkers + if stage.parked then 1 else 0 :=
  countP_update (List.nodup_finRange n) (List.mem_finRange worker)

theorem parkedWorkers_pos (isParked : (s.workers worker).parked = true) : 0 < s.parkedWorkers :=
  List.countP_pos_iff.mpr ⟨worker, List.mem_finRange worker, isParked⟩

theorem setWorker_same {stage : ParkStage} (same : stage.parked = (s.workers worker).parked) :
    (s.setWorker worker stage).parkedWorkers = s.parkedWorkers := by
  have counted : (s.setWorker worker stage).parkedWorkers + _ = s.parkedWorkers + _ :=
    parkedWorkers_setWorker worker stage
  rw [same] at counted
  omega

@[simp] theorem setWorker_workers (worker other : Fin n) (stage : ParkStage) :
    (s.setWorker worker stage).workers other = if other = worker then stage else s.workers other :=
  Function.update_apply ..

/-- About to wait, or waiting. -/
def Resting (stage : ParkStage) : Prop := stage = .drowsy ∨ stage = .blocked

theorem Resting.parked {stage : ParkStage} (resting : Resting stage) : stage.parked = true := by
  rcases resting with rfl | rfl <;> rfl

/-- If all workers rest after one of them has moved, that one came to rest. -/
theorem resting_setWorker {stage : ParkStage}
    (resting : ∀ other, Resting ((s.setWorker worker stage).workers other)) :
    Resting stage ∧ ∀ other, other ≠ worker → Resting (s.workers other) := by
  constructor
  · simpa using resting worker
  · intro other distinct
    simpa [distinct] using resting other

end Counting

section Invariant

variable {n : Nat} {Caller : Type} {s s' : ParkSystem (Fin n) Caller} {worker : Fin n} {stage : ParkStage}

/-- The counter is right, and the kernel's queue holds workers that wait. -/
structure Counted (s : ParkSystem (Fin n) Caller) : Prop where
  parked : s.parked = s.parkedWorkers
  waiters : ∀ worker ∈ s.waiters, s.workers worker = .blocked
  nodup : s.waiters.Nodup

/-- If all workers rest while there is a task, a signal has been kept or is on its way. -/
structure Awake (s : ParkSystem (Fin n) Caller) : Prop extends s.Counted where
  coming : (∀ worker, Resting (s.workers worker)) → s.queue ≠ [] →
    s.active = true ∨ ∃ caller, s.callers caller ≠ .idle

theorem start_awake (wakeNtfn : Nat) : (start wakeNtfn : ParkSystem (Fin n) Caller).Awake where
  parked := by simp [parkedWorkers, start, ParkStage.parked]
  waiters := by simp [start]
  nodup := List.nodup_nil
  coming _ some := absurd rfl some

/-- A worker that does not wait moves on. -/
theorem Counted.move (counted : s.Counted) {parked : Nat} (up : s.workers worker ≠ .blocked)
    (count : parked = (s.setWorker worker stage).parkedWorkers) :
    Counted { s.setWorker worker stage with parked } where
  parked := count
  waiters other waits := by
    have distinct : other ≠ worker := by
      rintro rfl
      exact up (counted.waiters _ waits)
    show (s.setWorker worker stage).workers other = _
    rw [setWorker_workers, if_neg distinct]
    exact counted.waiters other waits
  nodup := counted.nodup

/-- If the worker then does not rest, there is nothing to fear. -/
theorem Counted.stir (counted : s.Counted) {parked : Nat} (up : s.workers worker ≠ .blocked)
    (stays : ¬ Resting stage) (count : parked = (s.setWorker worker stage).parkedWorkers) :
    Awake { s.setWorker worker stage with parked } where
  toCounted := counted.move up count
  coming resting := absurd (resting_setWorker resting).1 stays

theorem not_resting_leaving : ¬ Resting .leaving := by
  rintro (never | never) <;> cases never

/-- The first worker that waits is woken, or the signal is kept. -/
theorem Counted.signal (counted : s.Counted) : s.signal.Awake := by
  unfold ParkSystem.signal
  cases waiters : s.waiters with
  | nil =>
    refine ⟨⟨counted.parked, fun other waits => ?_, List.nodup_nil⟩, fun _ _ => .inl rfl⟩
    cases waits
  | cons worker rest =>
    have blocked : s.workers worker = .blocked := counted.waiters worker (by simp [waiters])
    have same : (s.setWorker worker .leaving).parkedWorkers = s.parkedWorkers :=
      setWorker_same (by rw [blocked]; rfl)
    obtain ⟨absent, nodup⟩ := List.nodup_cons.mp (waiters ▸ counted.nodup)
    refine ⟨⟨counted.parked.trans same.symm, fun other waits => ?_, nodup⟩, fun resting => ?_⟩
    · have distinct : other ≠ worker := by
        rintro rfl
        exact absent waits
      show (s.setWorker worker .leaving).workers other = _
      rw [setWorker_workers, if_neg distinct]
      exact counted.waiters other (by simp [waiters, waits])
    · exact absurd (resting_setWorker resting).1 not_resting_leaving

/-- A worker takes the signal that was kept, or waits with the others. -/
theorem Awake.wait (awake : s.Awake) (drowsy : s.workers worker = .drowsy) : (s.wait worker).Awake := by
  have up : s.workers worker ≠ .blocked := by simp [drowsy]
  unfold ParkSystem.wait
  split_ifs with active
  · have same : (s.setWorker worker .leaving).parkedWorkers = s.parkedWorkers :=
      setWorker_same (by rw [drowsy]; rfl)
    have moved := awake.toCounted.stir up not_resting_leaving (awake.parked.trans same.symm)
    exact ⟨⟨moved.parked, moved.waiters, moved.nodup⟩, fun resting =>
      absurd (resting_setWorker resting).1 not_resting_leaving⟩
  · have same : (s.setWorker worker .blocked).parkedWorkers = s.parkedWorkers :=
      setWorker_same (by rw [drowsy]; rfl)
    have absent : worker ∉ s.waiters := fun waits => up (awake.waiters worker waits)
    refine ⟨⟨awake.parked.trans same.symm, fun other waits => ?_, ?_⟩, fun resting some => ?_⟩
    · show (s.setWorker worker .blocked).workers other = _
      rw [setWorker_workers]
      split_ifs with here
      · rfl
      · exact awake.waiters other (by simpa [here] using waits)
    · exact List.nodup_append_comm.mp (List.nodup_cons.mpr ⟨absent, awake.nodup⟩)
    · -- The worker was resting before, so nothing else has changed.
      refine awake.coming (fun other => ?_) some
      by_cases here : other = worker
      · exact here ▸ .inl drowsy
      · exact (resting_setWorker resting).2 other here

end Invariant

section Runs

variable {n : Nat} {Caller : Type} [DecidableEq Caller] {s s' : ParkSystem (Fin n) Caller}

/-- Nobody goes to sleep while a task waits, without a signal that will wake them. -/
theorem Awake.step {move : ParkMove (Fin n) Caller} (awake : s.Awake) (set : s.wakeNtfn ≠ 0) (someone : Fin n)
    (stepped : s.step move = some s') : s'.Awake := by
  cases move with
  | push caller token =>
    simp only [ParkSystem.step] at stepped
    split_ifs at stepped
    cases stepped
    refine ⟨⟨awake.parked, awake.waiters, awake.nodup⟩, fun _ _ => .inr ⟨caller, ?_⟩⟩
    simp [setCaller]
  | look caller =>
    simp only [ParkSystem.step] at stepped
    split_ifs at stepped with pushed none
    · -- While a worker rests, the counter is not zero.
      cases stepped
      refine ⟨⟨awake.parked, awake.waiters, awake.nodup⟩, fun resting => ?_⟩
      have counted : 0 < s.parkedWorkers := parkedWorkers_pos (resting someone).parked
      rw [← awake.parked] at counted
      omega
    · cases stepped
      refine ⟨⟨awake.parked, awake.waiters, awake.nodup⟩, fun _ _ => .inr ⟨caller, ?_⟩⟩
      simp [setCaller]
  | signal caller =>
    simp only [ParkSystem.step, if_pos set] at stepped
    split_ifs at stepped
    cases stepped
    have counted : (s.setCaller caller .idle).Counted := ⟨awake.parked, awake.waiters, awake.nodup⟩
    exact counted.signal
  | take =>
    simp only [ParkSystem.step] at stepped
    cases stepped
    refine ⟨⟨awake.parked, awake.waiters, awake.nodup⟩, fun resting some => awake.coming resting ?_⟩
    rintro empty
    simp [empty] at some
  | poll worker =>
    simp only [ParkSystem.step] at stepped
    split_ifs at stepped with polling
    cases queue : s.queue with
    | nil =>
      rw [queue] at stepped
      cases stepped
      have same : (s.setWorker worker .starved).parkedWorkers = s.parkedWorkers :=
        setWorker_same (by rw [polling]; rfl)
      refine awake.toCounted.stir (by simp [polling]) ?_ (awake.parked.trans same.symm)
      rintro (never | never) <;> cases never
    | cons token rest =>
      rw [queue] at stepped
      cases stepped
      refine ⟨⟨awake.parked, awake.waiters, awake.nodup⟩, fun resting _ => awake.coming resting (by simp [queue])⟩
  | count worker =>
    simp only [ParkSystem.step] at stepped
    split_ifs at stepped with starved
    cases stepped
    refine awake.toCounted.stir (by simp [starved]) ?_ ?_
    · rintro (never | never) <;> cases never
    · have counted : (s.setWorker worker .counted).parkedWorkers + _ = s.parkedWorkers + _ :=
        parkedWorkers_setWorker worker .counted
      rw [starved, ← awake.parked] at counted
      simpa [ParkStage.parked] using counted.symm
  | check worker =>
    simp only [ParkSystem.step] at stepped
    split_ifs at stepped with counted filled
    · cases stepped
      have same : (s.setWorker worker .leaving).parkedWorkers = s.parkedWorkers :=
        setWorker_same (by rw [counted]; rfl)
      exact awake.toCounted.stir (by simp [counted]) not_resting_leaving (awake.parked.trans same.symm)
    · -- The worker rests only if it has seen the queue empty.
      cases stepped
      have same : (s.setWorker worker .drowsy).parkedWorkers = s.parkedWorkers :=
        setWorker_same (by rw [counted]; rfl)
      refine ⟨awake.toCounted.move (by simp [counted]) (awake.parked.trans same.symm), fun _ some => ?_⟩
      exact absurd (List.length_eq_zero_iff.mp (not_not.mp filled)) some
  | wait worker =>
    simp only [ParkSystem.step, if_pos set] at stepped
    split_ifs at stepped with drowsy
    cases stepped
    exact awake.wait drowsy
  | leave worker =>
    simp only [ParkSystem.step] at stepped
    split_ifs at stepped with leaving
    cases stepped
    refine awake.toCounted.stir (by simp [leaving]) ?_ ?_
    · rintro (never | never) <;> cases never
    · have counted : (s.setWorker worker .polling).parkedWorkers + _ = s.parkedWorkers + _ :=
        parkedWorkers_setWorker worker .polling
      rw [leaving, ← awake.parked] at counted
      simp only [ParkStage.parked, if_true, Bool.false_eq_true, if_false, Nat.add_zero] at counted
      omega

theorem step_wakeNtfn {move : ParkMove (Fin n) Caller} (stepped : s.step move = some s') :
    s'.wakeNtfn = s.wakeNtfn := by
  have signalled (s : ParkSystem (Fin n) Caller) : s.signal.wakeNtfn = s.wakeNtfn := by
    unfold ParkSystem.signal
    split <;> rfl
  have waited (worker : Fin n) : (s.wait worker).wakeNtfn = s.wakeNtfn := by
    unfold ParkSystem.wait
    split_ifs <;> rfl
  cases move with
  | signal caller =>
    simp only [ParkSystem.step] at stepped
    split_ifs at stepped <;> cases stepped
    · exact signalled _
    · rfl
  | wait worker =>
    simp only [ParkSystem.step] at stepped
    split_ifs at stepped <;> cases stepped
    · exact waited worker
    · rfl
  | take =>
    cases stepped
    rfl
  | poll worker =>
    simp only [ParkSystem.step] at stepped
    split_ifs at stepped
    split at stepped <;> cases stepped <;> rfl
  | push | look | count | check | leave =>
    simp only [ParkSystem.step] at stepped
    split_ifs at stepped
    all_goals
      cases stepped
      rfl

theorem awake_of_run {wakeNtfn : Nat} (set : wakeNtfn ≠ 0) (someone : Fin n)
    (run : Run step (fun _ _ => True) (start wakeNtfn) s) : s.Awake := by
  have kept : s.Awake ∧ s.wakeNtfn ≠ 0 := by
    refine run.keeps (fun s => s.Awake ∧ s.wakeNtfn ≠ 0) ⟨start_awake wakeNtfn, set⟩ ?_
    intro s move s' awake moved _
    exact ⟨awake.1.step awake.2 someone moved, step_wakeNtfn moved ▸ awake.2⟩
  exact kept.1

end Runs

/-- With a notification to wait for, and any number of workers, there is no state in which a task is
queued, every call of `enqueue` is over, no signal is kept, and every worker waits. -/
theorem parked_workers_woken {n : Nat} {Caller : Type} [DecidableEq Caller] {wakeNtfn : Nat}
    (set : wakeNtfn ≠ 0) {s : ParkSystem (Fin n) Caller}
    (run : Run step (fun _ _ => True) (start wakeNtfn) s) (someone : Fin n) :
    ¬ (s.queue ≠ [] ∧ (∀ caller, s.callers caller = .idle) ∧ s.active = false ∧
      ∀ worker, s.workers worker = .blocked) := by
  rintro ⟨task, finished, unsignalled, asleep⟩
  have awake := awake_of_run set someone run
  rcases awake.coming (fun worker => .inr (asleep worker)) task with kept | ⟨caller, busy⟩
  · cases unsignalled.symm.trans kept
  · exact busy (finished caller)

/-- Two workers: one falls asleep, a task comes while the other looks for one, and the sleeper is woken. -/
def sampleParking : List (ParkMove (Fin 2) Unit) :=
  [.poll 0, .poll 1, .count 0, .check 0, .wait 0, .count 1, .push () ⟨Executor.firstSlot, 1⟩, .look (), .signal ()]

theorem sampleParking_made : (moves step (start 7) sampleParking).isSome = true := by decide +kernel

theorem parked_workers_woken_sample : ∃ s : ParkSystem (Fin 2) Unit,
    Run step (fun _ _ => True) (start 7) s ∧ s.queue ≠ [] ∧ s.workers 0 = .leaving ∧
      ¬ (s.queue ≠ [] ∧ (∀ caller, s.callers caller = .idle) ∧ s.active = false ∧
        ∀ worker, s.workers worker = .blocked) := by
  have run : Run step (fun _ _ => True) (start 7) ((moves step (start 7) sampleParking).get sampleParking_made) :=
    Run.start.of_moves _ (Option.some_get sampleParking_made).symm
  exact ⟨_, run, by decide +kernel, by decide +kernel, parked_workers_woken (by decide) run 0⟩

end Rel4.Rt.ParkSystem
