import Rel4.Lib.Count
import Rel4.Lib.Interleave
import Rel4.Rt.Time

/-! Timers keep their sleepers while no place is handed out that another future remembers. -/

namespace Rel4.Rt

open Function (update update_of_ne update_self)

namespace TimeWork

variable {Sleeper Task : Type}

/-- The future a worker is polling. -/
def polls : TimeWork Sleeper Task → Option Sleeper
  | .checked sleeper | .registered sleeper | .due sleeper => some sleeper
  | _ => none

/-- The worker is in a call that advances the clock. -/
def advancing : TimeWork Sleeper Task → Bool
  | .stored _ | .waking _ => true
  | _ => false

end TimeWork

namespace TimeSystem

variable {Sleeper Task Worker : Type} {s s' : TimeSystem Sleeper Task Worker}
  {move : TimeMove Sleeper Task Worker}

/-- A call that advances the clock has the future's waker in hand. -/
def InHand (s : TimeSystem Sleeper Task Worker) (f : Sleeper) : Prop :=
  ∃ worker ready, s.workers worker = .waking ready ∧ s.tasks f ∈ ready

/--
A future that remembers a place is being polled or pends. The entry is its own, with its deadline
and its waker; or the entry has been freed, and then its time has come and its task knows.
-/
def SleeperOk (s : TimeSystem Sleeper Task Worker) (f : Sleeper) : Prop :=
  ∀ slot, (s.sleepers f).slot = some slot →
    (s.stages f = .polling ∨ s.stages f = .pending) ∧
    ((s.timers slot).active = true ∧ (s.timers slot).deadline = (s.sleepers f).deadline ∧
        (s.stages f = .pending → (s.timers slot).waker = some (s.tasks f)) ∨
      (s.timers slot).active = false ∧ (s.sleepers f).deadline ≤ s.now ∧
        (s.stages f = .pending → s.woken f = true ∨ s.InHand f))

/-- What a worker relies on in the middle of its work. -/
def WorkerOk (s : TimeSystem Sleeper Task Worker) (worker : Worker) : Prop :=
  match s.workers worker with
  | .idle | .checked _ => True
  | .registered f => ∀ slot, (s.sleepers f).slot = some slot → (s.timers slot).active = true →
      (s.timers slot).waker = some (s.tasks f)
  | .due f => (s.sleepers f).deadline ≤ s.now
  | .stored ticks => ticks ≤ s.now ∧ ∀ f, s.owed worker f = true →
      (s.sleepers f).slot ≠ none ∧ (s.sleepers f).deadline ≤ ticks
  | .waking ready => ∀ f, s.owed worker f = true → s.woken f = true ∨ s.tasks f ∈ ready

/-- What holds in every state while places are handed out and time advances in order. -/
structure Inv (s : TimeSystem Sleeper Task Worker) : Prop where
  polls : Lib.Exclusive (fun worker => (s.workers worker).polls) fun f => s.stages f = .polling
  calls : ∀ worker other, (s.workers worker).advancing = true →
    (s.workers other).advancing = true → worker = other
  alone : ∀ f g slot, (s.sleepers f).slot = some slot → (s.sleepers g).slot = some slot → f = g
  owed : ∀ worker f, s.owed worker f = true → s.stages f = .pending
  sleepers : ∀ f, s.SleeperOk f
  workers : ∀ worker, s.WorkerOk worker

theorem Inv.start (task : Task) : (TimeSystem.start task : TimeSystem Sleeper Task Worker).Inv where
  polls := ⟨fun _ _ polls => (by cases polls), fun _ _ _ polls => (by cases polls)⟩
  calls _ _ advances := by cases advances
  alone _ _ _ placed := by cases placed
  owed _ _ isOwed := by cases isOwed
  sleepers _ _ placed := by cases placed
  workers _ := trivial

section Frames

/-- What another future's move leaves to a future. -/
structure SleeperKept (s s' : TimeSystem Sleeper Task Worker) (f : Sleeper) : Prop where
  sleeper : s'.sleepers f = s.sleepers f
  stage : s'.stages f = s.stages f
  task : s'.tasks f = s.tasks f
  woken : s.woken f = true → s'.woken f = true

theorem SleeperOk.frame {f : Sleeper} (ok : s.SleeperOk f) (kept : SleeperKept s s' f)
    (timer : ∀ slot, (s.sleepers f).slot = some slot → s'.timers slot = s.timers slot)
    (now : s.now ≤ s'.now) (inHand : s.InHand f → s'.woken f = true ∨ s'.InHand f) :
    s'.SleeperOk f := by
  intro slot placed
  rw [kept.sleeper] at placed ⊢
  rw [kept.stage, kept.task, timer slot placed]
  obtain ⟨stage, entry⟩ := ok slot placed
  refine ⟨stage, entry.imp_right ?_⟩
  rintro ⟨inactive, reached, told⟩
  refine ⟨inactive, Nat.le_trans reached now, fun pending => ?_⟩
  rcases told pending with isWoken | hand
  · exact .inl (kept.woken isWoken)
  · exact inHand hand

/-- A worker's own work is kept by what the others do. -/
theorem WorkerOk.frame {worker : Worker} (ok : s.WorkerOk worker)
    (work : s'.workers worker = s.workers worker) (now : s.now ≤ s'.now)
    (polled : ∀ f, (s.workers worker).polls = some f → s'.sleepers f = s.sleepers f ∧
      s'.tasks f = s.tasks f ∧ ∀ slot, (s.sleepers f).slot = some slot →
        (s'.timers slot).active = true → s'.timers slot = s.timers slot)
    (owed : ∀ f, s'.owed worker f = true → s.owed worker f = true ∧ SleeperKept s s' f) :
    s'.WorkerOk worker := by
  unfold WorkerOk at *
  rw [work]
  split at ok
  · trivial
  · trivial
  · rename_i f isRegistered
    obtain ⟨sleeper, task, timer⟩ := polled f (by rw [isRegistered]; rfl)
    intro slot placed active
    rw [sleeper] at placed
    have same := timer slot placed active
    rw [same] at active ⊢
    rw [task]
    exact ok slot placed active
  · rename_i f isDue
    show (s'.sleepers f).deadline ≤ s'.now
    rw [(polled f (by rw [isDue]; rfl)).1]
    exact Nat.le_trans ok now
  · refine ⟨Nat.le_trans ok.1 now, fun f isOwed => ?_⟩
    obtain ⟨wasOwed, kept⟩ := owed f isOwed
    rw [kept.sleeper]
    exact ok.2 f wasOwed
  · intro f isOwed
    obtain ⟨wasOwed, kept⟩ := owed f isOwed
    rw [kept.task]
    exact (ok f wasOwed).imp_left kept.woken

/-- A move of one future: the others, and the workers that have no part in it, see nothing. -/
structure OwnMove (s s' : TimeSystem Sleeper Task Worker) (f : Sleeper) (mine : Worker → Prop) :
    Prop where
  now : s'.now = s.now
  others : ∀ g, g ≠ f → SleeperKept s s' g
  timers : ∀ g, g ≠ f → ∀ slot, (s.sleepers g).slot = some slot → s'.timers slot = s.timers slot
  workers : ∀ worker, ¬ mine worker → s'.workers worker = s.workers worker
  quiet : ∀ worker, mine worker → (s.workers worker).advancing = false ∧
    (s'.workers worker).advancing = false
  unpolled : ∀ worker, ¬ mine worker → (s.workers worker).polls ≠ some f
  owed : ∀ worker g, s'.owed worker g = true → s.owed worker g = true ∧ g ≠ f

/-- Nobody but the workers that take part has a waker in hand. -/
theorem OwnMove.inHand {f g : Sleeper} {mine : Worker → Prop} (own : OwnMove s s' f mine)
    (other : g ≠ f) (hand : s.InHand g) : s'.InHand g := by
  obtain ⟨worker, ready, waking, mem⟩ := hand
  have isOther : ¬ mine worker := by
    intro isMine
    have quiet := (own.quiet worker isMine).1
    rw [waking] at quiet
    cases quiet
  exact ⟨worker, ready, (own.workers worker isOther).trans waking, (own.others g other).task ▸ mem⟩

/-- So only the future itself and its worker have to be looked at. -/
theorem Inv.own {f : Sleeper} {mine : Worker → Prop} (inv : s.Inv) (own : OwnMove s s' f mine)
    (polls : Lib.Exclusive (fun worker => (s'.workers worker).polls) fun f => s'.stages f = .polling)
    (alone : ∀ g slot, (s'.sleepers f).slot = some slot → (s.sleepers g).slot = some slot → g = f)
    (sleeper : s'.SleeperOk f) (worker : ∀ worker, mine worker → s'.WorkerOk worker) : s'.Inv where
  polls := polls
  calls one other advances advances' := by
    have notMine : ∀ worker, (s'.workers worker).advancing = true →
        (s.workers worker).advancing = true := by
      intro worker advances
      by_cases isMine : mine worker
      · simp [(own.quiet worker isMine).2] at advances
      · rwa [own.workers worker isMine] at advances
    exact inv.calls one other (notMine one advances) (notMine other advances')
  alone g h slot placed placed' := by
    by_cases isF : g = f <;> by_cases isF' : h = f
    · exact isF.trans isF'.symm
    · subst isF
      rw [(own.others h isF').sleeper] at placed'
      exact absurd (alone h slot placed placed') isF'
    · subst isF'
      rw [(own.others g isF).sleeper] at placed
      exact absurd (alone g slot placed' placed) isF
    · rw [(own.others g isF).sleeper] at placed
      rw [(own.others h isF').sleeper] at placed'
      exact inv.alone g h slot placed placed'
  owed worker g isOwed := by
    obtain ⟨wasOwed, isOther⟩ := own.owed worker g isOwed
    rw [(own.others g isOther).stage]
    exact inv.owed worker g wasOwed
  sleepers g := by
    by_cases isF : g = f
    · exact isF ▸ sleeper
    · exact (inv.sleepers g).frame (own.others g isF) (own.timers g isF) (Nat.le_of_eq own.now.symm)
        fun hand => .inr (own.inHand isF hand)
  workers other := by
    by_cases isMine : mine other
    · exact worker other isMine
    · refine (inv.workers other).frame (own.workers other isMine) (Nat.le_of_eq own.now.symm) ?_ ?_
      · intro g isPolled
        have isOther : g ≠ f := by
          rintro rfl
          exact own.unpolled other isMine isPolled
        exact ⟨(own.others g isOther).sleeper, (own.others g isOther).task,
          fun slot placed _ => own.timers g isOther slot placed⟩
      · intro g isOwed
        obtain ⟨wasOwed, isOther⟩ := own.owed other g isOwed
        exact ⟨wasOwed, own.others g isOther⟩

/-- While a future is polled, only its entry and the clock have to agree with it. -/
theorem SleeperOk.of_polling {f : Sleeper} (polling : s.stages f = .polling)
    (entry : ∀ slot, (s.sleepers f).slot = some slot →
      (s.timers slot).active = true ∧ (s.timers slot).deadline = (s.sleepers f).deadline ∨
      (s.timers slot).active = false ∧ (s.sleepers f).deadline ≤ s.now) : s.SleeperOk f := by
  intro slot placed
  refine ⟨.inl polling, (entry slot placed).imp ?_ ?_⟩
  · rintro ⟨active, deadline⟩
    exact ⟨active, deadline, by simp [polling]⟩
  · rintro ⟨inactive, reached⟩
    exact ⟨inactive, reached, by simp [polling]⟩

theorem SleeperOk.entry {f : Sleeper} (ok : s.SleeperOk f) (slot : TimerSlot)
    (placed : (s.sleepers f).slot = some slot) :
    (s.timers slot).active = true ∧ (s.timers slot).deadline = (s.sleepers f).deadline ∨
      (s.timers slot).active = false ∧ (s.sleepers f).deadline ≤ s.now :=
  (ok slot placed).2.imp (fun h => ⟨h.1, h.2.1⟩) fun h => ⟨h.1, h.2.1⟩

/-- What a move of a worker that is polling a future needs to be its own. -/
theorem OwnMove.of_polling [DecidableEq Worker] {worker : Worker} {f : Sleeper}
    {work : TimeWork Sleeper Task} (inv : s.Inv)
    (polls : (s.workers worker).polls = some f) (now : s'.now = s.now)
    (others : ∀ g, g ≠ f → SleeperKept s s' g)
    (timers : ∀ g, g ≠ f → ∀ slot, (s.sleepers g).slot = some slot → s'.timers slot = s.timers slot)
    (workers : s'.workers = update s.workers worker work)
    (quiet : work.advancing = false) (owed : s'.owed = s.owed) : OwnMove s s' f (· = worker) where
  now := now
  others := others
  timers := timers
  workers other isOther := by
    rw [workers]
    exact update_of_ne isOther ..
  quiet := by
    rintro _ rfl
    refine ⟨?_, by simpa [workers] using quiet⟩
    unfold TimeWork.polls at polls
    split at polls <;> simp_all [TimeWork.advancing]
  unpolled := inv.polls.mine polls
  owed v g isOwed := by
    rw [owed] at isOwed
    refine ⟨isOwed, ?_⟩
    rintro rfl
    have pending := inv.owed v g isOwed
    have polling := inv.polls.marked worker g polls
    simp [polling] at pending

/-- A worker that goes on with its poll has to keep the future's entry in order. -/
theorem Inv.goOn [DecidableEq Worker] {worker : Worker} {f : Sleeper} (inv : s.Inv)
    (work : TimeWork Sleeper Task) (polls : (s.workers worker).polls = some f)
    (goesOn : work.polls = some f) (now : s'.now = s.now)
    (workers : s'.workers = update s.workers worker work) (stages : s'.stages = s.stages)
    (owed : s'.owed = s.owed) (others : ∀ g, g ≠ f → SleeperKept s s' g)
    (timers : ∀ g, g ≠ f → ∀ slot, (s.sleepers g).slot = some slot → s'.timers slot = s.timers slot)
    (alone : ∀ g slot, (s'.sleepers f).slot = some slot → (s.sleepers g).slot = some slot → g = f)
    (entry : ∀ slot, (s'.sleepers f).slot = some slot →
      (s'.timers slot).active = true ∧ (s'.timers slot).deadline = (s'.sleepers f).deadline ∨
      (s'.timers slot).active = false ∧ (s'.sleepers f).deadline ≤ s'.now)
    (ok : s'.WorkerOk worker) : s'.Inv := by
  have quiet : work.advancing = false := by
    unfold TimeWork.polls at goesOn
    split at goesOn <;> simp_all [TimeWork.advancing]
  have polling : s'.stages f = .polling := by
    rw [stages]
    exact inv.polls.marked worker f polls
  refine inv.own (.of_polling inv polls now others timers workers quiet owed) ?_ alone
    (.of_polling polling entry) ?_
  · rw [stages, workers]
    exact inv.polls.update (goesOn.trans polls.symm)
  · rintro _ rfl
    exact ok

end Frames

section Polls

variable [DecidableEq Worker] {worker : Worker} {f : Sleeper} {slot : TimerSlot}

/-- With no place left the task is woken to try again. -/
theorem Inv.allocFull [DecidableEq Task] (inv : s.Inv) (work : s.workers worker = .checked f)
    (unplaced : (s.sleepers f).slot = none) :
    ((s.wakeTask (s.tasks f)).setWorker worker (.registered f)).Inv := by
  refine inv.goOn (.registered f) (by rw [work]; rfl) rfl rfl rfl rfl rfl ?_
    (fun _ _ _ _ => rfl) (fun g slot placed placed' => inv.alone g f slot placed' placed)
    (inv.sleepers f).entry ?_
  · intro g _
    exact ⟨rfl, rfl, rfl, fun isWoken => by simp [setWorker, wakeTask, isWoken]⟩
  · simp [WorkerOk, setWorker, wakeTask, unplaced]

/-- An entry that has been freed is left alone; its time has come. -/
theorem Inv.stale (inv : s.Inv) (work : s.workers worker = .checked f)
    (placed : (s.sleepers f).slot = some slot) (inactive : (s.timers slot).active = false) :
    (s.setWorker worker (.registered f)).Inv := by
  refine inv.goOn (.registered f) (by rw [work]; rfl) rfl rfl rfl rfl rfl
    (fun _ _ => ⟨rfl, rfl, rfl, id⟩) (fun _ _ _ _ => rfl)
    (fun g slot placed placed' => inv.alone g f slot placed' placed) (inv.sleepers f).entry ?_
  simp only [WorkerOk, setWorker, update_self]
  intro slot' placed' active
  cases placed.symm.trans placed'
  simp [inactive] at active

theorem Inv.recheckDue (inv : s.Inv) (work : s.workers worker = .registered f)
    (reached : (s.sleepers f).deadline ≤ s.now) : (s.setWorker worker (.due f)).Inv := by
  refine inv.goOn (.due f) (by rw [work]; rfl) rfl rfl rfl rfl rfl
    (fun _ _ => ⟨rfl, rfl, rfl, id⟩) (fun _ _ _ _ => rfl)
    (fun g slot placed placed' => inv.alone g f slot placed' placed) (inv.sleepers f).entry ?_
  simpa [WorkerOk, setWorker] using reached

/-- The future's own entry is brought up to date. -/
theorem Inv.refresh (inv : s.Inv) (work : s.workers worker = .checked f)
    (placed : (s.sleepers f).slot = some slot) (active : (s.timers slot).active = true) :
    ((s.setTimer slot { s.timers slot with
      deadline := (s.sleepers f).deadline
      waker := some (s.tasks f) }).setWorker worker (.registered f)).Inv := by
  refine inv.goOn (.registered f) (by rw [work]; rfl) rfl rfl rfl rfl rfl
    (fun _ _ => ⟨rfl, rfl, rfl, id⟩) ?_
    (fun g slot placed placed' => inv.alone g f slot placed' placed) ?_ ?_
  · intro g isOther slot' placed'
    have distinct : slot' ≠ slot := by
      rintro rfl
      exact isOther (inv.alone g f slot' placed' placed)
    simp [setWorker, setTimer, distinct]
  · intro slot' placed'
    cases placed.symm.trans placed'
    simp [setWorker, setTimer, active]
  · simp only [WorkerOk, setWorker, update_self]
    intro slot' placed' _
    cases placed.symm.trans placed'
    simp [setTimer]

end Polls

section Futures

variable [DecidableEq Sleeper] {worker : Worker} {f : Sleeper} {slot : TimerSlot}

theorem Inv.made (inv : s.Inv) (absent : s.stages f = .absent) (deadline : Nat) :
    ((s.setSleeper f { deadline, slot := none }).setStage f .fresh).Inv := by
  have free : ∀ other, (s.workers other).polls ≠ some f := inv.polls.free (by simp [absent])
  have own : OwnMove s ((s.setSleeper f { deadline, slot := none }).setStage f .fresh) f
      fun _ => False :=
    { now := rfl
      others := fun g isOther => ⟨by simp [setSleeper, setStage, isOther],
        by simp [setSleeper, setStage, isOther], rfl, id⟩
      timers := fun _ _ _ _ => rfl
      workers := fun _ _ => rfl
      quiet := fun _ never => never.elim
      unpolled := fun other _ => free other
      owed := fun v g isOwed => ⟨isOwed, by
        rintro rfl
        have pending := inv.owed v g isOwed
        simp [absent] at pending⟩ }
  refine inv.own own (inv.polls.setStage free) ?_ ?_ fun _ never => never.elim
  · simp [setSleeper, setStage]
  · simp [SleeperOk, setSleeper, setStage]

/-- What is left of a future that has gone: its place is free, and the others keep theirs. -/
theorem finish_kept (inv : s.Inv) :
    ((s.finish f).sleepers f).slot = none ∧ (∀ g, g ≠ f → SleeperKept s (s.finish f) g) ∧
      ∀ g, g ≠ f → ∀ slot, (s.sleepers g).slot = some slot →
        (s.finish f).timers slot = s.timers slot := by
  unfold finish releaseSlot
  split
  · rename_i mine placed
    refine ⟨by simp [setStage, forgive, setTimer, setSleeper], fun g isOther => ?_,
      fun g isOther slot placed' => ?_⟩
    · exact ⟨by simp [setStage, forgive, setTimer, setSleeper, isOther],
        by simp [setStage, forgive, setTimer, setSleeper, isOther], rfl, id⟩
    · have distinct : slot ≠ mine := by
        rintro rfl
        exact isOther (inv.alone g f slot placed' placed)
      simp [setStage, forgive, setTimer, setSleeper, distinct]
  · rename_i unplaced
    refine ⟨unplaced, fun g isOther => ?_, fun _ _ _ _ => rfl⟩
    exact ⟨rfl, by simp [setStage, forgive, isOther], rfl, id⟩

theorem finish_frame : (s.finish f).now = s.now ∧ (s.finish f).workers = s.workers ∧
    (s.finish f).stages = update s.stages f .absent ∧
    ∀ worker g, (s.finish f).owed worker g = true → s.owed worker g = true ∧ g ≠ f := by
  unfold finish releaseSlot
  split <;> refine ⟨rfl, rfl, rfl, fun worker g isOwed => ?_⟩ <;>
    simpa [setStage, forgive, setTimer, setSleeper] using isOwed

/-- A future that has been dropped is gone. -/
theorem Inv.dropped (inv : s.Inv) (waits : s.stages f = .fresh ∨ s.stages f = .pending) :
    (s.finish f).Inv := by
  have free : ∀ other, (s.workers other).polls ≠ some f :=
    inv.polls.free (by rcases waits with stage | stage <;> simp [stage])
  obtain ⟨unplaced, others, timers⟩ := finish_kept (f := f) inv
  obtain ⟨now, workers, stages, owed⟩ := finish_frame (s := s) (f := f)
  have own : OwnMove s (s.finish f) f fun _ => False :=
    { now := now
      others := others
      timers := timers
      workers := fun other _ => by rw [workers]
      quiet := fun _ never => never.elim
      unpolled := fun other _ => free other
      owed := owed }
  refine inv.own own ?_ ?_ ?_ fun _ never => never.elim
  · rw [workers, stages]
    exact inv.polls.setStage free
  · intro g slot placed
    cases unplaced.symm.trans placed
  · intro slot placed
    cases unplaced.symm.trans placed

variable [DecidableEq Worker]

theorem Inv.polled {task : Task} {work : TimeWork Sleeper Task} (inv : s.Inv)
    (idle : s.workers worker = .idle) (waits : s.stages f = .fresh ∨ s.stages f = .pending)
    (looked : work = .due f ∧ (s.sleepers f).deadline ≤ s.now ∨ work = .checked f) :
    ((s.beginPoll f task).setWorker worker work).Inv := by
  have free : ∀ other, (s.workers other).polls ≠ some f :=
    inv.polls.free (by rcases waits with stage | stage <;> simp [stage])
  have polls : work.polls = some f := by rcases looked with ⟨rfl, -⟩ | rfl <;> rfl
  have quiet : work.advancing = false := by rcases looked with ⟨rfl, -⟩ | rfl <;> rfl
  have own : OwnMove s ((s.beginPoll f task).setWorker worker work) f (· = worker) :=
    { now := rfl
      others := fun g isOther => ⟨rfl, by simp [setWorker, beginPoll, setStage, forgive, isOther],
        by simp [setWorker, beginPoll, isOther], by simp [setWorker, beginPoll, isOther]⟩
      timers := fun _ _ _ _ => rfl
      workers := fun other isOther => by
        simp [setWorker, beginPoll, setStage, forgive, isOther]
      quiet := by
        rintro _ rfl
        exact ⟨by rw [idle]; rfl, by simpa [setWorker] using quiet⟩
      unpolled := fun other _ => free other
      owed := fun v g isOwed => by simpa [setWorker, beginPoll, setStage, forgive] using isOwed }
  refine inv.own own (inv.polls.updateStage (fun other _ => free other) (.inr ⟨polls, rfl⟩)) ?_ ?_ ?_
  · intro g slot placed placed'
    exact inv.alone g f slot placed' placed
  · exact .of_polling (by simp [setWorker, beginPoll, setStage]) (inv.sleepers f).entry
  · rintro _ rfl
    rcases looked with ⟨rfl, reached⟩ | rfl
    · simpa [WorkerOk, setWorker, beginPoll, setStage, forgive] using reached
    · simp [WorkerOk, setWorker]

/-- A place that nobody remembers becomes the future's own. -/
theorem Inv.alloc (inv : s.Inv) (work : s.workers worker = .checked f)
    (unremembered : ∀ g, (s.sleepers g).slot ≠ some slot) :
    (((s.setSleeper f { s.sleepers f with slot := some slot }).setTimer slot
      { active := true, deadline := (s.sleepers f).deadline, waker := some (s.tasks f) }).setWorker
        worker (.registered f)).Inv := by
  set s' := ((s.setSleeper f { s.sleepers f with slot := some slot }).setTimer slot
      { active := true, deadline := (s.sleepers f).deadline, waker := some (s.tasks f) }).setWorker
        worker (.registered f) with eq
  have own : ∀ slot', (s'.sleepers f).slot = some slot' → slot' = slot := by
    intro slot' placed
    simpa [eq, setWorker, setTimer, setSleeper, eq_comm] using placed
  refine inv.goOn (.registered f) (by rw [work]; rfl) rfl rfl rfl rfl rfl ?_ ?_ ?_ ?_ ?_
  · intro g isOther
    exact ⟨by simp [eq, setWorker, setTimer, setSleeper, isOther], rfl, rfl, id⟩
  · intro g isOther slot' placed
    have distinct : slot' ≠ slot := by
      rintro rfl
      exact unremembered g placed
    simp [eq, setWorker, setTimer, setSleeper, distinct]
  · intro g slot' placed placed'
    exact absurd (own slot' placed ▸ placed') (unremembered g)
  · intro slot' placed
    cases own slot' placed
    simp [eq, setWorker, setTimer, setSleeper]
  · simp only [WorkerOk, eq, setWorker, update_self]
    intro slot' placed _
    cases own slot' placed
    simp [setTimer, setSleeper]

/-- Before its deadline a future still has its entry, so it may pend. -/
theorem Inv.recheckEarly (inv : s.Inv) (work : s.workers worker = .registered f)
    (early : s.now < (s.sleepers f).deadline) :
    ((s.setStage f .pending).setWorker worker .idle).Inv := by
  have polls : (s.workers worker).polls = some f := by rw [work]; rfl
  have registered := inv.workers worker
  rw [WorkerOk, work] at registered
  refine inv.own (.of_polling inv polls rfl ?_ ?_ rfl rfl rfl)
    (inv.polls.updateStage (inv.polls.mine polls) (.inl rfl)) ?_ ?_ ?_
  · intro g isOther
    exact ⟨rfl, by simp [setWorker, setStage, isOther], rfl, id⟩
  · exact fun _ _ _ _ => rfl
  · intro g slot placed placed'
    exact inv.alone g f slot placed' placed
  · intro slot placed
    refine ⟨.inr (by simp [setWorker, setStage]), .inl ?_⟩
    rcases (inv.sleepers f).entry slot placed with ⟨active, deadline⟩ | ⟨_, reached⟩
    · exact ⟨active, deadline, fun _ => registered slot placed active⟩
    · omega
  · rintro _ rfl
    simp [WorkerOk, setWorker]

/-- A future that has completed is gone. -/
theorem Inv.complete (inv : s.Inv) (work : s.workers worker = .due f) :
    ((s.finish f).setWorker worker .idle).Inv := by
  have polls : (s.workers worker).polls = some f := by rw [work]; rfl
  obtain ⟨unplaced, others, timers⟩ := finish_kept (f := f) inv
  obtain ⟨now, workers, stages, owed⟩ := finish_frame (s := s) (f := f)
  have own : OwnMove s ((s.finish f).setWorker worker .idle) f (· = worker) :=
    { now := now
      others := fun g isOther => ⟨(others g isOther).sleeper, (others g isOther).stage,
        (others g isOther).task, (others g isOther).woken⟩
      timers := timers
      workers := fun other isOther => by simp [setWorker, workers, isOther]
      quiet := by
        rintro _ rfl
        exact ⟨by rw [work]; rfl, by simp [setWorker, TimeWork.advancing]⟩
      unpolled := inv.polls.mine polls
      owed := owed }
  refine inv.own own ?_ ?_ ?_ ?_
  · show Lib.Exclusive (fun other => (update (s.finish f).workers worker .idle other).polls)
      fun f' => (s.finish f).stages f' = .polling
    rw [workers, stages]
    exact inv.polls.updateStage (inv.polls.mine polls) (.inl rfl)
  · intro g slot placed
    cases unplaced.symm.trans placed
  · intro slot placed
    cases unplaced.symm.trans placed
  · rintro _ rfl
    simp [WorkerOk, setWorker]

end Futures

section Clock

variable {worker : Worker} {ticks : Nat}

/-- The wakers a call takes are those of the entries whose time has come. -/
theorem mem_expired {slot : TimerSlot} {task : Task} (expired : (s.timers slot).expired ticks = true)
    (waker : (s.timers slot).waker = some task) :
    task ∈ (List.finRange maxTimers).filterMap fun slot =>
      if (s.timers slot).expired ticks then (s.timers slot).waker else none := by
  rw [List.mem_filterMap]
  exact ⟨slot, List.mem_finRange slot, by rw [if_pos expired, waker]⟩

variable [DecidableEq Worker]

/-- Among the calls that advance the clock there is one at most. -/
theorem Inv.calls_update {work : TimeWork Sleeper Task} (inv : s.Inv)
    (fits : work.advancing = true → (s.workers worker).advancing = true ∨
      ∀ other, (s.workers other).advancing = false) (one other : Worker)
    (advances : (update s.workers worker work one).advancing = true)
    (advances' : (update s.workers worker work other).advancing = true) : one = other := by
  -- Whatever the worker does now, it is the one that advances, or nobody else does.
  have apart (other : Worker) (isNow : work.advancing = true) (isOther : (s.workers other).advancing = true) :
      worker = other := by
    rcases fits isNow with already | nobody
    · exact inv.calls worker other already isOther
    · cases (nobody other).symm.trans isOther
  revert advances advances'
  refine Lib.update_elim one (Lib.update_elim other (fun _ _ => rfl) fun other _ => apart other) fun one _ => ?_
  exact Lib.update_elim other (fun is isNow => (apart one isNow is).symm) fun other _ => inv.calls one other

/-- Time moves on; the futures that are due now are owed a wake-up. -/
theorem Inv.advance [DecidableEq Sleeper] (inv : s.Inv) (idle : s.workers worker = .idle)
    (later : s.now ≤ ticks) (alone : ∀ other, (s.workers other).advancing = false) :
    (s.advance worker ticks).Inv where
  polls := inv.polls.update (by rw [idle]; rfl)
  calls := inv.calls_update fun _ => .inr alone
  alone := inv.alone
  owed other f isOwed := by
    by_cases isWorker : other = worker
    · simp only [TimeSystem.advance, isWorker, update_self, Bool.and_eq_true,
        decide_eq_true_eq] at isOwed
      exact isOwed.1.1
    · simp only [TimeSystem.advance, update_of_ne isWorker] at isOwed
      exact inv.owed other f isOwed
  sleepers f := by
    refine (inv.sleepers f).frame ⟨rfl, rfl, rfl, id⟩ (fun _ _ => rfl) later ?_
    rintro ⟨other, ready, waking, mem⟩
    have advances := alone other
    rw [waking] at advances
    cases advances
  workers other := by
    by_cases isWorker : other = worker
    · subst isWorker
      simp only [WorkerOk, TimeSystem.advance, setWorker, update_self, Bool.and_eq_true,
        decide_eq_true_eq]
      refine ⟨Nat.le_refl _, fun f isOwed => ⟨?_, isOwed.2⟩⟩
      exact Option.isSome_iff_ne_none.mp isOwed.1.2
    · refine (inv.workers other).frame (by simp [TimeSystem.advance, setWorker, isWorker]) later
        (fun _ _ => ⟨rfl, rfl, fun _ _ _ => rfl⟩) fun f isOwed => ⟨?_, rfl, rfl, rfl, id⟩
      simpa only [TimeSystem.advance, update_of_ne isWorker] using isOwed

/-- The entries that are freed belong to futures whose time has come, and their wakers are in hand. -/
theorem Inv.expire (inv : s.Inv) (work : s.workers worker = .stored ticks) :
    (s.expire worker ticks).Inv := by
  have reached := inv.workers worker
  rw [WorkerOk, work] at reached
  obtain ⟨past, owed⟩ := reached
  have advances : (s.workers worker).advancing = true := by rw [work]; rfl
  -- No other call has wakers in hand.
  have noHand : ∀ f, ¬ s.InHand f := by
    rintro f ⟨other, ready, waking, -⟩
    cases inv.calls worker other advances (by rw [waking]; rfl)
    cases work.symm.trans waking
  have inactive : ∀ slot, (s.timers slot).active = false →
      (s.expire worker ticks).timers slot = s.timers slot := by
    intro slot inactive
    simp [TimeSystem.expire, Timer.expired, inactive]
  have active : ∀ slot, ((s.expire worker ticks).timers slot).active = true →
      (s.expire worker ticks).timers slot = s.timers slot := by
    intro slot active
    simp only [TimeSystem.expire] at active ⊢
    split at active
    · cases active
    · rename_i unexpired
      rw [if_neg unexpired]
  refine ⟨inv.polls.update (by rw [work]; rfl), inv.calls_update fun _ => .inl advances, inv.alone,
    inv.owed, fun f slot placed => ?_, fun other => ?_⟩
  · obtain ⟨stage, entry⟩ := inv.sleepers f slot placed
    refine ⟨stage, ?_⟩
    rcases entry with ⟨isActive, deadline, waker⟩ | ⟨isInactive, due, told⟩
    · by_cases expired : (s.timers slot).expired ticks = true
      · -- The entry is freed: the deadline has passed, and the call has the waker.
        have isDue : (s.timers slot).deadline ≤ ticks := by
          simpa [Timer.expired, isActive] using expired
        refine .inr ⟨by simp [TimeSystem.expire, expired, Timer.release], ?_, fun pending => .inr ?_⟩
        · exact Nat.le_trans (deadline ▸ isDue) past
        · exact ⟨worker, _, by simp [TimeSystem.expire], mem_expired expired (waker pending)⟩
      · have same : (s.expire worker ticks).timers slot = s.timers slot := by
          simp [TimeSystem.expire, expired]
        rw [same]
        exact .inl ⟨isActive, deadline, waker⟩
    · rw [inactive slot isInactive]
      refine .inr ⟨isInactive, due, fun pending => .inl ?_⟩
      exact (told pending).resolve_right (noHand f)
  · by_cases isWorker : other = worker
    · subst isWorker
      simp only [WorkerOk, TimeSystem.expire, update_self]
      intro f isOwed
      obtain ⟨placed, isDue⟩ := owed f isOwed
      obtain ⟨slot, placed⟩ := Option.ne_none_iff_exists'.mp placed
      have pending := inv.owed other f isOwed
      rcases (inv.sleepers f slot placed).2 with ⟨isActive, deadline, waker⟩ | ⟨_, _, told⟩
      · refine .inr (mem_expired ?_ (waker pending))
        simpa [Timer.expired, isActive, deadline] using isDue
      · exact .inl ((told pending).resolve_right (noHand f))
    · exact (inv.workers other).frame (by simp [TimeSystem.expire, isWorker]) (Nat.le_refl _)
        (fun _ _ => ⟨rfl, rfl, fun slot _ isActive => active slot isActive⟩)
        fun f isOwed => ⟨isOwed, rfl, rfl, rfl, id⟩

/-- A call spends the wakers that it has in hand, and returns when it has none. -/
theorem Inv.spend {ready : List Task} {work' : TimeWork Sleeper Task} {woken : Sleeper → Bool} (inv : s.Inv)
    (work : s.workers worker = .waking ready) (more : ∀ f, s.woken f = true → woken f = true)
    (spent : work' = .idle ∧ ready = [] ∨
      ∃ rest, work' = .waking rest ∧ ∀ f, s.tasks f ∈ ready → woken f = true ∨ s.tasks f ∈ rest) :
    Inv { s with woken, workers := update s.workers worker work' } := by
  have kept (f) : SleeperKept s { s with woken, workers := update s.workers worker work' } f :=
    ⟨rfl, rfl, rfl, more f⟩
  refine ⟨inv.polls.update ?_, inv.calls_update fun _ => .inl (by rw [work]; rfl), inv.alone, inv.owed,
    fun f => ?_, fun other => ?_⟩
  · rw [work]
    rcases spent with ⟨rfl, -⟩ | ⟨rest, rfl, -⟩ <;> rfl
  · refine (inv.sleepers f).frame (kept f) (fun _ _ => rfl) (Nat.le_refl _) ?_
    rintro ⟨other, ready', waking, mem⟩
    by_cases isWorker : other = worker
    · subst isWorker
      cases work.symm.trans waking
      rcases spent with ⟨-, rfl⟩ | ⟨rest, rfl, told⟩
      · cases mem
      · exact (told f mem).imp_right fun mem => ⟨other, rest, update_self .., mem⟩
    · exact .inr ⟨other, ready', (update_of_ne isWorker ..).trans waking, mem⟩
  · by_cases isWorker : other = worker
    · subst isWorker
      have owed := inv.workers other
      rw [WorkerOk, work] at owed
      simp only [WorkerOk, update_self]
      rcases spent with ⟨rfl, -⟩ | ⟨rest, rfl, told⟩
      · trivial
      · exact fun f isOwed => (owed f isOwed).elim (fun isWoken => .inl (more f isWoken)) (told f)
    · exact (inv.workers other).frame (update_of_ne isWorker ..) (Nat.le_refl _)
        (fun _ _ => ⟨rfl, rfl, fun _ _ _ => rfl⟩) fun f isOwed => ⟨isOwed, kept f⟩

end Clock

section Runs

variable [DecidableEq Sleeper] [DecidableEq Task] [DecidableEq Worker]

/--
A place is given only if no other future remembers it, time does not go back, and one call at a
time advances it.
-/
def Orderly (s : TimeSystem Sleeper Task Worker) : TimeMove Sleeper Task Worker → Prop
  | .register worker => ∀ f slot, s.workers worker = .checked f → (s.sleepers f).slot = none →
      s.freeTimer = some slot → ∀ g, (s.sleepers g).slot ≠ some slot
  | .advance _ ticks => s.now ≤ ticks ∧ ∀ other, (s.workers other).advancing = false
  | _ => True

/-- Every orderly move keeps the invariant. -/
theorem Inv.step (inv : s.Inv) (moved : s.step move = some s') (orderly : s.Orderly move) : s'.Inv := by
  cases move with
  | sleepUntil f deadline =>
    obtain ⟨absent, ⟨⟩⟩ := Option.ite_none_right_eq_some.mp moved
    exact inv.made absent deadline
  | poll worker f task =>
    obtain ⟨⟨idle, waits⟩, ⟨⟩⟩ := Option.ite_none_right_eq_some.mp moved
    unfold poll
    split
    · rename_i reached
      exact inv.polled idle waits (.inl ⟨rfl, reached⟩)
    · exact inv.polled idle waits (.inr rfl)
  | register worker =>
    simp only [TimeSystem.step, register] at moved
    split at moved <;> cases moved
    rename_i f work
    split
    · rename_i unplaced
      unfold allocTimer
      split
      · rename_i slot free
        exact inv.alloc work (orderly f slot work unplaced free)
      · exact inv.allocFull work unplaced
    · rename_i slot placed
      unfold refreshTimer
      split
      · rename_i active
        exact inv.refresh work placed active
      · rename_i inactive
        exact inv.stale work placed (Bool.eq_false_iff.mpr inactive)
  | recheck worker =>
    simp only [TimeSystem.step, recheck] at moved
    split at moved <;> cases moved
    rename_i f work
    split
    · rename_i reached
      exact inv.recheckDue work reached
    · rename_i early
      exact inv.recheckEarly work (Nat.lt_of_not_le early)
  | complete worker =>
    simp only [TimeSystem.step] at moved
    split at moved <;> cases moved
    rename_i f work
    exact inv.complete work
  | drop f =>
    obtain ⟨waits, ⟨⟩⟩ := Option.ite_none_right_eq_some.mp moved
    exact inv.dropped waits
  | advance worker ticks =>
    obtain ⟨idle, ⟨⟩⟩ := Option.ite_none_right_eq_some.mp moved
    exact inv.advance idle orderly.1 orderly.2
  | expire worker =>
    simp only [TimeSystem.step] at moved
    split at moved <;> cases moved
    rename_i ticks work
    exact inv.expire work
  | wake worker =>
    simp only [TimeSystem.step] at moved
    split at moved <;> cases moved
    · rename_i task rest work
      refine inv.spend work (fun f isWoken => ?_) (.inr ⟨rest, rfl, fun f mem => ?_⟩)
      · simp [wakeTask, isWoken]
      · exact (List.mem_cons.mp mem).imp_left fun isTask => by simp [wakeTask, isTask]
    · rename_i work
      exact inv.spend work (fun _ => id) (.inl ⟨rfl, rfl⟩)

/-- The states reached from time zero by moves that meet a condition where they are made. -/
abbrev Reached (allowed : TimeSystem Sleeper Task Worker → TimeMove Sleeper Task Worker → Prop)
    (task : Task) : TimeSystem Sleeper Task Worker → Prop :=
  Lib.Run step allowed (start task)

theorem Inv.of_reached {task : Task} (run : Reached Orderly task s) : s.Inv :=
  run.keeps Inv (.start task) fun _ _ _ inv moved orderly => inv.step moved orderly

/--
While places are given only when nobody else remembers them, time does not go back and calls that
advance it do not overlap, no timer is stolen: a pending future is the only one with its place, a
call that advances the clock returns only after every future that was due has been woken, and a
future completes only once its deadline has been reached.
-/
theorem timers_not_stolen (task : Task) (run : Reached Orderly task s) :
    (∀ f g slot, s.stages f = .pending → (s.sleepers f).slot = some slot →
      (s.sleepers g).slot = some slot → g = f) ∧
    (∀ worker, s.workers worker = .waking [] → ∀ f, s.owed worker f = true → s.woken f = true) ∧
    ∀ worker f, s.workers worker = .due f → (s.sleepers f).deadline ≤ s.now := by
  have inv := Inv.of_reached run
  refine ⟨fun f g slot _ placed placed' => inv.alone g f slot placed' placed, ?_, ?_⟩
  · intro worker returns f isOwed
    have owed := inv.workers worker
    rw [WorkerOk, returns] at owed
    simpa using owed f isOwed
  · intro worker f isDue
    have due := inv.workers worker
    rwa [WorkerOk, isDue] at due

/-- Of two sleepers with places of their own, the one whose deadline comes is woken before the call returns. -/
theorem timers_not_stolen_once :
    ∃ s : TimeSystem (Fin 2) (Fin 2) (Fin 1),
      Lib.moves step (start 0) [.sleepUntil 0 5, .sleepUntil 1 9, .poll 0 0 0, .register 0, .recheck 0,
        .poll 0 1 1, .register 0, .recheck 0, .advance 0 5, .expire 0, .wake 0] = some s ∧
      (s.sleepers 0).slot = some ⟨0, by decide⟩ ∧ (s.sleepers 1).slot = some ⟨1, by decide⟩ ∧ s.workers 0 = .waking [] ∧
      s.owed 0 0 = true ∧ s.stages 1 = .pending ∧
      (∀ f g slot, s.stages f = .pending → (s.sleepers f).slot = some slot →
        (s.sleepers g).slot = some slot → g = f) ∧
      (∀ worker, s.workers worker = .waking [] → ∀ f, s.owed worker f = true → s.woken f = true) ∧
      ∀ worker f, s.workers worker = .due f → (s.sleepers f).deadline ≤ s.now := by
  refine ⟨_, rfl, rfl, rfl, rfl, rfl, rfl, timers_not_stolen 0 ?_⟩
  have run : Reached Orderly (0 : Fin 2) (start 0 : TimeSystem (Fin 2) (Fin 2) (Fin 1)) := .start
  have run := ((run.move (.sleepUntil 0 5) rfl trivial).move (.sleepUntil 1 9) rfl trivial).move (.poll 0 0 0) rfl trivial
  -- The place that is given is remembered by nobody, also when the other sleeper has one already.
  have run := run.move (.register 0) rfl (by unfold Orderly; decide +kernel)
  have run := (run.move (.recheck 0) rfl trivial).move (.poll 0 1 1) rfl trivial
  have run := run.move (.register 0) rfl (by unfold Orderly; decide +kernel)
  have run := (run.move (.recheck 0) rfl trivial).move (.advance 0 5) rfl (by unfold Orderly; decide +kernel)
  exact (run.move (.expire 0) rfl trivial).move (.wake 0) rfl trivial

/--
When the first sleeper's time comes its place is freed, though it still remembers it, and the second
sleeper is given the same place. Once the first is polled it frees the place again: at the second
deadline nobody wakes the second sleeper.
-/
theorem freed_place_is_stolen :
    ∃ s : TimeSystem (Fin 2) (Fin 2) (Fin 1), Reached (fun _ _ => True) 0 s ∧
      s.workers 0 = .waking [] ∧ s.owed 0 1 = true ∧ s.woken 1 = false :=
  ⟨_, Lib.Run.start.of_moves [.sleepUntil 0 1, .sleepUntil 1 2, .poll 0 0 0, .register 0,
    .recheck 0, .advance 0 1, .expire 0, .wake 0, .wake 0, .poll 0 1 1, .register 0, .recheck 0,
    .poll 0 0 0, .complete 0, .advance 0 2, .expire 0] rfl, by decide⟩

end Runs

end TimeSystem

end Rel4.Rt
