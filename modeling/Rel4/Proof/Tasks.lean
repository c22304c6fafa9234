import Mathlib.Data.Fintype.Card
import Rel4.Lib.Interleave
import Rel4.Rt.Executor

/-! The executor polls a task on one thread at a time, and keeps the tokens of ready tasks. -/

namespace Rel4.Rt

open Function (update update_of_ne update_self)

namespace ExecWork

/-- The slot a thread answers for: it will queue it, run it, or empty it. -/
def holds : ExecWork → Option TaskId
  | .allocated slot | .storedPoll slot | .storedDrop slot | .aged slot => some slot
  | .loaded token | .enqueuing token | .dequeued token | .matched token | .running token
  | .polling token | .pended token | .finished token | .dropped token | .clearedPoll token
  | .clearedDrop token => some token.slot
  | _ => none

/-- The token a thread answers for. -/
def token : ExecWork → Option Token
  | .loaded token | .enqueuing token | .dequeued token | .matched token | .running token
  | .polling token | .pended token | .finished token | .dropped token | .clearedPoll token
  | .clearedDrop token => some token
  | _ => none

/-- The slot a thread answers for is ready, and nobody else can make it run. -/
def prepares : ExecWork → Bool
  | .allocated _ | .storedPoll _ | .storedDrop _ | .loaded _ | .enqueuing _ | .dequeued _
  | .matched _ => true
  | _ => false

/--
The slot whose token a thread has yet to queue, once the slot has been made ready: a thread that
spawns it or has woken it, or the one that polls it and finds at the end that it has been woken.
-/
def queues : ExecWork → Option TaskId
  | .allocated slot | .storedPoll slot | .storedDrop slot => some slot
  | .loaded token | .enqueuing token | .running token | .polling token | .pended token =>
    some token.slot
  | _ => none

/-- The token with which a thread is about to start a poll. -/
def takes : ExecWork → Option Token
  | .dequeued token | .matched token => some token
  | _ => none

/-- The slot of a task that a thread has seen to its end. -/
def ends : ExecWork → Option TaskId
  | .finished token | .dropped token | .clearedPoll token | .clearedDrop token => some token.slot
  | .aged slot => some slot
  | _ => none

/-- A thread that answers for a slot will queue it, is about to poll it, or ends it. -/
theorem cases_of_holds {work : ExecWork} {slot : TaskId} (holds : work.holds = some slot) :
    work.queues = some slot ∨ (∃ token, work.takes = some token ∧ token.slot = slot) ∨
      work.ends = some slot := by
  cases work <;> cases holds <;> simp [queues, takes, ends]

theorem token_of_takes {work : ExecWork} {token : Token} (has : work.takes = some token) :
    work.token = some token ∧ work.prepares = true := by
  cases work <;> cases has <;> exact ⟨rfl, rfl⟩

/-- A thread that goes to wake a slot has seen it wait or run. -/
def sawSleep : ExecWork → Prop
  | .seen _ state => state = .waiting ∨ state = .running
  | _ => True

theorem holds_of_token {work : ExecWork} {token : Token} (has : work.token = some token) :
    work.holds = some token.slot := by
  cases work <;> cases has <;> rfl

end ExecWork

namespace Executor

variable {Thread : Type} {s s' : Executor Thread} {move : ExecMove Thread}

/-- The slot is on its way to a poll, or in one. -/
def Busy (s : Executor Thread) (slot : TaskId) : Prop :=
  (s.tasks slot).state = .ready ∨ (s.tasks slot).state = .running

/-- What a thread may rely on: its slot is not touched by others, but for waking it. -/
structure WorkOk (s : Executor Thread) (work : ExecWork) : Prop where
  ready : ∀ slot, work.holds = some slot → work.prepares = true → (s.tasks slot).state = .ready
  current : ∀ token, work.token = some token →
    token.generation = (s.tasks token.slot).generation
  saw : work.sawSleep

/-- What holds in every state while no wake comes too late for its generation. -/
structure Inv (s : Executor Thread) : Prop where
  jobs : Lib.Exclusive (fun thread => (s.threads thread).holds) s.Busy
  works : ∀ thread, s.WorkOk (s.threads thread)
  queued : ∀ token ∈ s.queue, (s.tasks token.slot).state = .ready ∧
    token.generation = (s.tasks token.slot).generation
  apart : ∀ token ∈ s.queue, ∀ thread, (s.threads thread).holds ≠ some token.slot
  nodup : (s.queue.map Token.slot).Nodup
  served : ∀ slot, s.Busy slot →
    (∃ token ∈ s.queue, token.slot = slot) ∨ ∃ thread, (s.threads thread).holds = some slot

theorem Inv.start : (Executor.start : Executor Thread).Inv where
  jobs := ⟨fun _ _ holds => (by cases holds), fun _ _ _ holds => (by cases holds)⟩
  works _ := ⟨nofun, nofun, trivial⟩
  queued _ mem := by cases mem
  apart _ mem := by cases mem
  nodup := .nil
  served _ busy := by rcases busy with state | state <;> cases state

/-- A thread's work is as it should be as long as its own slot is left alone. -/
theorem WorkOk.frame {work : ExecWork} (ok : s.WorkOk work)
    (kept : ∀ slot, work.holds = some slot → s'.tasks slot = s.tasks slot) : s'.WorkOk work where
  ready slot holds prepares := by
    rw [kept slot holds]
    exact ok.ready slot holds prepares
  current token has := by
    rw [kept token.slot (ExecWork.holds_of_token has)]
    exact ok.current token has
  saw := ok.saw

/-- Work on no slot at all needs nothing. -/
theorem WorkOk.of_none {work : ExecWork} (nothing : work.holds = none) (saw : work.sawSleep) :
    s.WorkOk work where
  ready slot holds := by simp [nothing] at holds
  current token has := by simp [ExecWork.holds_of_token has] at nothing
  saw := saw

/-- Work on a slot needs the slot to be as the work says. -/
theorem WorkOk.of_holds {work : ExecWork} {slot : TaskId} (holds : work.holds = some slot)
    (ready : work.prepares = true → (s.tasks slot).state = .ready)
    (current : ∀ token, work.token = some token → token.generation = (s.tasks slot).generation)
    (saw : work.sawSleep) : s.WorkOk work where
  ready slot' holds' := by
    cases holds.symm.trans holds'
    exact ready
  current token has := by
    cases holds.symm.trans (ExecWork.holds_of_token has)
    exact current token has
  saw := saw

section Turns

variable [DecidableEq Thread] {thread : Thread} {work : ExecWork} {slot : TaskId}

section

variable (inv : s.Inv)
include inv

/-- A thread turns to other work on a slot that nobody else answers for. -/
theorem Inv.turn (threads : s'.threads = update s.threads thread work)
    (queue : s'.queue = s.queue) (tasks : ∀ other, other ≠ slot → s'.tasks other = s.tasks other)
    (free : ∀ other, other ≠ thread → (s.threads other).holds ≠ some slot)
    (unqueued : ∀ token ∈ s.queue, token.slot ≠ slot)
    (before : (s.threads thread).holds = none ∨ (s.threads thread).holds = some slot)
    (after : work.holds = none ∧ ¬ s'.Busy slot ∨ work.holds = some slot ∧ s'.Busy slot)
    (ok : s'.WorkOk work) : s'.Inv := by
  have mine : s'.threads thread = work := by simp [threads]
  have theirs (other) (isOther : other ≠ thread) : s'.threads other = s.threads other := by
    simp [threads, isOther]
  have same (other) (isOther : other ≠ slot) : s'.Busy other ↔ s.Busy other := by
    unfold Busy
    rw [tasks other isOther]
  refine ⟨inv.jobs.turn thread slot (fun other isOther => by rw [theirs other isOther]) free ?_
    fun other isOther => (same other isOther).mpr, fun other => ?_, ?_, ?_, queue ▸ inv.nodup, ?_⟩
  · rw [mine]
    exact after.imp_left And.left
  · by_cases isThread : other = thread
    · rw [isThread, mine]
      exact ok
    · have prior := inv.works other
      rw [theirs other isThread]
      refine prior.frame fun held holds => tasks held ?_
      rintro rfl
      exact free other isThread holds
  · intro token mem
    rw [queue] at mem
    rw [tasks token.slot (unqueued token mem)]
    exact inv.queued token mem
  · intro token mem other holds
    rw [queue] at mem
    by_cases isThread : other = thread
    · rw [isThread, mine] at holds
      rcases after with ⟨nothing, -⟩ | ⟨isSlot, -⟩
      · cases nothing.symm.trans holds
      · exact unqueued token mem (Option.some.inj (holds.symm.trans isSlot))
    · rw [theirs other isThread] at holds
      exact inv.apart token mem other holds
  · intro other busy
    by_cases isSlot : other = slot
    · have holds := after.resolve_left fun none => none.2 (isSlot ▸ busy)
      exact .inr ⟨thread, by rw [mine, isSlot, holds.1]⟩
    · rcases inv.served other ((same other isSlot).mp busy) with ⟨token, mem, isToken⟩ | ⟨holder, holds⟩
      · exact .inl ⟨token, queue ▸ mem, isToken⟩
      · have isOther : holder ≠ thread := by
          rintro rfl
          rcases before with nothing | isSlot'
          · simp [nothing] at holds
          · exact isSlot (Option.some.inj (holds.symm.trans isSlot'))
        exact .inr ⟨holder, by rw [theirs holder isOther]; exact holds⟩

/-- A thread that answers for no slot may turn to anything that answers for none. -/
theorem Inv.aside (before : (s.threads thread).holds = none)
    (after : work.holds = none) (saw : work.sawSleep) : (s.setThread thread work).Inv := by
  have same : ∀ other, ((s.setThread thread work).threads other).holds = (s.threads other).holds := by
    intro other
    by_cases isThread : other = thread
    · simp [setThread, isThread, before, after]
    · simp [setThread, isThread]
  refine ⟨inv.jobs.stay same fun _ => id, fun other => ?_, inv.queued, ?_, inv.nodup, ?_⟩
  · by_cases isThread : other = thread
    · subst isThread
      simpa [setThread] using WorkOk.of_none after saw
    · have prior := inv.works other
      simp only [setThread, update_of_ne isThread]
      exact prior.frame fun _ _ => rfl
  · intro token mem other holds
    exact inv.apart token mem other (same other ▸ holds)
  · intro slot busy
    rcases inv.served slot busy with inQueue | ⟨holder, holds⟩
    · exact .inl inQueue
    · exact .inr ⟨holder, (same holder).trans holds⟩

/-- A thread goes on with the slot it answers for. -/
theorem Inv.goOn (holds : (s.threads thread).holds = some slot)
    (threads : s'.threads = update s.threads thread work) (queue : s'.queue = s.queue)
    (tasks : ∀ other, other ≠ slot → s'.tasks other = s.tasks other)
    (after : work.holds = some slot) (busy : s'.Busy slot) (ok : s'.WorkOk work) : s'.Inv :=
  inv.turn threads queue tasks (inv.jobs.mine holds)
    (fun token mem same => inv.apart token mem thread (same ▸ holds)) (.inr holds) (.inr ⟨after, busy⟩) ok

/-- A thread leaves the slot it answers for, which is not on its way to a poll any more. -/
theorem Inv.leave (holds : (s.threads thread).holds = some slot)
    (threads : s'.threads = update s.threads thread .idle) (queue : s'.queue = s.queue)
    (tasks : ∀ other, other ≠ slot → s'.tasks other = s.tasks other) (done : ¬ s'.Busy slot) :
    s'.Inv :=
  inv.turn threads queue tasks (inv.jobs.mine holds)
    (fun token mem same => inv.apart token mem thread (same ▸ holds)) (.inr holds) (.inl ⟨rfl, done⟩)
    (.of_none rfl trivial)

/-- A thread takes a slot that was not on its way to a poll. -/
theorem Inv.take (before : (s.threads thread).holds = none) (rests : ¬ s.Busy slot)
    (threads : s'.threads = update s.threads thread work) (queue : s'.queue = s.queue)
    (tasks : ∀ other, other ≠ slot → s'.tasks other = s.tasks other)
    (after : work.holds = some slot) (busy : s'.Busy slot) (ok : s'.WorkOk work) : s'.Inv :=
  inv.turn threads queue tasks (fun other _ => inv.jobs.free rests other)
    (fun token mem same => rests (same ▸ .inl (inv.queued token mem).1)) (.inl before) (.inr ⟨after, busy⟩) ok

/-- Waking a slot that runs leaves it to the thread that polls it. -/
theorem Inv.rouse (before : (s.threads thread).holds = none)
    (runs : (s.tasks slot).state = .running) : ((s.setState slot .ready).setThread thread .idle).Inv := by
  have state : ∀ other, s.Busy other ↔ (s.setState slot .ready).Busy other := by
    intro other
    by_cases isSlot : other = slot
    · simp [Busy, setState, setTask, isSlot, runs]
    · simp [Busy, setState, setTask, isSlot]
  have generation : ∀ other, ((s.setState slot .ready).tasks other).generation =
      (s.tasks other).generation := by
    intro other
    by_cases isSlot : other = slot
    · simp [setState, setTask, isSlot]
    · simp [setState, setTask, isSlot]
  have ready : ∀ other, (s.tasks other).state = .ready →
      ((s.setState slot .ready).tasks other).state = .ready := by
    intro other isReady
    by_cases isSlot : other = slot
    · simp [setState, setTask, isSlot]
    · simpa [setState, setTask, isSlot] using isReady
  have roused : (s.setState slot .ready).Inv := by
    refine ⟨inv.jobs.stay (fun _ => rfl) fun other => (state other).mp, fun other => ?_, fun token mem => ?_,
      inv.apart, inv.nodup, fun other busy => inv.served other ((state other).mpr busy)⟩
    · have ok := inv.works other
      exact ⟨fun held holds prepares => ready held (ok.ready held holds prepares),
        fun token has => (ok.current token has).trans (generation _).symm, ok.saw⟩
    · obtain ⟨isReady, current⟩ := inv.queued token mem
      exact ⟨ready _ isReady, current.trans (generation _).symm⟩
  exact roused.aside before rfl trivial

/-- The thread hands the token it answers for over to the queue. -/
theorem Inv.enqueue {token : Token} (work : s.threads thread = .enqueuing token) :
    { s.setThread thread .idle with queue := s.queue ++ [token] }.Inv := by
  have holds : (s.threads thread).holds = some token.slot := by rw [work]; rfl
  have ok := inv.works thread
  have others (other) (isOther : other ≠ thread) :
      ((s.setThread thread .idle).threads other).holds = (s.threads other).holds := by
    simp [setThread, isOther]
  refine ⟨inv.jobs.turn thread token.slot others (inv.jobs.mine holds) (.inl ?_) fun _ _ => id, fun other => ?_,
    ?_, ?_, ?_, ?_⟩
  · simp [setThread, ExecWork.holds]
  · by_cases isThread : other = thread
    · subst isThread
      simp only [setThread, update_self]
      exact .of_none rfl trivial
    · have prior := inv.works other
      simp only [setThread, update_of_ne isThread]
      exact prior.frame fun _ _ => rfl
  · intro queued mem
    rcases List.mem_append.mp mem with before | last
    · exact inv.queued queued before
    · cases List.mem_singleton.mp last
      exact ⟨ok.ready _ holds (by rw [work]; rfl), ok.current token (by rw [work]; rfl)⟩
  · intro queued mem other holds'
    have isOther : other ≠ thread := by
      rintro rfl
      simp [setThread, ExecWork.holds] at holds'
    rw [others other isOther] at holds'
    rcases List.mem_append.mp mem with before | last
    · exact inv.apart queued before other holds'
    · cases List.mem_singleton.mp last
      exact inv.jobs.mine holds other isOther holds'
  · rw [List.map_append, List.nodup_append]
    refine ⟨inv.nodup, List.nodup_singleton _, ?_⟩
    rintro _ mem _ last rfl
    obtain ⟨queued, inQueue, same⟩ := List.mem_map.mp mem
    cases List.mem_singleton.mp last
    exact inv.apart queued inQueue thread (same ▸ holds)
  · intro other busy
    rcases inv.served other busy with ⟨queued, mem, same⟩ | ⟨holder, holds'⟩
    · exact .inl ⟨queued, List.mem_append_left _ mem, same⟩
    · by_cases isThread : holder = thread
      · subst isThread
        cases holds.symm.trans holds'
        exact .inl ⟨token, by simp, rfl⟩
      · exact .inr ⟨holder, by simpa [setThread, isThread] using holds'⟩

/-- A thread takes over the token it finds at the head of the queue. -/
theorem Inv.dequeue {token : Token} {rest : List Token}
    (idle : s.threads thread = .idle) (queue : s.queue = token :: rest) :
    { s.setThread thread (.dequeued token) with queue := rest }.Inv := by
  have first : token ∈ s.queue := by simp [queue]
  have later : ∀ queued ∈ rest, queued ∈ s.queue := fun queued mem => by simp [queue, mem]
  have nodup := inv.nodup
  rw [queue, List.map_cons, List.nodup_cons] at nodup
  obtain ⟨isReady, current⟩ := inv.queued token first
  have mine : ((s.setThread thread (.dequeued token)).threads thread).holds = some token.slot := by
    simp [setThread, ExecWork.holds]
  have others (other) (isOther : other ≠ thread) :
      ((s.setThread thread (.dequeued token)).threads other).holds = (s.threads other).holds := by
    simp [setThread, isOther]
  refine ⟨inv.jobs.turn thread token.slot others (fun other _ => inv.apart token first other)
    (.inr ⟨mine, .inl isReady⟩) fun _ _ => id, fun other => ?_,
    fun queued mem => inv.queued queued (later queued mem), ?_, nodup.2, ?_⟩
  · by_cases isThread : other = thread
    · subst isThread
      simp only [setThread, update_self]
      refine .of_holds rfl (fun _ => isReady) (fun token' isToken => ?_) trivial
      cases isToken
      exact current
    · have prior := inv.works other
      simp only [setThread, update_of_ne isThread]
      exact prior.frame fun _ _ => rfl
  · intro queued mem other holds
    by_cases isThread : other = thread
    · subst isThread
      have same := Option.some.inj (mine.symm.trans holds)
      exact nodup.1 (same ▸ List.mem_map_of_mem mem)
    · rw [others other isThread] at holds
      exact inv.apart queued (later queued mem) other holds
  · intro other busy
    rcases inv.served other busy with ⟨queued, mem, same⟩ | ⟨holder, holds'⟩
    · rw [queue] at mem
      rcases List.mem_cons.mp mem with isFirst | mem
      · exact .inr ⟨thread, by simp [setThread, ExecWork.holds, ← same, isFirst]⟩
      · exact .inl ⟨queued, mem, same⟩
    · have isOther : holder ≠ thread := by
        rintro rfl
        simp [idle, ExecWork.holds] at holds'
      exact .inr ⟨holder, by simpa [setThread, isOther] using holds'⟩

end

/-- A wake that makes a waiting slot ready finds it at the generation that it is for. -/
def Timely (s : Executor Thread) : ExecMove Thread → Prop
  | .go thread => ∀ token, s.threads thread = .seen token .waiting →
      (s.tasks token.slot).state = .waiting →
        (s.tasks token.slot).generation = token.generation
  | _ => True

section

variable (inv : s.Inv)
include inv

/-- A thread goes on with its slot, whose state and generation stay. -/
theorem Inv.proceed (holds : (s.threads thread).holds = some slot)
    (threads : s'.threads = update s.threads thread work) (queue : s'.queue = s.queue)
    (tasks : ∀ other, other ≠ slot → s'.tasks other = s.tasks other)
    (state : (s'.tasks slot).state = (s.tasks slot).state)
    (generation : (s'.tasks slot).generation = (s.tasks slot).generation) (after : work.holds = some slot)
    (prepares : work.prepares = true → (s.threads thread).prepares = true)
    (token : ∀ token, work.token = some token → (s.threads thread).token = some token ∨
      token.generation = (s.tasks slot).generation) (saw : work.sawSleep) : s'.Inv := by
  have ok := inv.works thread
  refine inv.goOn holds threads queue tasks after ?_ (.of_holds after ?_ ?_ saw)
  · unfold Busy
    rw [state]
    exact inv.jobs.marked thread slot holds
  · intro isPreparing
    rw [state]
    exact ok.ready slot holds (prepares isPreparing)
  · intro token' has
    rw [generation]
    rcases token token' has with before | current
    · cases holds.symm.trans (ExecWork.holds_of_token before)
      exact ok.current token' before
    · exact current

/-- `alloc_slot` takes a slot that is empty. -/
theorem Inv.tryAlloc (work : s.threads thread = .allocating slot) : (s.tryAlloc thread slot).Inv := by
  have nothing : (s.threads thread).holds = none := by rw [work]; rfl
  unfold Executor.tryAlloc
  split
  · rename_i isEmpty
    refine inv.take nothing (by simp [Busy, isEmpty]) rfl rfl (fun other isOther => ?_) rfl (.inl ?_)
      (.of_holds rfl (fun _ => ?_) nofun trivial)
    · simp [setThread, setState, setTask, isOther]
    · simp [setThread, setState, setTask]
    · simp [setThread, setState, setTask]
  · split
    · exact inv.aside nothing rfl trivial
    · exact inv.aside nothing rfl trivial

/-- `wake_task` gives up, or goes to wake a slot that sleeps or runs. -/
theorem Inv.lookAt {token : Token} (work : s.threads thread = .current token) : (s.lookAt thread token).Inv := by
  have nothing : (s.threads thread).holds = none := by rw [work]; rfl
  unfold Executor.lookAt
  split
  · exact inv.aside nothing rfl (.inl rfl)
  · exact inv.aside nothing rfl (.inr rfl)
  · exact inv.aside nothing rfl trivial
  · exact inv.aside nothing rfl trivial

/-- A timely wake takes a waiting slot, to queue it; a running slot stays with its thread. -/
theorem Inv.makeReady {token : Token} {state : SlotState}
    (work : s.threads thread = .seen token state) (timely : s.Timely (.go thread)) :
    (s.makeReady thread token state).Inv := by
  have nothing : (s.threads thread).holds = none := by rw [work]; rfl
  have saw := (inv.works thread).saw
  rw [work] at saw
  unfold Executor.makeReady
  split
  · rename_i still
    rcases saw with rfl | rfl
    · have current := timely token work still
      refine inv.take nothing (by simp [Busy, still]) rfl rfl (fun other isOther => ?_) rfl (.inl ?_)
        (.of_holds rfl (fun _ => ?_) (fun token' isToken => ?_) trivial)
      · simp [setThread, setState, setTask, isOther]
      · simp [setThread, setState, setTask]
      · simp [setThread, setState, setTask]
      · cases isToken
        simpa [setThread, setState, setTask] using current.symm
    · exact inv.rouse nothing still
  · exact inv.aside nothing rfl trivial

/-- The slot whose token `poll_one` has taken is ready, so it is made to run. -/
theorem Inv.startRunning {token : Token} (work : s.threads thread = .matched token) :
    (s.startRunning thread token).Inv := by
  have holds : (s.threads thread).holds = some token.slot := by rw [work]; rfl
  have ok := inv.works thread
  have isReady := ok.ready token.slot holds (by rw [work]; rfl)
  unfold Executor.startRunning
  rw [if_pos isReady]
  refine inv.goOn holds rfl rfl (fun other isOther => ?_) rfl (.inr ?_)
    (.of_holds rfl nofun (fun token' isToken => ?_) trivial)
  · simp [setThread, setState, setTask, isOther]
  · simp [setThread, setState, setTask]
  · cases isToken
    simpa [setThread, setState, setTask] using ok.current token (by rw [work]; rfl)

theorem Inv.startPolling {token : Token} (work : s.threads thread = .running token) :
    (s.startPolling thread token).Inv := by
  have holds : (s.threads thread).holds = some token.slot := by rw [work]; rfl
  unfold Executor.startPolling
  split
  · exact inv.proceed holds rfl rfl (fun _ _ => rfl) rfl rfl rfl nofun
      (fun token' isToken => .inl (by rw [work]; exact isToken)) trivial
  · refine inv.leave holds rfl rfl (fun other isOther => ?_) ?_
    · simp [setThread, setState, setTask, isOther]
    · simp [Busy, setThread, setState, setTask]

/-- A pending task waits for its wake-up; if that has come the thread queues it. -/
theorem Inv.startWaiting {token : Token} (work : s.threads thread = .pended token) :
    (s.startWaiting thread token).Inv := by
  have holds : (s.threads thread).holds = some token.slot := by rw [work]; rfl
  have ok := inv.works thread
  have busy := inv.jobs.marked thread token.slot holds
  unfold Executor.startWaiting
  split
  · refine inv.leave holds rfl rfl (fun other isOther => ?_) ?_
    · simp [setThread, setState, setTask, isOther]
    · simp [Busy, setThread, setState, setTask]
  · rename_i isReady
    refine inv.goOn holds rfl rfl (fun _ _ => rfl) rfl (.inl isReady)
      (.of_holds rfl (fun _ => isReady) (fun token' isToken => ?_) trivial)
    cases isToken
    exact ok.current token (by rw [work]; rfl)
  · rename_i isEmpty
    simp [Busy, isEmpty] at busy
  · rename_i waits
    simp [Busy, waits] at busy

/-- The slot's generation moves on under the thread that alone answers for it. -/
theorem Inv.age {token : Token} (work : s.threads thread = .clearedDrop token) : (s.age thread token).Inv := by
  have holds : (s.threads thread).holds = some token.slot := by rw [work]; rfl
  have busy := inv.jobs.marked thread token.slot holds
  refine inv.goOn holds rfl rfl (fun other isOther => ?_) rfl ?_ (.of_holds rfl nofun nofun trivial)
  · simp [Executor.age, setThread, setTask, isOther]
  · simpa [Busy, Executor.age, setThread, setTask] using busy

/-- Writing the functions of the slot a thread answers for is nobody else's business. -/
theorem Inv.write {task : TaskSlot} (holds : (s.threads thread).holds = some slot)
    (state : task.state = (s.tasks slot).state)
    (generation : task.generation = (s.tasks slot).generation) (after : work.holds = some slot)
    (prepares : work.prepares = true → (s.threads thread).prepares = true)
    (token : ∀ token, work.token = some token → (s.threads thread).token = some token)
    (saw : work.sawSleep) : ((s.setTask slot task).setThread thread work).Inv := by
  refine inv.proceed holds rfl rfl (fun other isOther => ?_) ?_ ?_ after prepares
    (fun token' has => .inl (token token' has)) saw
  · simp [setThread, setTask, isOther]
  · simpa [setThread, setTask] using state
  · simpa [setThread, setTask] using generation

/-- Whatever a thread is in the middle of, going on with it keeps the invariant. -/
theorem Inv.go (moved : s.go thread = some s') (timely : s.Timely (.go thread)) :
    s'.Inv := by
  have ok := inv.works thread
  revert moved
  unfold Executor.go
  cases work : s.threads thread with
  | idle | halted | polling => nofun
  | allocating slot =>
    rintro ⟨⟩
    exact inv.tryAlloc work
  | allocated slot =>
    rintro ⟨⟩
    exact inv.write (by rw [work]; rfl) rfl rfl rfl (by simp [work, ExecWork.prepares]) nofun trivial
  | storedPoll slot =>
    rintro ⟨⟩
    exact inv.write (by rw [work]; rfl) rfl rfl rfl (by simp [work, ExecWork.prepares]) nofun trivial
  | storedDrop slot =>
    rintro ⟨⟩
    refine inv.proceed (by rw [work]; rfl) rfl rfl (fun _ _ => rfl) rfl rfl rfl
      (by simp [work, ExecWork.prepares]) (fun token isToken => .inr ?_) trivial
    cases isToken
    rfl
  | loaded token =>
    rintro ⟨⟩
    have isReady := ok.ready token.slot (by rw [work]; rfl) (by rw [work]; rfl)
    exact inv.write (by rw [work]; rfl) isReady.symm rfl rfl (by simp [work, ExecWork.prepares])
      (by simp [work, ExecWork.token]) trivial
  | enqueuing token =>
    intro moved
    obtain ⟨-, ⟨⟩⟩ := Option.ite_none_right_eq_some.mp moved
    exact inv.enqueue work
  | waking token =>
    dsimp only
    split <;> rintro ⟨⟩
    · exact inv.aside (by rw [work]; rfl) rfl trivial
    · exact inv.aside (by rw [work]; rfl) rfl trivial
  | current token =>
    rintro ⟨⟩
    exact inv.lookAt work
  | seen token state =>
    rintro ⟨⟩
    exact inv.makeReady work timely
  | dequeued token =>
    -- No token in the queue is out of date, so the generation is the slot's own.
    have current := ok.current token (by rw [work]; rfl)
    dsimp only
    rw [if_pos current.symm]
    rintro ⟨⟩
    exact inv.proceed (by rw [work]; rfl) rfl rfl (fun _ _ => rfl) rfl rfl rfl
      (by simp [work, ExecWork.prepares]) (fun token' isToken => .inl (by rw [work]; exact isToken))
      trivial
  | matched token =>
    rintro ⟨⟩
    exact inv.startRunning work
  | running token =>
    rintro ⟨⟩
    exact inv.startPolling work
  | pended token =>
    rintro ⟨⟩
    exact inv.startWaiting work
  | finished token =>
    rintro ⟨⟩
    exact inv.proceed (by rw [work]; rfl) rfl rfl (fun _ _ => rfl) rfl rfl rfl nofun
      (fun token' isToken => .inl (by rw [work]; exact isToken)) trivial
  | dropped token | clearedPoll token =>
    rintro ⟨⟩
    exact inv.write (by rw [work]; rfl) rfl rfl rfl nofun (by simp [work, ExecWork.token]) trivial
  | clearedDrop token =>
    rintro ⟨⟩
    exact inv.age work
  | aged slot =>
    rintro ⟨⟩
    have holds : (s.threads thread).holds = some slot := by rw [work]; rfl
    refine inv.leave holds rfl rfl (fun other isOther => ?_) ?_
    · simp [setThread, setState, setTask, isOther]
    · simp [Busy, setThread, setState, setTask]

/-- Every timely move keeps the invariant. -/
theorem Inv.step (moved : s.step move = some s') (timely : s.Timely move) :
    s'.Inv := by
  cases move with
  | spawn thread =>
    obtain ⟨idle, ⟨⟩⟩ := Option.ite_none_right_eq_some.mp moved
    exact inv.aside (by rw [idle]; rfl) rfl trivial
  | wake thread waker =>
    obtain ⟨⟨idle, -⟩, ⟨⟩⟩ := Option.ite_none_right_eq_some.mp moved
    exact inv.aside (by rw [idle]; rfl) rfl trivial
  | pollOne thread =>
    simp only [Executor.step] at moved
    split at moved
    · rename_i idle
      split at moved <;> cases moved
      · exact inv
      · rename_i token rest queue
        exact inv.dequeue idle queue
    · cases moved
  | go thread => exact inv.go moved timely
  | polled thread done =>
    simp only [Executor.step] at moved
    split at moved
    · rename_i token work
      cases moved
      cases done <;>
        exact inv.proceed (by rw [work]; rfl) rfl rfl (fun _ _ => rfl) rfl rfl rfl nofun
          (fun token' isToken => .inl (by rw [work]; exact isToken)) trivial
    · cases moved

end

/-- The states reached by moves that meet a condition where they are made. -/
abbrev Reached (allowed : Executor Thread → ExecMove Thread → Prop) : Executor Thread → Prop :=
  Lib.Run step allowed start

theorem Inv.of_reached (run : Reached Timely s) : s.Inv :=
  run.keeps Inv .start fun _ _ _ inv moved timely => inv.step moved timely

/-- The future in the slot has not come to its end. -/
def Live (s : Executor Thread) (slot : TaskId) : Prop :=
  ∀ thread, (s.threads thread).ends ≠ some slot

/--
While every wake that makes a waiting slot ready finds it at the generation it is for, no future is
polled by two threads at once; a live task that is ready has its current token in the queue, or a
thread has yet to queue it, or has just taken the token to poll it; and whoever takes a token finds
it current and its task ready, so that the poll begins.
-/
theorem executor_keeps_tasks (run : Reached Timely s) :
    (∀ thread other token token', s.threads thread = .polling token →
      s.threads other = .polling token' → token.slot = token'.slot → thread = other) ∧
    (∀ slot, (s.tasks slot).state = .ready → s.Live slot →
      (∃ token ∈ s.queue, token.slot = slot ∧ token.generation = (s.tasks slot).generation) ∨
      (∃ thread, (s.threads thread).queues = some slot) ∨
      ∃ thread token, (s.threads thread).takes = some token ∧ token.slot = slot ∧
        token.generation = (s.tasks slot).generation) ∧
    ∀ thread token, (s.threads thread).takes = some token →
      token.generation = (s.tasks token.slot).generation ∧
        (s.tasks token.slot).state = .ready := by
  have inv := Inv.of_reached run
  have taken : ∀ thread token, (s.threads thread).takes = some token →
      token.generation = (s.tasks token.slot).generation ∧
        (s.tasks token.slot).state = .ready := by
    intro thread token takes
    obtain ⟨has, prepares⟩ := ExecWork.token_of_takes takes
    have ok := inv.works thread
    exact ⟨ok.current token has, ok.ready _ (ExecWork.holds_of_token has) prepares⟩
  refine ⟨fun thread other token token' polls polls' same => ?_, fun slot isReady live => ?_, taken⟩
  · apply inv.jobs.alone thread other token.slot
    · rw [polls]
      rfl
    · rw [polls', same]
      rfl
  · rcases inv.served slot (.inl isReady) with ⟨token, mem, rfl⟩ | ⟨thread, holds⟩
    · exact .inl ⟨token, mem, rfl, (inv.queued token mem).2⟩
    · rcases ExecWork.cases_of_holds holds with queues | ⟨token, takes, rfl⟩ | ends
      · exact .inr (.inl ⟨thread, queues⟩)
      · exact .inr (.inr ⟨thread, token, takes, rfl, (taken thread token takes).1⟩)
      · exact absurd ends (live thread)

/-- Whether a move is timely. -/
def timely (s : Executor Thread) : ExecMove Thread → Bool
  | .go thread =>
    match s.threads thread with
    | .seen token .waiting => (s.tasks token.slot).state ≠ .waiting ∨
        (s.tasks token.slot).generation = token.generation
    | _ => true
  | _ => true

omit [DecidableEq Thread] in
theorem Timely.of_check {move : ExecMove Thread} (passes : s.timely move = true) :
    s.Timely move := by
  cases move with
  | go thread =>
    intro token work still
    simpa [timely, work, still] using passes
  | _ => trivial

/-- Two tasks, of which the first has waited and is woken by the other thread. -/
def wakes : List (ExecMove Bool) := [
  -- The first task is spawned and polled, and waits.
  .spawn false, .go false, .go false, .go false, .go false, .go false, .go false,
  .pollOne false, .go false, .go false, .go false, .polled false false, .go false,
  -- The second task is spawned into the next slot, and queued.
  .spawn false, .go false, .go false, .go false, .go false, .go false, .go false, .go false,
  -- The other thread makes the first task ready, in time.
  .wake true ⟨firstSlot, 1⟩, .go true, .go true, .go true]

/-- In the middle of the wake the first task is ready, and only the second one is queued. -/
theorem executor_keeps_tasks_once :
    ∃ s : Executor Bool, Lib.moves step start wakes = some s ∧
      (s.tasks firstSlot).state = .ready ∧ s.queue.map Token.slot = [⟨1, by decide⟩] ∧
      (∀ thread other token token', s.threads thread = .polling token →
        s.threads other = .polling token' → token.slot = token'.slot → thread = other) ∧
      (∀ slot, (s.tasks slot).state = .ready → s.Live slot →
        (∃ token ∈ s.queue, token.slot = slot ∧ token.generation = (s.tasks slot).generation) ∨
        (∃ thread, (s.threads thread).queues = some slot) ∨
        ∃ thread token, (s.threads thread).takes = some token ∧ token.slot = slot ∧
          token.generation = (s.tasks slot).generation) ∧
      ∀ thread token, (s.threads thread).takes = some token →
        token.generation = (s.tasks token.slot).generation ∧
          (s.tasks token.slot).state = .ready := by
  refine ⟨_, rfl, rfl, rfl, executor_keeps_tasks ?_⟩
  exact (Lib.Run.of_guarded .start wakes rfl).mono fun _ _ => .of_check

/--
A ready task need not have a token in the queue. In the first run a thread has just taken the token
to poll the task. In the second a wake has come too late: thread 1 finds the generation current and
is held up while the task ends and another one takes the slot and waits; then it makes that task
ready but queues the old token, which is thrown away, and nobody will poll the task again.
-/
theorem ready_task_without_token :
    (∃ s : Executor (Fin 1), Reached (fun _ _ => True) s ∧
      (s.tasks firstSlot).state = .ready ∧ s.Live firstSlot ∧ s.queue = [] ∧
      ∀ thread, (s.threads thread).queues ≠ some firstSlot) ∧
    ∃ s : Executor (Fin 2), Reached (fun _ _ => True) s ∧
      (s.tasks firstSlot).state = .ready ∧ s.queue = [] ∧ ∀ thread, s.threads thread = .idle := by
  constructor
  · refine ⟨_, Lib.Run.start.of_moves [.spawn 0, .go 0, .go 0, .go 0, .go 0, .go 0, .go 0,
      .pollOne 0] rfl, rfl, ?_⟩
    unfold Live
    decide
  · refine ⟨_, Lib.Run.start.of_moves [
      -- The first task is spawned and polled, and waits.
      .spawn 0, .go 0, .go 0, .go 0, .go 0, .go 0, .go 0,
      .pollOne 0, .go 0, .go 0, .go 0, .polled 0 false, .go 0,
      -- Thread 1 begins to wake it, and finds its generation current.
      .wake 1 ⟨firstSlot, 1⟩, .go 1,
      -- Thread 0 wakes it, polls it, and sees it to its end.
      .wake 0 ⟨firstSlot, 1⟩, .go 0, .go 0, .go 0, .go 0,
      .pollOne 0, .go 0, .go 0, .go 0, .polled 0 true, .go 0, .go 0, .go 0, .go 0, .go 0,
      -- The second task is spawned into the slot and polled, and waits.
      .spawn 0, .go 0, .go 0, .go 0, .go 0, .go 0, .go 0,
      .pollOne 0, .go 0, .go 0, .go 0, .polled 0 false, .go 0,
      -- Thread 1 goes on, and its token is thrown away.
      .go 1, .go 1, .go 1, .pollOne 0, .go 0] rfl, rfl, rfl, by decide⟩

/--
While wakes are timely, a thread that is in the middle of something can always go on: the ready queue
has room for every token that has yet to be put into it.
-/
theorem executor_goes_on (run : Reached Timely s) (thread : Thread) (busy : s.threads thread ≠ .idle)
    (going : s.threads thread ≠ .halted) (returned : ∀ token, s.threads thread ≠ .polling token) :
    (s.step (.go thread)).isSome := by
  have inv := Inv.of_reached run
  unfold step go
  cases work : s.threads thread with
  | enqueuing token =>
    -- The slots in the queue are different from each other, and from the one to be queued.
    have apart : token.slot ∉ s.queue.map Token.slot := fun here => by
      obtain ⟨other, queued, same⟩ := List.mem_map.mp here
      exact inv.apart other queued thread (by rw [work, same]; rfl)
    have room := List.Nodup.length_le_card (List.nodup_cons.mpr ⟨apart, inv.nodup⟩)
    rw [List.length_cons, List.length_map, Fintype.card_fin] at room
    simp [work, Nat.lt_of_succ_le room]
  | _ => grind

/-- The other thread queues the task that it has woken, behind the one that is queued already. -/
theorem executor_goes_on_once :
    ∃ s : Executor Bool, Lib.moves step start wakes = some s ∧
      s.threads true = .enqueuing ⟨firstSlot, 1⟩ ∧ s.queue.length = 1 ∧ (s.step (.go true)).isSome :=
  ⟨_, rfl, rfl, rfl, executor_goes_on ((Lib.Run.of_guarded .start wakes rfl).mono fun _ _ => .of_check) true
    (by decide) (by decide) nofun⟩

end Turns

end Executor

end Rel4.Rt
