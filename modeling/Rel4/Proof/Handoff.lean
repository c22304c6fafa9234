import Rel4.Lib.Interleave
import Rel4.Rt.Lock

/-! The async lock admits one guard at a time, and hands itself on while its table is fresh. -/

namespace Rel4.Rt

namespace AsyncLock

variable {Task : Type} {table table' : List (Option Task)} {waker other : Task}

/-- A registered waker is in the table, and those that were there stay. -/
theorem mem_of_putWaker (put : putWaker waker table = some table') :
    some waker ∈ table' ∧ ∀ other, some other ∈ table → some other ∈ table' := by
  fun_induction putWaker waker table generalizing table' with
  | case1 => cases put
  | case2 rest =>
    cases put
    refine ⟨.head _, fun other there => ?_⟩
    rcases List.mem_cons.mp there with isFirst | inRest
    · cases isFirst
    · exact .tail _ inRest
  | case3 first rest ih =>
    obtain ⟨rest', putRest, rfl⟩ := Option.map_eq_some_iff.mp put
    obtain ⟨here, others⟩ := ih putRest
    refine ⟨.tail _ here, fun other there => ?_⟩
    rcases List.mem_cons.mp there with isFirst | inRest
    · exact List.mem_cons.mpr (.inl isFirst)
    · exact .tail _ (others other inRest)

/-- Only the waker that was taken has left the table. -/
theorem mem_of_takeWaker (took : takeWaker table = some (waker, table'))
    (there : some other ∈ table) : other = waker ∨ some other ∈ table' := by
  fun_induction takeWaker table generalizing table' with
  | case1 => cases took
  | case2 rest ih =>
    obtain ⟨⟨first, rest'⟩, tookRest, eq⟩ := Option.map_eq_some_iff.mp took
    cases eq
    simpa using ih tookRest (by simpa using there)
  | case3 first rest =>
    cases took
    simpa [eq_comm] using there

/-- Only an empty table gives no waker. -/
theorem not_mem_of_takeWaker (nobody : takeWaker table = none) (other : Task) :
    some other ∉ table := by
  fun_induction takeWaker table with
  | case1 => simp
  | case2 rest ih => simpa using ih (by simpa using nobody)
  | case3 first rest => cases nobody

end AsyncLock

/-- The task a worker is polling for. -/
def LockWork.polls {Task : Type} : LockWork Task → Option Task
  | .tried task | .registered task => some task
  | _ => none

namespace LockSystem

variable {Task Worker : Type} {s s' : LockSystem Task Worker} {move : LockMove Task Worker}

/-- The task's wake-up cannot be missed: it has come, or its waker is in the table or in a hand. -/
def Known (s : LockSystem Task Worker) (task : Task) : Prop :=
  s.woken task = true ∨ some task ∈ s.lock.wakers ∨ ∃ worker, s.workers worker = .waking task

/-- Every task is polled by one worker at most, and then it is in the poll. -/
abbrev Polls (s : LockSystem Task Worker) : Prop :=
  Lib.Exclusive (fun worker => (s.workers worker).polls) fun task => s.stages task = .polling

/-- What holds in every state, however the moves are interleaved. -/
structure Inv (s : LockSystem Task Worker) : Prop where
  guards : s.guards = s.lock.locked.toNat
  polls : s.Polls
  pending : ∀ task, s.stages task = .pending → s.Known task
  registered : ∀ worker task, s.workers worker = .registered task → s.Known task

theorem Inv.start : (LockSystem.start : LockSystem Task Worker).Inv where
  guards := rfl
  polls := ⟨fun _ _ polls => (by cases polls), fun _ _ _ polls => (by cases polls)⟩
  pending _ isPending := by cases isPending
  registered _ _ isRegistered := by cases isRegistered

/--
Where the lock is free, somebody has been told: a release is under way and will wake a task that
waits, or such a task has been woken, or nobody waits.
-/
def Offered (s : LockSystem Task Worker) : Prop :=
  s.lock.locked = false →
    (∃ worker, s.workers worker = .released) ∨
    (∃ worker task, s.workers worker = .waking task ∧ s.stages task = .pending) ∨
    (∃ task, s.stages task = .pending ∧ s.woken task = true) ∨
    ∀ task, s.stages task ≠ .pending

section Workers

variable [DecidableEq Worker] {worker : Worker} {work : LockWork Task}

/-- A worker with no waker in hand may turn to other work. -/
theorem Known.setWorker {task : Task} (known : s.Known task)
    (free : ∀ task, s.workers worker ≠ .waking task) : (s.setWorker worker work).Known task := by
  refine known.imp_right (.imp_right ?_)
  rintro ⟨hand, holds⟩
  have other : hand ≠ worker := by
    rintro rfl
    exact free task holds
  exact ⟨hand, by simpa [LockSystem.setWorker, other] using holds⟩

/-- A worker that is not in a release may turn to other work. -/
theorem Offered.setWorker {worker : Worker} {work : LockWork Task} (offered : s.Offered)
    (outside : (s.workers worker).releasing = false) : (s.setWorker worker work).Offered := by
  intro isFree
  have kept : ∀ other, (s.workers other).releasing = true →
      (s.setWorker worker work).workers other = s.workers other := by
    intro other releases
    have distinct : other ≠ worker := by
      rintro rfl
      simp [outside] at releases
    simp [LockSystem.setWorker, distinct]
  rcases offered isFree with ⟨other, released⟩ | ⟨other, task, waking, waits⟩ | rest
  · exact .inl ⟨other, (kept other (by rw [released]; rfl)).trans released⟩
  · exact .inr (.inl ⟨other, task, (kept other (by rw [waking]; rfl)).trans waking, waits⟩)
  · exact .inr (.inr rest)

end Workers

section Tasks

variable [DecidableEq Task]

theorem Known.setWoken {task woken : Task} {value : Bool} (known : s.Known task)
    (kept : value = true ∨ task ≠ woken) : (s.setWoken woken value).Known task := by
  refine known.imp_left fun isWoken => ?_
  by_cases same : task = woken
  · simpa [LockSystem.setWoken, same] using kept.resolve_right (absurd same)
  · simpa [LockSystem.setWoken, same] using isWoken

end Tasks

section Moves

variable [DecidableEq Task] [DecidableEq Worker]

/-- What each move does, with what it finds. -/
inductive Moved (s : LockSystem Task Worker) :
    LockMove Task Worker → LockSystem Task Worker → Prop
  | pollFails {worker : Worker} {task : Task} (idle : s.workers worker = .idle)
      (free : s.stages task ≠ .polling) (taken : s.lock.locked = true) : Moved s (.poll worker task)
        (((s.setWoken task false).setStage task .polling).setWorker worker (.tried task))
  | pollTakes {worker : Worker} {task : Task} (idle : s.workers worker = .idle)
      (free : s.stages task ≠ .polling) (isFree : s.lock.locked = false) : Moved s (.poll worker task)
        ((s.setWoken task false).acquire worker task)
  | registers {worker : Worker} {task : Task} {wakers : List (Option Task)}
      (work : s.workers worker = .tried task)
      (put : AsyncLock.putWaker task s.lock.wakers = some wakers) : Moved s (.register worker)
        ((s.setWorker worker (.registered task)).setWakers wakers)
  | registerFull {worker : Worker} {task : Task} (work : s.workers worker = .tried task) :
      Moved s (.register worker) ((s.setWorker worker (.registered task)).setWoken task true)
  | retryFails {worker : Worker} {task : Task} (work : s.workers worker = .registered task)
      (taken : s.lock.locked = true) : Moved s (.retry worker)
        ((s.setStage task .pending).setWorker worker .idle)
  | retryTakes {worker : Worker} {task : Task} (work : s.workers worker = .registered task)
      (isFree : s.lock.locked = false) : Moved s (.retry worker) (s.acquire worker task)
  | dropGuard {worker : Worker} (idle : s.workers worker = .idle) (guarded : 0 < s.guards) :
      Moved s (.dropGuard worker) (s.dropGuard worker)
  | takes {worker : Worker} {task : Task} {wakers : List (Option Task)}
      (work : s.workers worker = .released)
      (took : AsyncLock.takeWaker s.lock.wakers = some (task, wakers)) :
      Moved s (.takeWaker worker) ((s.setWakers wakers).setWorker worker (.waking task))
  | takesNone {worker : Worker} (work : s.workers worker = .released)
      (nobody : AsyncLock.takeWaker s.lock.wakers = none) :
      Moved s (.takeWaker worker) (s.setWorker worker .idle)
  | wakes {worker : Worker} {task : Task} (work : s.workers worker = .waking task) :
      Moved s (.wake worker) ((s.setWoken task true).setWorker worker .idle)

theorem moved_of_step (moved : s.step move = some s') : s.Moved move s' := by
  cases move with
  | poll worker task =>
    obtain ⟨⟨idle, free⟩, ⟨⟩⟩ := Option.ite_none_right_eq_some.mp moved
    dsimp only [poll]
    split
    · rename_i taken
      exact .pollFails idle free taken
    · rename_i isFree
      exact .pollTakes idle free (Bool.eq_false_iff.mpr isFree)
  | register worker =>
    simp only [step, register] at moved
    split at moved <;> cases moved
    rename_i task work
    split
    · rename_i wakers put
      exact .registers work put
    · exact .registerFull work
  | retry worker =>
    simp only [step, retry] at moved
    split at moved <;> cases moved
    rename_i task work
    split
    · rename_i taken
      exact .retryFails work taken
    · rename_i isFree
      exact .retryTakes work (Bool.eq_false_iff.mpr isFree)
  | dropGuard worker =>
    obtain ⟨⟨idle, guarded⟩, ⟨⟩⟩ := Option.ite_none_right_eq_some.mp moved
    exact .dropGuard idle guarded
  | takeWaker worker =>
    simp only [step, takeWaker] at moved
    split at moved <;> cases moved
    rename_i work
    split
    · rename_i task wakers took
      exact .takes work took
    · rename_i nobody
      exact .takesNone work nobody
  | wake worker =>
    simp only [step] at moved
    split at moved <;> cases moved
    rename_i task work
    exact .wakes work

/-- A move loses no wake-up but that of the task whose poll it begins. -/
theorem Known.step {task : Task} (known : s.Known task) (moved : s.Moved move s')
    (other : ∀ worker, move ≠ .poll worker task) : s'.Known task := by
  cases moved with
  | @pollFails worker polled idle =>
    have distinct : task ≠ polled := fun same => other worker (same ▸ rfl)
    exact Known.setWorker (s := (s.setWoken polled false).setStage polled .polling)
      (known.setWoken (.inr distinct)) (by simp [LockSystem.setWoken, setStage, idle])
  | @pollTakes worker polled idle =>
    have distinct : task ≠ polled := fun same => other worker (same ▸ rfl)
    exact Known.setWorker (s := (s.setWoken polled false).setStage polled .away)
      (known.setWoken (.inr distinct)) (by simp [LockSystem.setWoken, setStage, idle])
  | @registers worker polled wakers work put =>
    have kept : (s.setWorker worker (.registered polled)).Known task :=
      known.setWorker (by simp [work])
    exact kept.imp_right (.imp_left ((AsyncLock.mem_of_putWaker put).2 task))
  | registerFull work =>
    exact (known.setWorker (by simp [work])).setWoken (.inl rfl)
  | @retryFails _ polled work =>
    exact Known.setWorker (s := s.setStage polled .pending) known (by simp [setStage, work])
  | @retryTakes _ polled work =>
    exact Known.setWorker (s := s.setStage polled .away) known (by simp [setStage, work])
  | dropGuard idle => exact known.setWorker (by simp [idle])
  | @takes worker taken wakers work took =>
    -- The one waker that leaves the table is now in the worker's hand.
    by_cases same : task = taken
    · exact .inr (.inr ⟨worker, by simp [LockSystem.setWorker, same]⟩)
    · have kept : (s.setWakers wakers).Known task :=
        known.imp_right (.imp_left fun there =>
          (AsyncLock.mem_of_takeWaker took there).resolve_left same)
      exact kept.setWorker (by simp [setWakers, work])
  | takesNone work => exact known.setWorker (by simp [work])
  | @wakes worker taken work =>
    by_cases same : task = taken
    · exact .inl (by simp [LockSystem.setWorker, LockSystem.setWoken, same])
    · refine (known.setWoken (.inl rfl)).imp_right (.imp_right ?_)
      rintro ⟨hand, holds⟩
      have distinct : hand ≠ worker := by
        rintro rfl
        exact same (LockWork.waking.inj (holds.symm.trans work))
      exact ⟨hand, by simpa [LockSystem.setWorker, distinct] using holds⟩

/-- Who is pending after a move was so before, or has just failed to take the lock again. -/
theorem Moved.pending {task : Task} (moved : s.Moved move s') (after : s'.stages task = .pending) :
    (∀ worker, move ≠ .poll worker task) ∧
      (s.stages task = .pending ∨ ∃ worker, s.workers worker = .registered task) := by
  cases moved with
  | @pollFails worker polled =>
    have distinct : task ≠ polled := by
      rintro rfl
      simp [setStage, setWorker] at after
    refine ⟨fun _ same => distinct (by cases same; rfl), .inl ?_⟩
    simpa [setStage, setWorker, setWoken, distinct] using after
  | @pollTakes worker polled =>
    have distinct : task ≠ polled := by
      rintro rfl
      simp [acquire, setStage, setWorker] at after
    refine ⟨fun _ same => distinct (by cases same; rfl), .inl ?_⟩
    simpa [acquire, setStage, setWorker, setWoken, distinct] using after
  | @retryFails worker polled work =>
    refine ⟨fun _ same => (by cases same), ?_⟩
    by_cases same : task = polled
    · exact .inr ⟨worker, same ▸ work⟩
    · exact .inl (by simpa [setStage, setWorker, same] using after)
  | @retryTakes worker polled work =>
    refine ⟨fun _ same => (by cases same), .inl ?_⟩
    by_cases same : task = polled
    · simp [acquire, setStage, setWorker, same] at after
    · simpa [acquire, setStage, setWorker, same] using after
  | registers | registerFull | dropGuard | takes | takesNone | wakes =>
    exact ⟨fun _ same => (by cases same), .inl after⟩

/-- Who is registered after a move was so before, or the move has made its wake-up known. -/
theorem Moved.registered {worker : Worker} {task : Task} (moved : s.Moved move s')
    (after : s'.workers worker = .registered task) :
    s.workers worker = .registered task ∨ s'.Known task := by
  cases moved with
  | @registers worker' polled wakers work put =>
    by_cases same : worker = worker'
    · have isTask : polled = task := by
        simpa [setWakers, setWorker, same] using after
      exact .inr (.inr (.inl (isTask ▸ (AsyncLock.mem_of_putWaker put).1)))
    · exact .inl (by simpa [setWakers, setWorker, same] using after)
  | @registerFull worker' polled work =>
    by_cases same : worker = worker'
    · have isTask : polled = task := by
        simpa [setWoken, setWorker, same] using after
      exact .inr (.inl (by simp [setWoken, isTask]))
    · exact .inl (by simpa [setWoken, setWorker, same] using after)
  | @pollFails worker' | @pollTakes worker' | @retryFails worker' | @retryTakes worker'
  | @dropGuard worker' | @takes worker' | @takesNone worker' | @wakes worker' =>
    -- No other move leaves its worker registered.
    by_cases same : worker = worker'
    · simp [setStage, setWoken, setWakers, setWorker, acquire, LockSystem.dropGuard, same] at after
    · exact .inl (by simpa [setStage, setWoken, setWakers, setWorker, acquire,
        LockSystem.dropGuard, same] using after)

/-- A guard is made only of a free lock, and dropping it frees the lock. -/
theorem Moved.guards (moved : s.Moved move s') (before : s.guards = s.lock.locked.toNat) :
    s'.guards = s'.lock.locked.toNat := by
  cases moved with
  | pollTakes _ _ isFree | retryTakes _ isFree =>
    show s.guards + 1 = 1
    rw [before, isFree]
    rfl
  | dropGuard idle guarded =>
    show s.guards - 1 = 0
    have bound := Bool.toNat_le s.lock.locked
    omega
  | _ => exact before

/-- Every task stays polled by one worker at most. -/
theorem Moved.polls (moved : s.Moved move s') (before : s.Polls) : s'.Polls := by
  cases moved with
  | pollFails idle free =>
    exact before.updateStage (fun other _ => before.free free other) (.inr ⟨rfl, rfl⟩)
  | pollTakes idle free =>
    exact before.updateStage (fun other _ => before.free free other) (.inl rfl)
  | retryFails work | retryTakes work =>
    exact before.updateStage (before.mine (by rw [work]; rfl)) (.inl rfl)
  | registers work | registerFull work | takes work | takesNone work | wakes work
  | dropGuard work =>
    exact before.update (by rw [work]; rfl)

/-- Every move keeps the invariant. -/
theorem Inv.step (inv : s.Inv) (moved : s.Moved move s') : s'.Inv where
  guards := moved.guards inv.guards
  polls := moved.polls inv.polls
  pending task after := by
    obtain ⟨other, before⟩ := moved.pending after
    rcases before with isPending | ⟨worker, isRegistered⟩
    · exact (inv.pending task isPending).step moved other
    · exact (inv.registered worker task isRegistered).step moved other
  registered worker task after := by
    rcases moved.registered after with before | known
    · refine (inv.registered worker task before).step moved ?_
      -- A task that is being polled is not polled again.
      rintro other rfl
      have polling := inv.polls.marked worker task (by simp [before, LockWork.polls])
      cases moved with
      | pollFails _ free | pollTakes _ free => exact free polling
    · exact known

/-- A release that finds the lock still free finds a waker of a task that still waits, if any. -/
def Fresh (s : LockSystem Task Worker) : LockMove Task Worker → Prop
  | .takeWaker _ => s.lock.locked = false → ∀ task wakers,
      AsyncLock.takeWaker s.lock.wakers = some (task, wakers) → s.stages task = .pending
  | _ => True

/-- While releases meet fresh tables, a free lock stays offered to a task that waits. -/
theorem Offered.step (offered : s.Offered) (inv : s.Inv) (fresh : s.Fresh move)
    (moved : s.Moved move s') : s'.Offered := by
  intro isFree
  cases moved with
  | pollFails _ _ taken | retryFails _ taken => cases taken.symm.trans isFree
  | pollTakes | retryTakes => cases isFree
  | @dropGuard worker => exact .inl ⟨worker, by simp [LockSystem.dropGuard, LockSystem.setWorker]⟩
  | registers work => exact offered.setWorker (by rw [work]; rfl) isFree
  | @registerFull worker task work =>
    rcases offered.setWorker (by rw [work]; rfl) isFree with
      released | waking | ⟨other, waits, isWoken⟩ | nobody
    · exact .inl released
    · exact .inr (.inl waking)
    · refine .inr (.inr (.inl ⟨other, waits, ?_⟩))
      by_cases same : other = task
      · simp [setWoken, same]
      · simpa [setWoken, LockSystem.setWorker, same] using isWoken
    · exact .inr (.inr (.inr nobody))
  | @takes worker task wakers work took =>
    exact .inr (.inl ⟨worker, task, by simp [LockSystem.setWorker], fresh isFree task wakers took⟩)
  | @takesNone worker work nobody =>
    -- Nobody is in the table, so who waits has been woken or is about to be.
    by_cases waiting : ∃ task, s.stages task = .pending
    · obtain ⟨task, waits⟩ := waiting
      rcases inv.pending task waits with isWoken | there | ⟨other, waking⟩
      · exact .inr (.inr (.inl ⟨task, waits, isWoken⟩))
      · exact absurd there (AsyncLock.not_mem_of_takeWaker nobody task)
      · have distinct : other ≠ worker := by
          rintro rfl
          simp [work] at waking
        exact .inr (.inl ⟨other, task, by simpa [LockSystem.setWorker, distinct] using waking, waits⟩)
    · exact .inr (.inr (.inr fun task waits => waiting ⟨task, waits⟩))
  | @wakes worker task work =>
    have stays : ∀ other, other ≠ worker →
        ((s.setWoken task true).setWorker worker .idle).workers other = s.workers other :=
      fun other distinct => by simp [LockSystem.setWorker, setWoken, distinct]
    rcases offered isFree with ⟨other, released⟩ | ⟨other, task', waking, waits⟩ |
      ⟨task', waits, isWoken⟩ | nobody
    · refine .inl ⟨other, (stays other ?_).trans released⟩
      rintro rfl
      simp [work] at released
    · by_cases same : other = worker
      · -- The task this worker was to wake has been woken now.
        subst same
        cases work.symm.trans waking
        exact .inr (.inr (.inl ⟨task, waits, by simp [LockSystem.setWorker, setWoken]⟩))
      · exact .inr (.inl ⟨other, task', (stays other same).trans waking, waits⟩)
    · refine .inr (.inr (.inl ⟨task', waits, ?_⟩))
      by_cases same : task' = task
      · simp [LockSystem.setWorker, setWoken, same]
      · simpa [LockSystem.setWorker, setWoken, same] using isWoken
    · exact .inr (.inr (.inr nobody))

/-- The states reached by moves that meet a condition where they are made. -/
abbrev Reached (allowed : LockSystem Task Worker → LockMove Task Worker → Prop) :
    LockSystem Task Worker → Prop :=
  Lib.Run step allowed start

theorem Inv.of_reached {allowed : LockSystem Task Worker → LockMove Task Worker → Prop}
    (run : Reached allowed s) : s.Inv :=
  run.keeps Inv .start fun _ _ _ inv moved _ => inv.step (moved_of_step moved)

/-- However the moves are interleaved, at most one guard exists. -/
theorem guards_le_one {allowed : LockSystem Task Worker → LockMove Task Worker → Prop}
    (run : Reached allowed s) : s.guards ≤ 1 := by
  rw [(Inv.of_reached run).guards]
  exact Bool.toNat_le s.lock.locked

theorem Offered.of_reached (run : Reached Fresh s) : s.Offered := by
  suffices both : s.Inv ∧ s.Offered from both.2
  refine run.keeps (fun s => s.Inv ∧ s.Offered) ?_ ?_
  · exact ⟨.start, fun _ => .inr (.inr (.inr fun _ waits => by cases waits))⟩
  · rintro s move s' ⟨inv, offered⟩ moved fresh
    exact ⟨inv.step (moved_of_step moved), offered.step inv fresh (moved_of_step moved)⟩

/--
While every release that finds the lock still free finds a waker of a task that still waits, there
is at most one guard, and no hand-off is lost: if the lock is free and a task is pending, a pending
task has been woken since its last poll, or a release is under way.
-/
theorem lock_handed_on (run : Reached Fresh s) :
    s.guards ≤ 1 ∧ (s.lock.locked = false → (∃ task, s.stages task = .pending) →
      (∃ task, s.stages task = .pending ∧ s.woken task = true) ∨
        ∃ worker, (s.workers worker).releasing = true) := by
  refine ⟨guards_le_one run, fun isFree ⟨task, waits⟩ => ?_⟩
  rcases Offered.of_reached run isFree with ⟨worker, released⟩ | ⟨worker, _, waking, -⟩ | told | nobody
  · exact .inr ⟨worker, by rw [released]; rfl⟩
  · exact .inr ⟨worker, by rw [waking]; rfl⟩
  · exact .inl told
  · exact absurd waits (nobody task)

/-- A holder releases to the one task that waits, and that task is woken. -/
theorem lock_handed_on_once :
    ∃ s : LockSystem (Fin 2) (Fin 2),
      Lib.moves step start [.poll 0 0, .poll 1 1, .register 1, .retry 1, .dropGuard 0,
        .takeWaker 0, .wake 0] = some s ∧
      s.guards ≤ 1 ∧ (s.lock.locked = false → (∃ task, s.stages task = .pending) →
        (∃ task, s.stages task = .pending ∧ s.woken task = true) ∨
          ∃ worker, (s.workers worker).releasing = true) := by
  refine ⟨_, rfl, lock_handed_on ?_⟩
  have run : Reached Fresh (start : LockSystem (Fin 2) (Fin 2)) := .start
  have run := run.move (.poll 0 0) rfl trivial
  have run := run.move (.poll 1 1) rfl trivial
  have run := run.move (.register 1) rfl trivial
  have run := run.move (.retry 1) rfl trivial
  have run := run.move (.dropGuard 0) rfl trivial
  -- The table holds the waker of task 1 alone, which is pending.
  have run := run.move (.takeWaker 0) rfl fun _ _ _ took => by cases took; rfl
  exact run.move (.wake 0) rfl trivial

/--
Task 1 takes the lock with its second attempt and leaves its waker behind. When it releases, the
wake-up goes to that waker: task 2 stays pending, nobody has woken it, and the lock is free.
-/
theorem stale_waker_loses_handoff :
    ∃ s : LockSystem (Fin 3) (Fin 3), Reached (fun _ _ => True) s ∧
      s.lock.locked = false ∧ s.stages 2 = .pending ∧
      (∀ task, s.stages task = .pending → s.woken task = false) ∧
      ∀ worker, (s.workers worker).releasing = false :=
  ⟨_, Lib.Run.start.of_moves [.poll 0 0, .poll 1 1, .dropGuard 0, .takeWaker 0, .register 1,
    .retry 1, .poll 2 2, .register 2, .retry 2, .dropGuard 1, .takeWaker 1, .wake 1] rfl, by decide⟩

end Moves

end LockSystem

end Rel4.Rt
