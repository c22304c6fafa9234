import Rel4.Proof.HostKills

/-! The reply slots: how many are in use, and that they neither run out nor get lost. -/

namespace Rel4.Host

open Lib

/-- The calls that have been received and are still to be carried out. -/
def DueKind.pending : DueKind where
  due _ stage := stage = .spawned ∨ stage = .looked ∨ stage = .faulted
  of_looked _ _ := rfl
  of_faulted _ _ := rfl
  not_returned _ _ := rfl
  not_answering _ _ := rfl
  not_sent _ := rfl

namespace HostSystem

variable {Worker : Type} (s : HostSystem Worker)

/-- How many slots are taken from the pool and not given back yet. -/
def taken : Nat := s.host.pool.all.length - s.host.pool.free.length

/-- How many entries of the process table are used. -/
def usedProcs : Nat := (List.finRange maxProcs).countP fun i => (s.host.procs i).state ≠ .unused

/-- The task with a slot has answered its process, or its process is gone; what is left is to give the slot back. -/
def leaves (slot : Nat) : Bool :=
  match s.tasks slot with
  | some task => task.stage = .sent ∨ s.host.findProc task.pid = none
  | none => false

def leaving : Nat := s.host.pool.all.countP s.leaves

/-- The entry of the process that a slot is for, which has called or is blocked. -/
def owner (slot : Nat) : Option (Fin maxProcs) :=
  match s.tasks slot with
  | some task => s.host.findProc task.pid
  | none => (List.finRange maxProcs).find? fun i => (s.host.procs i).waitReplySlot = slot

/-- A process has called with the slot and is still to be answered, or is blocked with it. -/
def serves (slot : Nat) : Bool :=
  match s.tasks slot with
  | some task => task.stage ≠ .sent ∧ (s.host.findProc task.pid).isSome
  | none => ((List.finRange maxProcs).find? fun i => (s.host.procs i).waitReplySlot = slot).isSome

variable {s} {slot : Nat} {i : Fin maxProcs}

/-- The two ways in which a slot serves a process. -/
theorem serves_cases (serves : s.serves slot = true) (nonzero : slot ≠ 0) (sound : s.Sound) :
    ∃ i, s.owner slot = some i ∧ (s.host.procs i).state ≠ .unused ∧
      (s.Called slot (s.host.procs i).pid ∨ (s.host.procs i).waitReplySlot = slot) := by
  unfold HostSystem.serves at serves
  unfold owner
  split at serves
  · rename_i task there
    obtain ⟨unsent, known⟩ := of_decide_eq_true serves
    obtain ⟨i, found⟩ := Option.isSome_iff_exists.mp known
    obtain ⟨isPid, used⟩ := Processes.findProc_spec found
    exact ⟨i, found, used, .inl (.inl ⟨task, there, isPid.symm, unsent⟩)⟩
  · obtain ⟨i, found⟩ := Option.isSome_iff_exists.mp serves
    have has : (s.host.procs i).waitReplySlot = slot := Processes.find_spec found
    refine ⟨i, found, ?_, .inr has⟩
    rw [(sound.host.owned.blocked i).mp (has ▸ nonzero)]
    decide

/-- A process is served by one slot. -/
theorem owner_inj (sound : s.Sound) {other : Nat} (serves : s.serves slot = true) (serves' : s.serves other = true)
    (nonzero : slot ≠ 0) (nonzero' : other ≠ 0) (same : s.owner slot = s.owner other) : slot = other := by
  obtain ⟨i, isOwner, used, how⟩ := serves_cases serves nonzero sound
  obtain ⟨j, isOwner', used', how'⟩ := serves_cases serves' nonzero' sound
  cases (isOwner.symm.trans same).trans isOwner'
  rcases how with call | has <;> rcases how' with call' | has'
  · exact sound.host.answered.one _ _ _ call call'
  · exact absurd (has'.symm.trans (sound.host.answered.apart _ _ i call used rfl)) nonzero'
  · exact absurd (has.symm.trans (sound.host.answered.apart _ _ i call' used rfl)) nonzero
  · exact has.symm.trans has'

/-- A slot that is not free is the reactor's, serves a process, or is about to be given back. -/
theorem taken_cases (sound : s.Sound) (mine : slot ∈ s.host.pool.all) (busy : slot ∉ s.host.pool.free) :
    s.reactor.slot = some slot ∨ s.serves slot = true ∨ s.leaves slot = true := by
  have nonzero : slot ≠ 0 := by
    rintro rfl
    exact sound.host.owned.nonzero mine
  unfold serves leaves
  cases there : s.tasks slot with
  | some task =>
    refine .inr ?_
    cases found : s.host.findProc task.pid with
    | none => exact .inr (by simp [found])
    | some i => by_cases sent : task.stage = .sent <;> simp [sent, found]
  | none =>
    have all := sound.host.owned.owners slot nonzero
    rw [if_pos mine, List.count_eq_zero_of_not_mem busy] at all
    by_cases its : s.reactor.slot = some slot
    · exact .inl its
    · refine .inr (.inl ?_)
      have some : 0 < waits s.host.procs slot := by
        simp only [held, there, its, Option.isSome_none, Bool.false_eq_true, if_false] at all
        omega
      obtain ⟨i, member, has⟩ := List.countP_pos_iff.mp some
      exact List.find?_isSome.mpr ⟨i, member, has⟩

/-- In every sound state: the slots in use are those of used processes, of the reactor, and of tasks that are about
to give them back. -/
theorem taken_le (sound : s.Sound) :
    s.taken ≤ s.usedProcs + (if s.reactor.slot.isSome then 1 else 0) + s.leaving := by
  have owned := sound.host.owned
  have nonzero {slot : Nat} (mine : slot ∈ s.host.pool.all) : slot ≠ 0 := by
    rintro rfl
    exact owned.nonzero mine
  -- The slots that serve a process are told apart by its entry.
  have served : s.host.pool.all.countP s.serves ≤ s.usedProcs := by
    refine countP_le_of_inj (fun slot => (s.owner slot).getD ⟨0, by decide⟩) owned.nodup (fun slot mine serves => ?_)
      fun slot mine other mine' serves serves' same => ?_
    · obtain ⟨i, isOwner, used, -⟩ := serves_cases serves (nonzero mine) sound
      rw [isOwner]
      exact ⟨List.mem_finRange i, by simpa using used⟩
    · obtain ⟨i, isOwner, -⟩ := serves_cases serves (nonzero mine) sound
      obtain ⟨j, isOwner', -⟩ := serves_cases serves' (nonzero mine') sound
      rw [isOwner, isOwner'] at same
      refine owner_inj sound serves serves' (nonzero mine) (nonzero mine') ?_
      rw [isOwner, isOwner']
      exact congrArg some same
  have reactor : s.host.pool.all.countP (fun slot => s.reactor.slot = some slot) ≤
      if s.reactor.slot.isSome then 1 else 0 := by
    cases its : s.reactor.slot with
    | none => exact Nat.le_of_eq (List.countP_eq_zero.mpr fun slot _ => by simp)
    | some slot =>
      have same : s.host.pool.all.countP (fun other => some slot = some other) = s.host.pool.all.count slot :=
        List.countP_congr fun other _ => by
          rw [decide_eq_true_iff, beq_iff_eq, Option.some_inj]
          exact eq_comm
      rw [same]
      exact List.nodup_iff_count_le_one.mp owned.nodup slot
  have busy : s.host.pool.all.countP (fun slot => slot ∉ s.host.pool.free) ≤
      s.host.pool.all.countP (fun slot => s.reactor.slot = some slot) +
        s.host.pool.all.countP (fun slot => s.serves slot || s.leaves slot) := by
    refine countP_le_add fun slot mine busy => ?_
    rcases taken_cases sound mine (of_decide_eq_true busy) with its | serves | leaves
    · exact .inl (decide_eq_true its)
    · exact .inr (by simp [serves])
    · exact .inr (by simp [leaves])
  have either : s.host.pool.all.countP (fun slot => s.serves slot || s.leaves slot) ≤
      s.host.pool.all.countP s.serves + s.leaving :=
    countP_le_add fun slot _ is => by simpa using is
  have free : s.host.pool.all.countP (fun slot => slot ∈ s.host.pool.free) ≤ s.host.pool.free.length := by
    have all : s.host.pool.all.countP (fun slot => slot ∈ s.host.pool.free) ≤ s.host.pool.free.countP fun _ => true :=
      countP_le_of_inj id owned.nodup (fun slot _ is => ⟨of_decide_eq_true is, rfl⟩)
        fun slot _ other _ _ _ same => same
    rwa [List.countP_true] at all
  have all := List.length_eq_countP_add_countP (fun slot => decide (slot ∈ s.host.pool.free)) (l := s.host.pool.all)
  have rest : s.host.pool.all.countP (fun slot => decide ¬ decide (slot ∈ s.host.pool.free) = true) =
      s.host.pool.all.countP (fun slot => slot ∉ s.host.pool.free) :=
    List.countP_congr fun slot _ => by simp
  unfold taken
  omega

theorem usedProcs_le : s.usedProcs ≤ maxProcs := by
  refine Nat.le_trans (List.countP_le_length ..) ?_
  rw [List.length_finRange]

/-- A task that is about to give its slot back is being polled, if kills spare the processes with pending calls. -/
theorem leaves_polled (sound : s.Sound) (live : s.DueLive .pending) (leaves : s.leaves slot = true) :
    ∃ thread, s.polling thread = some slot := by
  unfold HostSystem.leaves at leaves
  split at leaves
  · rename_i task there
    have how := of_decide_eq_true leaves
    have late : DueKind.pending.due task.request task.stage = false := by
      rcases how with sent | gone
      · rw [sent]
        rfl
      · -- The process of a pending call has not ended, and would be found.
        by_contra due
        obtain ⟨i, isPid, alive⟩ := live.tasks slot task.pid ((taskDue_iff there).mpr ⟨rfl, by simpa using due⟩)
        exact Processes.findProc_none gone i alive.used isPid
    refine sound.polled slot task there (sound.going slot task there ?_ ?_)
    · cases stage : task.stage <;> rw [stage] at late <;> first | rfl | cases late
    · intro spawned
      rw [spawned] at late
      cases late
  · cases leaves

/-- The threads of the host. -/
def threadList : List (Option (Fin numWorkerThreads)) := none :: (List.finRange numWorkerThreads).map some

theorem mem_threadList (thread : Option (Fin numWorkerThreads)) : thread ∈ threadList := by
  cases thread with
  | none => exact List.mem_cons_self
  | some worker => exact List.mem_cons_of_mem _ (List.mem_map.mpr ⟨worker, List.mem_finRange worker, rfl⟩)

/-- So there are no more such tasks than threads that poll. -/
theorem leaving_le {s : HostSystem (Fin numWorkerThreads)} (sound : s.Sound) (live : s.DueLive .pending) :
    s.leaving ≤ threadList.countP fun thread => (s.polling thread).isSome := by
  have polled (slot : Nat) (leaves : s.leaves slot = true) :
      ∃ thread, threadList.find? (fun thread => s.polling thread = some slot) = some thread ∧
        s.polling thread = some slot := by
    obtain ⟨thread, polls⟩ := leaves_polled sound live leaves
    have found : (threadList.find? fun thread => s.polling thread = some slot).isSome :=
      List.find?_isSome.mpr ⟨thread, mem_threadList thread, decide_eq_true polls⟩
    obtain ⟨thread', is⟩ := Option.isSome_iff_exists.mp found
    exact ⟨thread', is, by simpa using List.find?_some is⟩
  refine countP_le_of_inj (fun slot => (threadList.find? fun thread => s.polling thread = some slot).getD none)
    sound.host.owned.nodup (fun slot _ leaves => ?_) fun slot _ other _ leaves leaves' same => ?_
  · obtain ⟨thread, is, polls⟩ := polled slot leaves
    rw [is]
    refine ⟨mem_threadList _, ?_⟩
    rw [Option.getD_some, polls]
    rfl
  · obtain ⟨thread, is, polls⟩ := polled slot leaves
    obtain ⟨thread', is', polls'⟩ := polled other leaves'
    rw [is, is', Option.getD_some, Option.getD_some] at same
    rw [same] at polls
    exact Option.some.inj (polls.symm.trans polls')

theorem threadList_length : threadList.length = 1 + numWorkerThreads := rfl

/-- While the main thread is idle, only the workers poll. -/
theorem polling_le {s : HostSystem (Fin numWorkerThreads)} (idle : s.polling none = none) :
    (threadList.countP fun thread => (s.polling thread).isSome) ≤ numWorkerThreads := by
  unfold threadList
  rw [List.countP_cons, idle]
  refine Nat.le_trans (Nat.add_le_add_right (List.countP_le_length ..) _) ?_
  rw [List.length_map, List.length_finRange]
  exact Nat.le_refl _

/-- Taking a slot does not stop the host where no kill has hit a process with a pending call. -/
theorem not_outOfReplyCaps {s s' : HostSystem (Fin numWorkerThreads)} {move : HostMove (Fin numWorkerThreads)}
    (sound : s.Sound) (live : s.DueLive .pending) (made : s.step move = some s') :
    s'.host.halted ≠ some .outOfReplyCaps := by
  intro out
  rcases halted_of_step sound made with halted | halted | ⟨-, idle, main, empty⟩ | ⟨halted, -⟩
  · cases out.symm.trans halted
  · cases out.symm.trans halted
  · -- There are more slots than processes, workers and the reactor can have.
    have few := taken_le sound
    have leaving := Nat.le_trans (leaving_le sound live) (polling_le main)
    have used := usedProcs_le (s := s)
    have length := sound.host.owned.length_eq
    simp only [taken, idle, Reactor.slot, empty, List.length_nil, Option.isSome_none, Bool.false_eq_true, if_false,
      length, maxFaultReplyCaps, maxProcs, numWorkerThreads] at few leaving used
    omega
  · cases out.symm.trans halted

/--
However calls, kills and answers alternate, the slots in use are no more than the used processes, the reactor's, and
those of tasks that have answered their process or whose process is gone; every slot has one owner at any time; and
giving a slot back never stops the host.

As long as no kill hits a process with a pending call, every thread has one such task at most, and taking a slot never
stops the host either.
-/
theorem reply_slots_bounded {caps : ReplySlots} {s : HostSystem (Fin numWorkerThreads)}
    (run : Run step (fun _ _ => True) (start caps) s) :
    s.taken ≤ s.usedProcs + 1 + s.leaving ∧
    (∀ slot ∈ s.host.pool.all, s.host.pool.free.count slot + s.held slot + waits s.host.procs slot = 1) ∧
    (s.host.halted = none ∨ s.host.halted = some .initEnded ∨ s.host.halted = some .unknownPid ∨
      s.host.halted = some .outOfReplyCaps) ∧
    (Run step (fun s move => s.spares .pending move = true) (start caps) s →
      s.leaving ≤ 1 + numWorkerThreads ∧ s.host.halted ≠ some .outOfReplyCaps) := by
  have sound : s.Sound := run.keeps Sound (start_sound caps) fun _ _ _ sound made _ => sound.step made
  refine ⟨?_, fun slot mine => ?_, ?_, fun sparing => ?_⟩
  · refine Nat.le_trans (taken_le sound) (Nat.add_le_add_right (Nat.add_le_add_left ?_ _) _)
    split <;> decide
  · have all := sound.host.owned.owners slot fun zero => sound.host.owned.nonzero (zero ▸ mine)
    rwa [if_pos mine] at all
  · cases run with
    | start => exact .inl rfl
    | move before move made =>
      have sound := before.keeps Sound (start_sound caps) fun _ _ _ sound made _ => sound.step made
      rcases halted_of_step sound made with halted | halted | ⟨halted, -⟩ | ⟨halted, -⟩ <;> simp [halted]
  · have live := sparing.keeps (fun s => (s.Sound ∧ s.DueLive .pending) ∧ s.host.halted ≠ some .outOfReplyCaps)
      ⟨⟨start_sound caps, start_dueLive caps⟩, nofun⟩ fun s move s' inv made ok =>
        ⟨⟨inv.1.1.step made, inv.1.2.step inv.1.1 made ok⟩, not_outOfReplyCaps inv.1.1 inv.1.2 made⟩
    exact ⟨Nat.le_trans (leaving_le sound live.1.2)
      (Nat.le_trans (List.countP_le_length ..) (Nat.le_of_eq threadList_length)), live.2⟩

section Sample

/-- A child exits while `init` waits for it. The worker that ends it is held up, and `init` goes to sleep. -/
def exitHeldUp : List (HostMove (Fin numWorkerThreads)) :=
  asks 1 .fork ++ carries none 72 ++ finishes none ++ asks 1 (.wait4 (-1) 0 false) ++ carries none 72 ++
    asks 2 (.exit 0) ++ carries (some ⟨0, by decide⟩) 71 ++ asks 1 .other ++ [.poll none 72, .look none, .rest none, .acquire]

theorem exitHeldUp_made :
    (moves (guarded step (spares .pending)) (start sampleSlots) exitHeldUp).isSome = true := by decide +kernel

/-- One process is left, and three slots are in use. -/
theorem more_slots_than_processes : ∃ s : HostSystem (Fin numWorkerThreads),
    Run step (fun _ _ => True) (start sampleSlots) s ∧ s.usedProcs = 1 ∧ s.usedProcs + 1 < s.taken := by
  have run := Run.of_guarded .start _ (Option.some_get exitHeldUp_made).symm
  exact ⟨_, run.mono fun _ _ _ => trivial, by decide +kernel, by decide +kernel⟩

/-- A child sleeps in a call, is killed by the other one, and is reaped for `init`. -/
def killedAsleep : List (HostMove (Fin numWorkerThreads)) :=
  twoChildren ++ asks 2 .other ++ [.poll none 72, .look none, .rest none] ++ asks 1 (.wait4 (-1) 0 false) ++
    carries none 71 ++ asks 3 (.kill 2) ++ carries none 70

theorem killedAsleep_made : (moves step (start sampleSlots) killedAsleep).isSome = true := by decide +kernel

theorem killedIdle_spared :
    (moves (guarded step (spares .pending)) (start sampleSlots) killedIdle).isSome = true := by decide +kernel

/-- The task of the killed child still has its slot; and after a kill of an idle child nothing is left over. -/
theorem reply_slots_bounded_sample :
    (∃ s : HostSystem (Fin numWorkerThreads), Run step (fun _ _ => True) (start sampleSlots) s ∧
      s.host.reaps = [{ waiter := 1, pid := 2, status := 256 }] ∧ s.taken = 2 ∧ s.leaving = 1 ∧
      s.taken ≤ s.usedProcs + 1 + s.leaving) ∧
    ∃ s : HostSystem (Fin numWorkerThreads),
      Run step (fun s move => s.spares .pending move = true) (start sampleSlots) s ∧
      s.host.reaps = [{ waiter := 1, pid := 2, status := 256 }] ∧
      s.leaving ≤ 1 + numWorkerThreads ∧ s.host.halted ≠ some .outOfReplyCaps := by
  have asleep := Run.start.of_moves _ (Option.some_get killedAsleep_made).symm
  have idle := Run.of_guarded .start _ (Option.some_get killedIdle_spared).symm
  exact ⟨⟨_, asleep, by decide +kernel, by decide +kernel, by decide +kernel, (reply_slots_bounded asleep).1⟩,
    _, idle, by decide +kernel, (reply_slots_bounded (idle.mono fun _ _ _ => trivial)).2.2.2 idle⟩

end Sample

end HostSystem

end Rel4.Host
