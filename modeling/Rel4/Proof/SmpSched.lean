import Mathlib.Data.List.Perm.Subperm
import Rel4.Kernel.Smp

/-! Where a runnable thread is while the cores of a machine schedule, wake and halt threads. -/

namespace Rel4

open Function (update update_apply update_of_ne update_self)

namespace Smp

variable {s s' : Smp} {lists : Nat → List Addr} {owed owed' : Addr → Prop} {core c : Nat}
  {t u : Addr}

/-- A thread is current on its home core, or on that core's runqueue. -/
def Placed (s : Smp) (lists : Nat → List Addr) (t : Addr) : Prop :=
  (s.cpus (s.homeCore t)).current = some t ∨ t ∈ lists (s.homeCore t)

/--
The scheduler's part of the state is in order, with these lists on the runqueues.

Threads that are owed a halt may be nowhere.
-/
structure Scheduled (s : Smp) (lists : Nat → List Addr) (owed : Addr → Prop) : Prop where
  nodes : 0 < s.maxNumNodes
  family : Lib.Family s.links (fun c => (s.cpus c).runqueue) lists fun _ => False
  queued : ∀ c t, t ∈ lists c → t < walkLimit ∧ s.isIdleThread t = false ∧
    s.isRunnable t = true ∧ s.homeCore t = c
  current : ∀ c t, (s.cpus c).current = some t →
    s.isIdleThread t = true ∨ t < walkLimit ∧ s.homeCore t = c
  placed : ∀ t, s.isIdleThread t = false → s.isRunnable t = true → owed t ∨ s.Placed lists t

/-- What the scheduler looks at has not changed. -/
structure Alike (s s' : Smp) : Prop where
  maxNumNodes : s'.maxNumNodes = s.maxNumNodes
  idleTcbs : s'.idleTcbs = s.idleTcbs
  affinity : s'.affinity = s.affinity
  states : s'.states = s.states
  links : s'.links = s.links
  runqueue : ∀ c, (s'.cpus c).runqueue = (s.cpus c).runqueue
  current : ∀ c, (s'.cpus c).current = (s.cpus c).current

theorem updCpu_cpus (change : Cpu → Cpu) (c : Nat) :
    (s.updCpu core change).cpus c = if c = core then change (s.cpus core) else s.cpus c := by
  by_cases here : c = core
  · subst here
    simp [updCpu]
  · simp [updCpu, here]

theorem Alike.timeSlices {timeSlices : Addr → Nat} : Alike s { s with timeSlices } :=
  ⟨rfl, rfl, rfl, rfl, rfl, fun _ => rfl, fun _ => rfl⟩

/-- Changing a core's flags or phase is nothing to the scheduler. -/
theorem Alike.updCpu {change : Cpu → Cpu} (runqueue : (change (s.cpus core)).runqueue =
      (s.cpus core).runqueue) (current : (change (s.cpus core)).current = (s.cpus core).current) :
    Alike s (s.updCpu core change) := by
  refine ⟨rfl, rfl, rfl, rfl, rfl, fun c => ?_, fun c => ?_⟩ <;> rw [updCpu_cpus] <;> split <;>
    simp_all

theorem Alike.homeCore (alike : Alike s s') (t : Addr) : s'.homeCore t = s.homeCore t := by
  simp [Smp.homeCore, alike.maxNumNodes, alike.affinity]

theorem Alike.isIdleThread (alike : Alike s s') (t : Addr) :
    s'.isIdleThread t = s.isIdleThread t := by
  simp [Smp.isIdleThread, alike.maxNumNodes, alike.idleTcbs]

theorem Alike.isRunnable (alike : Alike s s') (t : Addr) : s'.isRunnable t = s.isRunnable t := by
  simp [Smp.isRunnable, alike.states]

section

variable (sched : s.Scheduled lists owed)
include sched

theorem Scheduled.congr (alike : Alike s s') :
    s'.Scheduled lists owed := by
  refine ⟨?_, ?_, fun c t here => ?_, fun c t here => ?_, fun t other runnable => ?_⟩
  · exact alike.maxNumNodes ▸ sched.nodes
  · rw [alike.links, funext alike.runqueue]
    exact sched.family
  · rw [alike.isIdleThread, alike.isRunnable, alike.homeCore]
    exact sched.queued c t here
  · rw [alike.current] at here
    rw [alike.isIdleThread, alike.homeCore]
    exact sched.current c t here
  · rw [alike.isIdleThread] at other
    rw [alike.isRunnable] at runnable
    rw [Placed, alike.homeCore, alike.current]
    exact sched.placed t other runnable

/-- Fewer threads may be owed a halt if the others are placed. -/
theorem Scheduled.settle (settled : ∀ t, s.isIdleThread t = false → s.isRunnable t = true → owed t →
      owed' t ∨ s.Placed lists t) : s.Scheduled lists owed' := by
  refine ⟨sched.nodes, sched.family, sched.queued, sched.current, fun t other runnable => ?_⟩
  rcases sched.placed t other runnable with isOwed | placed
  · exact settled t other runnable isOwed
  · exact .inr placed

theorem Scheduled.homeCore_lt (t : Addr) :
    s.homeCore t < s.maxNumNodes := by
  have := sched.nodes
  unfold homeCore
  split <;> assumption

/-- There are no more threads on a runqueue than addresses, so a walk finds exactly its members. -/
theorem Scheduled.contains_iff :
    s.contains c t = true ↔ t ∈ lists c := by
  have queue := sched.family.queue c
  refine queue.forward.reaches_iff ?_
  have bounded : lists c ⊆ List.range walkLimit := fun u here =>
    List.mem_range.mpr (sched.queued c u here).1
  simpa using (List.Nodup.subperm queue.nodup bounded).length_le

/-- A thread is on no runqueue but its home core's. -/
theorem Scheduled.mem_home (here : t ∈ lists c) :
    t ∈ lists (s.homeCore t) := by
  rw [(sched.queued c t here).2.2.2]
  exact here

/-- Queueing a runnable thread places it. -/
theorem Scheduled.enqueue (small : t < walkLimit) :
    ∃ lists', (s.enqueue t).Scheduled lists' (fun u => owed u ∧ u ≠ t) ∧ (∀ c u, u ∈ lists c → u ∈ lists' c) ∧
      (s.isIdleThread t = false → s.isRunnable t = true → t ∈ lists' (s.homeCore t)) := by
  unfold Smp.enqueue
  split
  · rename_i skipped
    refine ⟨lists, sched.settle fun u other runnable isOwed => .inl ⟨isOwed, ?_⟩,
      fun c u here => here, fun other runnable => ?_⟩
    · rintro rfl
      simp [other, runnable] at skipped
    · simp [other, runnable] at skipped
  rename_i eligible
  obtain ⟨other, runnable⟩ : s.isIdleThread t = false ∧ s.isRunnable t = true := by
    simpa using eligible
  by_cases queued : t ∈ lists (s.homeCore t)
  · rw [if_pos (by simp [sched.contains_iff.mpr queued])]
    refine ⟨lists, sched.settle fun u _ _ isOwed => ?_, fun c u here => here, fun _ _ => queued⟩
    by_cases same : u = t
    · exact .inr (.inr (same ▸ queued))
    · exact .inl ⟨isOwed, same⟩
  have fresh : ∀ c, t ∉ lists c := fun c here => queued (sched.mem_home here)
  have unlinked : s.links t = {} := sched.family.unlinked t fresh not_false
  rw [if_neg (by simp [sched.contains_iff, queued, unlinked, Lib.Links.isUnlinked])]
  have member : ∀ {c u}, u ∈ update lists (s.homeCore t) (lists (s.homeCore t) ++ [t]) c ↔
      u ∈ lists c ∨ u = t ∧ c = s.homeCore t := by
    intro c u
    by_cases here : c = s.homeCore t
    · subst here
      simp
    · simp [here]
  have current : ∀ c, ((s.pushBack (s.homeCore t) t).cpus c).current = (s.cpus c).current := by
    intro c
    simp only [Smp.pushBack, updCpu_cpus]
    split <;> simp_all
  refine ⟨update lists (s.homeCore t) (lists (s.homeCore t) ++ [t]),
    ⟨sched.nodes, ?_, fun c u here => ?_, fun c u here => ?_, fun u other' runnable' => ?_⟩,
    fun c u here => member.mpr (.inl here), fun _ _ => member.mpr (.inr ⟨rfl, rfl⟩)⟩
  · have ends : (fun c => ((s.pushBack (s.homeCore t) t).cpus c).runqueue) =
        update (fun c => (s.cpus c).runqueue) (s.homeCore t)
          (Lib.pushBack s.links (s.cpus (s.homeCore t)).runqueue t).2 := by
      funext c
      simp only [Smp.pushBack, updCpu_cpus, update_apply]
      split <;> rfl
    rw [ends]
    exact sched.family.pushBack (s.homeCore t) fresh
  · rcases member.mp here with old | ⟨rfl, rfl⟩
    · exact sched.queued c u old
    · exact ⟨small, other, runnable, rfl⟩
  · rw [current] at here
    exact sched.current c u here
  · by_cases same : u = t
    · subst same
      exact .inr (.inr (member.mpr (.inr ⟨rfl, rfl⟩)))
    · rcases sched.placed u other' runnable' with isOwed | onCore | inList
      · exact .inl ⟨isOwed, same⟩
      · exact .inr (.inl ((current _).trans onCore))
      · exact .inr (.inr (member.mpr (.inl inList)))

/-- A thread taken off its runqueue is nowhere. -/
theorem Scheduled.dequeue (t : Addr) :
    ∃ lists', (s.dequeue t).Scheduled lists' (fun u => owed u ∨ u = t) ∧
      (∀ c u, u ∈ lists' c ↔ u ∈ lists c ∧ u ≠ t) := by
  unfold Smp.dequeue
  split
  · rename_i core found
    have inList : t ∈ lists core := sched.contains_iff.mp (by simpa using List.find?_some found)
    obtain ⟨pre, post, split⟩ := List.append_of_mem inList
    have nodup := (sched.family.queue core).nodup
    rw [split, List.nodup_middle, List.nodup_cons, List.mem_append, not_or] at nodup
    have member : ∀ c u, u ∈ update lists core (pre ++ post) c ↔ u ∈ lists c ∧ u ≠ t := by
      intro c u
      by_cases here : c = core
      · subst here
        rw [update_self, split]
        simp only [List.mem_append, List.mem_cons]
        constructor
        · rintro (before | after)
          · exact ⟨.inl before, fun same => nodup.1.1 (same ▸ before)⟩
          · exact ⟨.inr (.inr after), fun same => nodup.1.2 (same ▸ after)⟩
        · rintro ⟨before | same | after, other⟩
          · exact .inl before
          · exact absurd same other
          · exact .inr after
      · rw [update_of_ne here]
        refine ⟨fun there => ⟨there, ?_⟩, And.left⟩
        rintro rfl
        exact here (sched.family.apart c core u there inList)
    have current : ∀ c, ((s.remove core t).cpus c).current = (s.cpus c).current := by
      intro c
      simp only [Smp.remove, updCpu_cpus]
      split <;> simp_all
    refine ⟨_, ⟨sched.nodes, ?_, fun c u here => ?_, fun c u here => ?_,
      fun u other runnable => ?_⟩, member⟩
    · have ends : (fun c => ((s.remove core t).cpus c).runqueue) =
          update (fun c => (s.cpus c).runqueue) core
            (Lib.remove s.links (s.cpus core).runqueue t).2 := by
        funext c
        simp only [Smp.remove, updCpu_cpus, update_apply]
        split <;> rfl
      rw [ends]
      exact sched.family.remove split
    · exact sched.queued c u ((member c u).mp here).1
    · rw [current] at here
      exact sched.current c u here
    · rcases sched.placed u other runnable with isOwed | onCore | there
      · exact .inl (.inl isOwed)
      · exact .inr (.inl ((current _).trans onCore))
      · by_cases same : u = t
        · exact .inl (.inr same)
        · exact .inr (.inr ((member _ u).mpr ⟨there, same⟩))
  · rename_i nowhere
    have absent : ∀ c, t ∉ lists c := by
      intro c here
      have home := sched.mem_home here
      rw [List.find?_eq_none] at nowhere
      exact nowhere _ (List.mem_range.mpr (sched.homeCore_lt t)) (sched.contains_iff.mpr home)
    refine ⟨lists, sched.settle fun u _ _ isOwed => .inl (.inl isOwed), fun c u => ?_⟩
    refine ⟨fun here => ⟨here, ?_⟩, And.left⟩
    rintro rfl
    exact absent c here

end

theorem isRunnable_setState_of_ne {state : ThreadState} (other : u ≠ t) :
    (s.setState t state).isRunnable u = s.isRunnable u := by
  simp [isRunnable, setState, other]

section

variable (sched : s.Scheduled lists owed)
include sched

/-- Stopping a thread leaves nobody else without a place. -/
theorem Scheduled.halt (t : Addr) :
    ∃ lists', (s.halt t).Scheduled lists' (fun u => owed u ∧ u ≠ t) := by
  unfold Smp.halt
  split
  · rename_i isIdle
    refine ⟨lists, sched.settle fun u other _ isOwed => .inl ⟨isOwed, ?_⟩⟩
    rintro rfl
    simp [isIdle] at other
  obtain ⟨lists', sched', member⟩ := sched.dequeue t
  refine ⟨lists', sched'.nodes, sched'.family, fun c u here => ?_, sched'.current,
    fun u other runnable => ?_⟩
  · obtain ⟨small, other, runnable, home⟩ := sched'.queued c u here
    refine ⟨small, other, ?_, home⟩
    rwa [isRunnable_setState_of_ne ((member c u).mp here).2]
  · by_cases same : u = t
    · subst same
      simp [isRunnable, setState, ThreadState.isRunnable] at runnable
    · rw [isRunnable_setState_of_ne same] at runnable
      rcases sched'.placed u other runnable with (isOwed | same') | placed
      · exact .inl ⟨isOwed, same⟩
      · exact absurd same' same
      · exact .inr placed

/-- A state change between two runnable states moves nobody. -/
theorem Scheduled.setState_runnable (t : Addr) (state : ThreadState) (runnable : state.isRunnable = true) :
    (s.setState t state).Scheduled lists (fun u => owed u ∨ u = t) := by
  refine ⟨sched.nodes, sched.family, fun c u here => ?_, sched.current,
    fun u other runnable' => ?_⟩
  · obtain ⟨small, other, runs, home⟩ := sched.queued c u here
    refine ⟨small, other, ?_, home⟩
    by_cases same : u = t
    · simp [isRunnable, setState, same, runnable]
    · rwa [isRunnable_setState_of_ne same]
  · by_cases same : u = t
    · exact .inl (.inr same)
    · rw [isRunnable_setState_of_ne same] at runnable'
      exact (sched.placed u other runnable').imp .inl id

theorem Scheduled.resume (small : t < walkLimit) :
    ∃ lists', (s.resume t).Scheduled lists' owed ∧ ∀ c u, u ∈ lists c → u ∈ lists' c := by
  unfold Smp.resume
  split
  · exact ⟨lists, sched, fun c u here => here⟩
  obtain ⟨lists', sched', keeps, -⟩ :=
    (sched.setState_runnable t .restart rfl).enqueue small
  refine ⟨lists', sched'.settle fun u _ _ isOwed => ?_, keeps⟩
  obtain ⟨isOwed | same, other⟩ := isOwed
  · exact .inl isOwed
  · exact absurd same other

/-- Restoring a thread changes its state but not its place. -/
theorem Scheduled.prepareForUserRestore (t : Addr) : (s.prepareForUserRestore t).Scheduled lists owed := by
  unfold Smp.prepareForUserRestore
  split
  · rename_i restarted
    refine (sched.setState_runnable t .running rfl).settle fun u other _ isOwed => ?_
    rcases isOwed with isOwed | rfl
    · exact .inl isOwed
    · exact sched.placed u other (by simp [isRunnable, restarted, ThreadState.isRunnable])
  · exact sched

/-- A core changes its current thread; the old one had better be queued. -/
theorem Scheduled.setCurrent (fits : s.isIdleThread t = true ∨ t < walkLimit ∧ s.homeCore t = core)
    (settled : ∀ u, s.isIdleThread u = false → s.isRunnable u = true →
      owed u ∨ (s.cpus core).current = some u → owed' u ∨ u = t ∨ u ∈ lists (s.homeCore u)) :
    (s.setCurrent core t).Scheduled lists owed' := by
  have current : ∀ c, ((s.setCurrent core t).cpus c).current =
      if c = core then some t else (s.cpus c).current := by
    intro c
    simp only [Smp.setCurrent, updCpu_cpus]
    split <;> rfl
  have runqueue : ∀ c, ((s.setCurrent core t).cpus c).runqueue = (s.cpus c).runqueue := by
    intro c
    simp only [Smp.setCurrent, updCpu_cpus]
    split <;> simp_all
  refine ⟨sched.nodes, ?_, sched.queued, fun c u here => ?_, fun u other runnable => ?_⟩
  · rw [funext runqueue]
    exact sched.family
  · rw [current] at here
    split at here
    · rename_i same
      cases here
      exact same ▸ fits
    · exact sched.current c u here
  · have here : u = t → (s.setCurrent core t).Placed lists u := by
      rintro rfl
      rcases fits with isIdle | ⟨-, home⟩
      · exact absurd (isIdle.symm.trans other) (by simp)
      · exact .inl ((current _).trans (if_pos home))
    rcases sched.placed u other runnable with isOwed | onCore | inList
    · rcases settled u other runnable (.inl isOwed) with later | same | inList
      · exact .inl later
      · exact .inr (here same)
      · exact .inr (.inr inList)
    · by_cases home : s.homeCore u = core
      · rcases settled u other runnable (.inr (home ▸ onCore)) with later | same | inList
        · exact .inl later
        · exact .inr (here same)
        · exact .inr (.inr inList)
      · exact .inr (.inl (((current _).trans (if_neg home)).trans onCore))
    · exact .inr (.inr inList)

end

theorem Scheduled.isIdleThread_idleTcbs (bound : core < s.maxNumNodes) :
    s.isIdleThread (s.idleTcbs core) = true := by
  simp only [isIdleThread, List.any_eq_true, List.mem_range, beq_iff_eq]
  exact ⟨core, bound, rfl⟩

/-- Everybody on a runqueue may run there, so the head is the choice. -/
theorem Scheduled.peekSchedule (sched : s.Scheduled lists owed) :
    Smp.peekSchedule core walkLimit s = ((lists core).head?, s) := by
  obtain ⟨steps, limit⟩ : ∃ steps, walkLimit = steps + 1 := ⟨2 ^ 64 - 1, by decide⟩
  have head := (sched.family.queue core).head
  rw [limit, Smp.peekSchedule]
  cases empty : (lists core).head? with
  | none =>
    rw [empty] at head
    simp [head]
  | some candidate =>
    rw [empty] at head
    obtain ⟨-, -, runnable, home⟩ := sched.queued core candidate (List.mem_of_head? empty)
    simp [head, isRunnableOn, runnable, home]

/-- The scheduler takes the head off the runqueue, or finds it empty. -/
theorem Scheduled.schedule (sched : s.Scheduled lists owed) (core : Nat) :
    (lists core = [] ∧ s.schedule core = (none, s)) ∨
      ∃ next ∈ lists core, s.schedule core = (some next, s.dequeue next) := by
  cases listed : lists core with
  | nil => exact .inl ⟨rfl, by simp [Smp.schedule, sched.peekSchedule, listed]⟩
  | cons next rest =>
    exact .inr ⟨next, List.mem_cons_self, by simp [Smp.schedule, sched.peekSchedule, listed]⟩

@[simp] theorem dequeue_cpus_current : ((s.dequeue t).cpus c).current = (s.cpus c).current := by
  unfold Smp.dequeue
  split
  · simp only [Smp.remove, updCpu_cpus]
    split <;> simp_all
  · rfl

@[simp] theorem homeCore_dequeue : (s.dequeue t).homeCore u = s.homeCore u := by
  unfold Smp.dequeue
  split <;> rfl

@[simp] theorem isIdleThread_dequeue : (s.dequeue t).isIdleThread u = s.isIdleThread u := by
  unfold Smp.dequeue
  split <;> rfl

@[simp] theorem isRunnable_dequeue : (s.dequeue t).isRunnable u = s.isRunnable u := by
  unfold Smp.dequeue
  split <;> rfl

section

variable (sched : s.Scheduled lists owed)
include sched

/-- Switching to a thread from the runqueue loses nobody if the old current thread is accounted for. -/
theorem Scheduled.switchTo {next : Addr} (chosen : next ∈ lists core)
    (settled : ∀ u, s.isIdleThread u = false → s.isRunnable u = true →
      (s.cpus core).current = some u → owed u ∨ u ∈ lists (s.homeCore u)) :
    ∃ lists', (((s.dequeue next).setCurrent core next).prepareForUserRestore next).Scheduled
      lists' owed := by
  obtain ⟨lists', sched', member⟩ := sched.dequeue next
  obtain ⟨small, -, -, home⟩ := sched.queued core next chosen
  refine ⟨lists', (sched'.setCurrent (.inr ⟨small, by simpa using home⟩)
    fun u other runnable where' => ?_).prepareForUserRestore next⟩
  simp only [isIdleThread_dequeue] at other
  simp only [isRunnable_dequeue] at runnable
  simp only [dequeue_cpus_current] at where'
  simp only [homeCore_dequeue]
  by_cases same : u = next
  · exact .inr (.inl same)
  rcases where' with (isOwed | same') | onCore
  · exact .inl isOwed
  · exact absurd same' same
  · rcases settled u other runnable onCore with isOwed | inList
    · exact .inl isOwed
    · exact .inr (.inr ((member _ u).mpr ⟨inList, same⟩))

/-- So does falling back to the idle thread. -/
theorem Scheduled.switchToIdleThread (bound : core < s.maxNumNodes)
    (settled : ∀ u, s.isIdleThread u = false → s.isRunnable u = true →
      (s.cpus core).current = some u → owed u ∨ u ∈ lists (s.homeCore u)) :
    (s.switchToIdleThread core).Scheduled lists owed := by
  refine sched.setCurrent (.inl (isIdleThread_idleTcbs bound)) fun u other runnable where' => ?_
  rcases where' with isOwed | onCore
  · exact .inl isOwed
  · exact (settled u other runnable onCore).imp id .inr

theorem Scheduled.restoreScheduledOrIdle (bound : core < s.maxNumNodes)
    (settled : ∀ u, s.isIdleThread u = false → s.isRunnable u = true →
      (s.cpus core).current = some u → owed u ∨ u ∈ lists (s.homeCore u)) :
    ∃ lists', (s.restoreScheduledOrIdle core).Scheduled lists' owed := by
  unfold Smp.restoreScheduledOrIdle
  rcases sched.schedule core with ⟨-, none⟩ | ⟨next, chosen, some⟩
  · rw [none]
    exact ⟨lists, sched.switchToIdleThread bound settled⟩
  · rw [some]
    exact sched.switchTo chosen settled

/-- The current thread of a core belongs there, so nothing is to be migrated. -/
theorem Scheduled.enqueueIfMigratedFrom
    (isCurrent : (s.cpus core).current = some t) : s.enqueueIfMigratedFrom core t = s := by
  unfold Smp.enqueueIfMigratedFrom
  rcases sched.current core t isCurrent with isIdle | ⟨-, home⟩
  · simp [isIdle]
  · simp [home]

end

theorem enqueue_cpus_current : ((s.enqueue t).cpus c).current = (s.cpus c).current := by
  unfold Smp.enqueue
  split
  · rfl
  split
  · rfl
  · simp only [Smp.pushBack, updCpu_cpus]
    split <;> simp_all

/-- A rotation queues the current thread if it may run, and takes the head of the runqueue. -/
theorem Scheduled.rotate (sched : s.Scheduled lists owed) (bound : core < s.maxNumNodes)
    (isCurrent : (s.cpus core).current = some t) :
    ∃ lists', (match (if s.isRunnableOn core t then s.enqueue t else s).schedule core with
      | (some next, s) => (s.setCurrent core next).prepareForUserRestore next
      | (none, s) =>
        if s.isRunnableOn core t then s.prepareForUserRestore t
        else s.switchToIdleThread core).Scheduled lists' owed := by
  have fits := sched.current core t isCurrent
  -- After the first step the current thread is queued, idle, or not allowed to run.
  obtain ⟨lists', s', same, sched', isCurrent', bound', settled⟩ : ∃ lists' s',
      (if s.isRunnableOn core t then s.enqueue t else s) = s' ∧ s'.Scheduled lists' owed ∧
      (s'.cpus core).current = some t ∧ core < s'.maxNumNodes ∧
      (s'.isIdleThread t = false → s'.isRunnable t = true → t ∈ lists' (s'.homeCore t)) := by
    by_cases runs : s.isRunnableOn core t
    · rcases fits with isIdle | ⟨small, home⟩
      · refine ⟨lists, s, ?_, sched, isCurrent, bound, fun other => ?_⟩
        · simp [runs, Smp.enqueue, isIdle]
        · simp [isIdle] at other
      · obtain ⟨lists', sched', -, placed⟩ := sched.enqueue small
        have shape : (s.enqueue t).maxNumNodes = s.maxNumNodes ∧
            (∀ u, (s.enqueue t).isIdleThread u = s.isIdleThread u) ∧
            (∀ u, (s.enqueue t).isRunnable u = s.isRunnable u) ∧
            ∀ u, (s.enqueue t).homeCore u = s.homeCore u := by
          unfold Smp.enqueue
          split
          · simp
          split
          · simp
          · exact ⟨rfl, fun _ => rfl, fun _ => rfl, fun _ => rfl⟩
        refine ⟨lists', s.enqueue t, if_pos runs, sched'.settle fun u _ _ isOwed => .inl isOwed.1,
          enqueue_cpus_current.trans isCurrent, shape.1.symm ▸ bound, ?_⟩
        rw [shape.2.1, shape.2.2.1, shape.2.2.2]
        exact placed
    · refine ⟨lists, s, if_neg runs, sched, isCurrent, bound, fun other runnable => ?_⟩
      rcases fits with isIdle | ⟨-, home⟩
      · simp [isIdle] at other
      · simp [isRunnableOn, runnable, home] at runs
  rw [same]
  have accounted : ∀ u, s'.isIdleThread u = false → s'.isRunnable u = true →
      (s'.cpus core).current = some u → owed u ∨ u ∈ lists' (s'.homeCore u) := by
    intro u other runnable onCore
    rw [isCurrent', Option.some.injEq] at onCore
    subst onCore
    exact .inr (settled other runnable)
  rcases sched'.schedule core with ⟨-, none⟩ | ⟨next, chosen, some⟩
  · rw [none]
    dsimp only
    split
    · exact ⟨lists', sched'.prepareForUserRestore t⟩
    · exact ⟨lists', sched'.switchToIdleThread bound' accounted⟩
  · rw [some]
    exact sched'.switchTo chosen accounted

theorem Alike.trans {s'' : Smp} (first : Alike s s') (second : Alike s' s'') : Alike s s'' :=
  ⟨second.maxNumNodes.trans first.maxNumNodes, second.idleTcbs.trans first.idleTcbs,
    second.affinity.trans first.affinity, second.states.trans first.states,
    second.links.trans first.links, fun c => (second.runqueue c).trans (first.runqueue c),
    fun c => (second.current c).trans (first.current c)⟩

/-- At the kernel exit a runnable current thread stays current or goes on the runqueue. -/
theorem Scheduled.kernelExit (sched : s.Scheduled lists owed) (bound : core < s.maxNumNodes) :
    ∃ lists', (s.kernelExit core).Scheduled lists' owed := by
  unfold Smp.kernelExit
  split
  · rename_i none
    exact sched.restoreScheduledOrIdle bound fun u _ _ onCore => by simp [none] at onCore
  rename_i cur isCurrent
  rw [sched.enqueueIfMigratedFrom isCurrent]
  dsimp only
  -- The two flags are read and cleared on the way; the scheduler does not look at them.
  have alike : Alike s (if (s.cpus core).continueCurrentOnce = some cur then
      s.updCpu core fun cpu => { cpu with continueCurrentOnce := none } else s) := by
    split
    · exact .updCpu rfl rfl
    · exact ⟨rfl, rfl, rfl, rfl, rfl, fun _ => rfl, fun _ => rfl⟩
  generalize (if (s.cpus core).continueCurrentOnce = some cur then
      s.updCpu core fun cpu => { cpu with continueCurrentOnce := none } else s) = s₁ at alike ⊢
  split
  · exact ⟨lists, (sched.congr alike).prepareForUserRestore cur⟩
  have alike' : Alike s (s₁.updCpu core fun cpu => { cpu with rescheduleRequired := false }) :=
    alike.trans (.updCpu rfl rfl)
  generalize (s₁.updCpu core fun cpu => { cpu with rescheduleRequired := false }) = s₂ at alike' ⊢
  split
  · exact ⟨lists, (sched.congr alike').prepareForUserRestore cur⟩
  · exact (sched.congr alike').rotate (alike'.maxNumNodes ▸ bound)
      ((alike'.current core).trans isCurrent)

/-- What kernel work on one core leaves alone. -/
structure Within (core : Nat) (s s' : Smp) : Prop where
  maxNumNodes : s'.maxNumNodes = s.maxNumNodes
  idleTcbs : s'.idleTcbs = s.idleTcbs
  online : ∀ c, (s'.cpus c).online = (s.cpus c).online
  phase : ∀ c, (s'.cpus c).phase = (s.cpus c).phase
  current : ∀ c, c ≠ core → (s'.cpus c).current = (s.cpus c).current
  kernelLocked : s'.kernelLocked = s.kernelLocked
  remoteStall : s'.remoteStall = s.remoteStall
  /-- Only a thread that the core is making gets a new home. -/
  affinity : ∀ t, s'.affinity t = s.affinity t ∨
    s'.affinity t = core % 2 ^ 8 ∧ .init t ∈ (s.cpus core).phase.work

namespace Within

theorem refl : Within core s s :=
  ⟨rfl, rfl, fun _ => rfl, fun _ => rfl, fun _ _ => rfl, rfl, rfl, fun _ => .inl rfl⟩

theorem trans {s'' : Smp} (first : Within core s s') (second : Within core s' s'') :
    Within core s s'' :=
  ⟨second.maxNumNodes.trans first.maxNumNodes, second.idleTcbs.trans first.idleTcbs,
    fun c => (second.online c).trans (first.online c),
    fun c => (second.phase c).trans (first.phase c),
    fun c other => (second.current c other).trans (first.current c other),
    second.kernelLocked.trans first.kernelLocked, second.remoteStall.trans first.remoteStall,
    fun t => by
      have later := second.affinity t
      rw [first.phase] at later
      exact later.elim (fun same => same ▸ first.affinity t) .inr⟩

theorem updCpu {change : Cpu → Cpu} (online : (change (s.cpus c)).online = (s.cpus c).online)
    (phase : (change (s.cpus c)).phase = (s.cpus c).phase)
    (current : c ≠ core → (change (s.cpus c)).current = (s.cpus c).current) :
    Within core s (s.updCpu c change) := by
  refine ⟨rfl, rfl, fun c' => ?_, fun c' => ?_, fun c' other => ?_, rfl, rfl, fun _ => .inl rfl⟩ <;>
    rw [updCpu_cpus] <;> split <;> simp_all

theorem setState (t : Addr) (state : ThreadState) : Within core s (s.setState t state) :=
  { refl with }

theorem links {links : Addr → Links} : Within core s { s with links } :=
  { refl with }

theorem enqueue (t : Addr) : Within core s (s.enqueue t) := by
  unfold Smp.enqueue
  split
  · exact refl
  split
  · exact refl
  · simp only [Smp.pushBack]
    exact links.trans (updCpu rfl rfl fun _ => rfl)

theorem dequeue (t : Addr) : Within core s (s.dequeue t) := by
  unfold Smp.dequeue
  split
  · simp only [Smp.remove]
    exact links.trans (updCpu rfl rfl fun _ => rfl)
  · exact refl

theorem setCurrent (t : Addr) : Within core s (s.setCurrent core t) :=
  updCpu rfl rfl fun other => absurd rfl other

theorem prepareForUserRestore (t : Addr) : Within core s (s.prepareForUserRestore t) := by
  unfold Smp.prepareForUserRestore
  split
  · exact setState t .running
  · exact refl

theorem peekSchedule (steps : Nat) : Within core s (Smp.peekSchedule core steps s).2 := by
  induction steps generalizing s with
  | zero => exact refl
  | succ steps ih =>
    unfold Smp.peekSchedule
    split
    · exact refl
    split
    · exact refl
    · exact (dequeue _).trans ih

theorem schedule (core : Nat) : Within core s (s.schedule core).2 := by
  have peek : Within core s (Smp.peekSchedule core walkLimit s).2 := peekSchedule walkLimit
  unfold Smp.schedule
  split <;> rename_i chosen <;> rw [chosen] at peek
  · exact peek.trans (dequeue _)
  · exact peek

theorem restoreScheduledOrIdle : Within core s (s.restoreScheduledOrIdle core) := by
  have chosen := schedule (s := s) core
  unfold Smp.restoreScheduledOrIdle
  split <;> rename_i shape <;> rw [shape] at chosen
  · exact chosen.trans ((setCurrent _).trans (prepareForUserRestore _))
  · exact chosen.trans (setCurrent _)

theorem kernelExit : Within core s (s.kernelExit core) := by
  unfold Smp.kernelExit
  split
  · exact restoreScheduledOrIdle
  rename_i cur _
  have migrated : Within core s (s.enqueueIfMigratedFrom core cur) := by
    unfold Smp.enqueueIfMigratedFrom
    split
    · exact refl
    split
    · exact enqueue cur
    · exact refl
  refine migrated.trans ?_
  generalize s.enqueueIfMigratedFrom core cur = s₁
  dsimp only
  have flag : Within core s₁ (if (s₁.cpus core).continueCurrentOnce = some cur then
      s₁.updCpu core fun cpu => { cpu with continueCurrentOnce := none } else s₁) := by
    split
    · exact updCpu rfl rfl fun _ => rfl
    · exact refl
  refine flag.trans ?_
  generalize (if (s₁.cpus core).continueCurrentOnce = some cur then
      s₁.updCpu core fun cpu => { cpu with continueCurrentOnce := none } else s₁) = s₂
  split
  · exact prepareForUserRestore cur
  have cleared : Within core s₂ (s₂.updCpu core fun cpu => { cpu with rescheduleRequired := false }) :=
    updCpu rfl rfl fun _ => rfl
  refine cleared.trans ?_
  generalize (s₂.updCpu core fun cpu => { cpu with rescheduleRequired := false }) = s₃
  split
  · exact prepareForUserRestore cur
  have queued : Within core s₃ (if s₃.isRunnableOn core cur then s₃.enqueue cur else s₃) := by
    split
    · exact enqueue cur
    · exact refl
  refine queued.trans ?_
  generalize (if s₃.isRunnableOn core cur then s₃.enqueue cur else s₃) = s₄
  have chosen := schedule (s := s₄) core
  split <;> rename_i shape <;> rw [shape] at chosen
  · exact chosen.trans ((setCurrent _).trans (prepareForUserRestore _))
  refine chosen.trans ?_
  split
  · exact prepareForUserRestore cur
  · exact setCurrent _

theorem timeSlices {timeSlices : Addr → Nat} : Within core s { s with timeSlices } :=
  { refl with }

theorem timerTick : Within core s (s.timerTick core) := by
  unfold Smp.timerTick
  split
  · exact refl
  split
  · exact refl
  split
  · exact timeSlices
  · exact timeSlices.trans (updCpu rfl rfl fun _ => rfl)

theorem yieldCurrent : Within core s (s.yieldCurrent core) := by
  unfold Smp.yieldCurrent
  split
  · exact refl
  split
  · exact refl
  · exact (enqueue _).trans (updCpu rfl rfl fun _ => rfl)

theorem halt (t : Addr) : Within core s (s.halt t) := by
  unfold Smp.halt
  split
  · exact refl
  · exact (dequeue t).trans (setState t .inactive)

theorem resume (t : Addr) : Within core s (s.resume t) := by
  unfold Smp.resume
  split
  · exact refl
  · exact (setState t .restart).trans (enqueue t)

theorem initTcb (made : .init t ∈ (s.cpus core).phase.work) : Within core s (s.initTcb core t) where
  __ := refl
  affinity u := by
    by_cases same : u = t
    · subst same
      exact .inr ⟨by simp [Smp.initTcb], made⟩
    · exact .inl (by simp [Smp.initTcb, same])

theorem isIdleThread (within : Within core s s') (t : Addr) :
    s'.isIdleThread t = s.isIdleThread t := by
  simp [Smp.isIdleThread, within.maxNumNodes, within.idleTcbs]

end Within

theorem Scheduled.timerTick (sched : s.Scheduled lists owed) (core : Nat) :
    (s.timerTick core).Scheduled lists owed := by
  unfold Smp.timerTick
  split
  · exact sched
  split
  · exact sched
  split
  · exact sched.congr .timeSlices
  · exact (sched.congr .timeSlices).congr (.updCpu rfl rfl)

/-- Nobody runs or queues a thread at this address. -/
def isUnused (s : Smp) (tcb : Addr) : Bool :=
  !s.isIdleThread tcb && (List.range s.maxNumNodes).all fun core =>
    (s.cpus core).current != some tcb && !s.contains core tcb

/-- A thread made where none was has no place to lose, and takes nobody's. -/
theorem Scheduled.initTcb (sched : s.Scheduled lists owed) (unused : s.isUnused t = true) :
    (s.initTcb core t).Scheduled lists owed := by
  obtain ⟨other, nowhere⟩ : s.isIdleThread t = false ∧ ∀ c < s.maxNumNodes,
      (s.cpus c).current ≠ some t ∧ s.contains c t = false := by simpa [isUnused] using unused
  have unqueued : ∀ c, t ∉ lists c := fun c here => by
    have := (nowhere _ (sched.homeCore_lt t)).2
    simp [sched.contains_iff.mpr (sched.mem_home here)] at this
  have home : ∀ u, u ≠ t → (s.initTcb core t).homeCore u = s.homeCore u := fun u ne => by
    simp [homeCore, Smp.initTcb, setState, ne]
  have runnable : ∀ u, u ≠ t → (s.initTcb core t).isRunnable u = s.isRunnable u :=
    fun u ne => isRunnable_setState_of_ne ne
  refine ⟨sched.nodes, ?_, fun c u here => ?_, fun c u here => ?_, fun u notIdle runs => ?_⟩
  · -- The links of a thread on no runqueue are empty already.
    have unlinked : update s.links t {} = s.links :=
      Function.update_eq_self_iff.mpr (sched.family.unlinked t unqueued not_false).symm
    change Lib.Family (update s.links t {}) (fun c => (s.cpus c).runqueue) lists _
    rw [unlinked]
    exact sched.family
  · have ne : u ≠ t := fun same => unqueued c (same ▸ here)
    rw [home u ne, runnable u ne]
    exact sched.queued c u here
  · refine (sched.current c u here).imp_right fun ⟨small, belongs⟩ => ⟨small, ?_⟩
    have ne : u ≠ t := by
      rintro rfl
      exact (nowhere c (belongs ▸ sched.homeCore_lt u)).1 here
    rw [home u ne, belongs]
  · by_cases same : u = t
    · subst same
      simp [isRunnable, Smp.initTcb, setState, ThreadState.isRunnable] at runs
    · rw [Placed, home u same]
      exact sched.placed u notIdle (runnable u same ▸ runs)

theorem Scheduled.yieldCurrent (sched : s.Scheduled lists owed) (core : Nat) :
    ∃ lists', (s.yieldCurrent core).Scheduled lists' owed := by
  unfold Smp.yieldCurrent
  split
  · exact ⟨lists, sched⟩
  rename_i cur isCurrent
  split
  · exact ⟨lists, sched⟩
  rename_i other
  rcases sched.current core cur isCurrent with isIdle | ⟨small, -⟩
  · exact absurd isIdle other
  · obtain ⟨lists', sched', -⟩ := sched.enqueue small
    exact ⟨lists', (sched'.settle fun u _ _ isOwed => .inl isOwed.1).congr (.updCpu rfl rfl)⟩

end Smp

end Rel4
