import Rel4.Host.Process
import Rel4.Lib.Count

/-!
What the sections under the host lock keep: identifiers tell processes apart, every reply slot has one owner,
and a process that waits for a reply gets one answer.
-/

namespace Rel4.Host

open Lib
open Function (update update_of_ne update_self)

/-- The process is there and has not ended. -/
def TaskStruct.Alive (p : TaskStruct) : Prop := p.state = .runnable ∨ p.state = .waiting

variable {pool : ReplyCapPool} {procs : ProcTable} {threads : Nat → Thread} {nextPid : Nat} {held : Nat → Nat}
  {calls : Nat → Nat → Prop} {quits : Nat → Prop} {i j : Fin maxProcs} {p : TaskStruct} {pid slot : Nat}

/-- Some process with an identifier is there and has not ended. -/
def Live (procs : ProcTable) (pid : Nat) : Prop := ∃ i, (procs i).pid = pid ∧ (procs i).Alive

/-- A process with an identifier is blocked with a slot. -/
def BlockedAt (procs : ProcTable) (pid slot : Nat) : Prop :=
  ∃ i, (procs i).pid = pid ∧ (procs i).state = .waiting ∧ (procs i).waitReplySlot = slot

theorem TaskStruct.Alive.used (alive : p.Alive) : p.state ≠ .unused := by
  rcases alive with is | is <;> simp [is]

theorem TaskStruct.Alive.not_zombie (alive : p.Alive) : p.state ≠ .zombie := by
  rcases alive with is | is <;> simp [is]

/-- A process stays if its entry is not the one that changes, or if it is alive afterwards as well. -/
protected theorem Live.update (live : Live procs pid)
    (kept : (procs i).pid = pid → (procs i).Alive → p.pid = pid ∧ p.Alive) :
    Live (update procs i p) pid := by
  obtain ⟨j, same, alive⟩ := live
  refine ⟨j, ?_⟩
  revert same alive
  exact update_elim j kept fun j _ same alive => ⟨same, alive⟩

protected theorem BlockedAt.update (blocked : BlockedAt procs pid slot)
    (kept : (procs i).pid = pid → (procs i).state = .waiting → (procs i).waitReplySlot = slot →
      p.pid = pid ∧ p.state = .waiting ∧ p.waitReplySlot = slot) : BlockedAt (update procs i p) pid slot := by
  obtain ⟨j, same, waiting, has⟩ := blocked
  refine ⟨j, ?_⟩
  revert same waiting has
  exact update_elim j kept fun j _ same waiting has => ⟨same, waiting, has⟩

section Named

/-- Identifiers tell the processes apart, and children are younger than their parents. -/
structure Named (procs : ProcTable) (nextPid : Nat) : Prop where
  two_le : 2 ≤ nextPid
  below : ∀ i, (procs i).state ≠ .unused → (procs i).pid < nextPid
  parent_lt : ∀ i, (procs i).state ≠ .unused → (procs i).parentPid < (procs i).pid
  inj : ∀ i j, (procs i).state ≠ .unused → (procs j).state ≠ .unused → (procs i).pid = (procs j).pid → i = j

section

variable (named : Named procs nextPid)
include named

/-- An entry may change as long as it keeps its identifier. -/
protected theorem Named.update (used : (procs i).state ≠ .unused)
    (same : p.pid = (procs i).pid) (parent : p.parentPid < p.pid) :
    Named (update procs i p) nextPid := by
  have before (j) : (update procs i p j).state ≠ .unused → (procs j).state ≠ .unused ∧
      (update procs i p j).pid = (procs j).pid :=
    update_elim j (fun _ => ⟨used, same⟩) fun j _ there => ⟨there, rfl⟩
  refine ⟨named.two_le, fun j there => ?_, fun j => ?_, fun j k there there' equal => ?_⟩
  · rw [(before j there).2]
    exact named.below j (before j there).1
  · exact update_elim j (fun _ => parent) fun j _ => named.parent_lt j
  · rw [(before j there).2, (before k there').2] at equal
    exact named.inj j k (before j there).1 (before k there').1 equal

theorem Named.clear : Named (update procs i .empty) nextPid := by
  have gone : ¬ TaskStruct.empty.state ≠ .unused := not_not.mpr rfl
  refine ⟨named.two_le, fun j => ?_, fun j => ?_, fun j k => ?_⟩
  · exact update_elim j (fun there => absurd there gone) fun j _ => named.below j
  · exact update_elim j (fun there => absurd there gone) fun j _ => named.parent_lt j
  · refine update_elim j (fun there => absurd there gone) fun j _ => ?_
    exact update_elim k (fun _ there => absurd there gone) fun k _ => named.inj j k

/-- An identifier may be passed over. -/
theorem Named.skip : Named procs (nextPid + 1) :=
  { named with
    two_le := Nat.le_succ_of_le named.two_le
    below := fun i used => Nat.lt_succ_of_lt (named.below i used) }

/-- A new process has a new identifier. -/
theorem Named.create {parent : Nat} (older : parent < nextPid) :
    Named (update procs i (.create nextPid parent)) (nextPid + 1) := by
  refine ⟨Nat.le_succ_of_le named.two_le, fun j => ?_, fun j => ?_, fun j k => ?_⟩
  · exact update_elim j (fun _ => Nat.lt_succ_self _) fun j _ there => Nat.lt_succ_of_lt (named.below j there)
  · exact update_elim j (fun _ => older) fun j _ => named.parent_lt j
  · -- The others are older, so that the new identifier is not among theirs.
    refine update_elim j (update_elim k (fun _ _ _ => rfl) fun k _ _ there equal => ?_) fun j _ =>
      update_elim k (fun there _ equal => ?_) fun k _ => named.inj j k
    · exact absurd equal (Nat.ne_of_gt (named.below k there))
    · exact absurd equal (Nat.ne_of_lt (named.below j there))

end

end Named

section Owned

/-- The entry has a slot, for the wait it is blocked in. -/
def TaskStruct.hasSlot (slot : Nat) (p : TaskStruct) : Bool := p.waitReplySlot = slot

/-- How many processes are blocked with a slot. -/
def waits (procs : ProcTable) (slot : Nat) : Nat :=
  (List.finRange maxProcs).countP fun i => (procs i).hasSlot slot

/-- Every slot of the pool has one owner: it is free, it is held for a call, or a blocked process has it. -/
structure Owned (pool : ReplyCapPool) (procs : ProcTable) (held : Nat → Nat) : Prop where
  length_eq : pool.all.length = maxFaultReplyCaps
  nodup : pool.all.Nodup
  nonzero : 0 ∉ pool.all
  real : 0 ∉ pool.free
  unheld : held 0 = 0
  owners : ∀ slot, slot ≠ 0 →
    pool.free.count slot + held slot + waits procs slot = if slot ∈ pool.all then 1 else 0
  blocked : ∀ i, (procs i).waitReplySlot ≠ 0 ↔ (procs i).state = .waiting

theorem waits_update (procs : ProcTable) (i : Fin maxProcs) (p : TaskStruct) (slot : Nat) :
    waits (update procs i p) slot + (if (procs i).waitReplySlot = slot then 1 else 0) =
      waits procs slot + if p.waitReplySlot = slot then 1 else 0 := by
  have same (q : TaskStruct) : (if q.hasSlot slot = true then 1 else 0) =
      if q.waitReplySlot = slot then 1 else 0 := by
    simp only [TaskStruct.hasSlot, decide_eq_true_eq]
  rw [waits, waits, ← same, ← same]
  exact countP_update (List.nodup_finRange maxProcs) (List.mem_finRange i)

/-- A slot is held once more, or once less. -/
theorem held_more (other : Nat) :
    update held slot (held slot + 1) other = held other + if slot = other then 1 else 0 :=
  update_elim other (by simp) fun other distinct => by simp [Ne.symm distinct]

theorem held_less (called : held slot ≠ 0) (other : Nat) :
    update held slot (held slot - 1) other + (if slot = other then 1 else 0) = held other := by
  refine update_elim other ?_ fun other distinct => by simp [Ne.symm distinct]
  rw [if_pos rfl]
  omega

theorem waits_pos (has : (procs i).waitReplySlot = slot) : 0 < waits procs slot :=
  List.countP_pos_iff.mpr ⟨i, List.mem_finRange i, by simpa [TaskStruct.hasSlot] using has⟩

namespace Owned

section

variable (owned : Owned pool procs held)
include owned

/-- The slot of a blocked process is held for no call, and blocks no other process. -/
theorem alone (blocked : (procs i).waitReplySlot ≠ 0) :
    held (procs i).waitReplySlot = 0 ∧
      ∀ j, (procs j).waitReplySlot = (procs i).waitReplySlot → j = i := by
  have all := owned.owners _ blocked
  have some : 0 < waits procs (procs i).waitReplySlot := waits_pos rfl
  have few : waits procs (procs i).waitReplySlot ≤ 1 := by split at all <;> omega
  refine ⟨by split at all <;> omega, fun j same => ?_⟩
  exact eq_of_countP_le_one (List.nodup_finRange maxProcs) few (List.mem_finRange j) (List.mem_finRange i)
    (by simpa [TaskStruct.hasSlot] using same) (by simp [TaskStruct.hasSlot])

theorem nonzero_of_held (called : held slot ≠ 0) : slot ≠ 0 := by
  rintro rfl
  exact called owned.unheld

theorem unblocked (other : (procs i).state ≠ .waiting) : (procs i).waitReplySlot = 0 :=
  not_not.mp (mt (owned.blocked i).mp other)

/-- A slot that is held for a call blocks nobody. -/
theorem not_blocked (called : held slot ≠ 0) :
    ∀ j, (procs j).waitReplySlot ≠ slot := by
  rintro j rfl
  exact called (owned.alone (owned.nonzero_of_held called)).1

theorem free_nodup : pool.free.Nodup := by
  refine List.nodup_iff_count_le_one.mpr fun slot => ?_
  by_cases zero : slot = 0
  · rw [zero, List.count_eq_zero_of_not_mem owned.real]
    exact Nat.zero_le 1
  · have := owned.owners slot zero
    split at this <;> omega

theorem free_subset : pool.free ⊆ pool.all := by
  intro slot free
  by_contra foreign
  have zero : slot ≠ 0 := by
    rintro rfl
    exact owned.real free
  have := owned.owners slot zero
  have := List.count_pos_iff.mpr free
  rw [if_neg foreign] at *
  omega

/-- A slot in use is one of the pool's, is not free, and there is room for it. -/
theorem in_use (nonzero : slot ≠ 0) (used : 0 < held slot + waits procs slot) :
    slot ∈ pool.all ∧ slot ∉ pool.free ∧ pool.free.length < maxFaultReplyCaps := by
  have all := owned.owners slot nonzero
  have mine : slot ∈ pool.all := by
    by_contra foreign
    rw [if_neg foreign] at all
    omega
  rw [if_pos mine] at all
  have absent : slot ∉ pool.free := List.count_eq_zero.mp (by omega)
  refine ⟨mine, absent, ?_⟩
  -- With the slot itself, the free ones are still distinct slots of the pool.
  have more : (slot :: pool.free).length ≤ pool.all.length :=
    (List.subperm_of_subset (List.nodup_cons.mpr ⟨absent, owned.free_nodup⟩)
      (List.cons_subset.mpr ⟨mine, owned.free_subset⟩)).length_le
  rw [List.length_cons, owned.length_eq] at more
  exact more

end

/-- Giving back a slot that is in use goes without complaint. -/
theorem release_eq {s : Processes} (owned : Owned s.pool s.procs held) (nonzero : slot ≠ 0)
    (used : 0 < held slot + waits s.procs slot) :
    s.release slot = { s with pool := { s.pool with free := slot :: s.pool.free } } := by
  obtain ⟨mine, absent, room⟩ := owned.in_use nonzero used
  rw [Processes.release, if_neg nonzero, if_neg (not_not.mpr mine), if_neg absent, if_neg (Nat.not_le.mpr room)]

section

variable (owned : Owned pool procs held)
include owned

/-- An entry may change as long as it is blocked as before. -/
protected theorem update (same : p.waitReplySlot = (procs i).waitReplySlot)
    (blocked : p.waitReplySlot ≠ 0 ↔ p.state = .waiting) : Owned pool (update procs i p) held := by
  refine { owned with
    owners := fun slot nonzero => ?_
    blocked := fun j => update_elim j blocked fun j _ => owned.blocked j }
  have := waits_update procs i p slot
  rw [same] at this
  have := owned.owners slot nonzero
  omega

/-- A blocked process gives its slot back. -/
theorem unblock (blocked : (procs i).waitReplySlot ≠ 0) (clear : p.waitReplySlot = 0) (on : p.state ≠ .waiting) :
    Owned { pool with free := (procs i).waitReplySlot :: pool.free } (update procs i p) held := by
  refine { owned with
    real := List.not_mem_cons_of_ne_of_not_mem (Ne.symm blocked) owned.real
    owners := fun slot nonzero => ?_
    blocked := fun j => update_elim j ?_ fun j _ => owned.blocked j }
  · have := waits_update procs i p slot
    have := owned.owners slot nonzero
    rw [clear, if_neg (Ne.symm nonzero)] at *
    rw [List.count_cons]
    simp only [beq_iff_eq]
    omega
  · exact ⟨fun some => absurd clear some, fun waiting => absurd waiting on⟩

/-- A process blocks with the slot of its call. -/
theorem block (free : (procs i).waitReplySlot = 0) (called : held slot ≠ 0)
    (has : p.waitReplySlot = slot) (waiting : p.state = .waiting) :
    Owned pool (update procs i p) (update held slot (held slot - 1)) := by
  have nonzero := owned.nonzero_of_held called
  refine { owned with
    unheld := by rw [update_of_ne (Ne.symm nonzero), owned.unheld]
    owners := fun other nonzero' => ?_
    blocked := fun j => update_elim j ?_ fun j _ => owned.blocked j }
  · have := waits_update procs i p other
    have := owned.owners other nonzero'
    have := held_less called other
    rw [free, if_neg (Ne.symm nonzero'), has] at *
    omega
  · exact ⟨fun _ => waiting, fun _ => by rw [has]; exact nonzero⟩

/-- A free slot is taken for a call. -/
theorem acquire {free : List Nat} (first : pool.free = slot :: free) :
    Owned { pool with free } procs (update held slot (held slot + 1)) := by
  have real := owned.real
  rw [first, List.mem_cons, not_or] at real
  refine { owned with
    real := real.2
    unheld := by rw [update_of_ne real.1, owned.unheld]
    owners := fun other nonzero => ?_ }
  have := owned.owners other nonzero
  rw [first, List.count_cons] at this
  simp only [beq_iff_eq] at this
  rw [held_more]
  dsimp only
  omega

/-- The slot of a call goes back to the pool. -/
theorem release (called : held slot ≠ 0) :
    Owned { pool with free := slot :: pool.free } procs (update held slot (held slot - 1)) := by
  have nonzero := Ne.symm (owned.nonzero_of_held called)
  refine { owned with
    real := List.not_mem_cons_of_ne_of_not_mem nonzero owned.real
    unheld := by rw [update_of_ne nonzero, owned.unheld]
    owners := fun other nonzero' => ?_ }
  have := owned.owners other nonzero'
  have := held_less called other
  rw [List.count_cons]
  simp only [beq_iff_eq]
  omega

end

end Owned

end Owned

section Answered

/-- The threads after a message through a slot. -/
def woken (threads : Nat → Thread) (slot : Nat) (next : Thread) (pid : Nat) : Thread :=
  if threads pid = .awaiting slot then next else threads pid

theorem woken_of_eq {next : Thread} (awaiting : threads pid = .awaiting slot) : woken threads slot next pid = next :=
  if_pos awaiting

theorem woken_of_ne {next : Thread} (other : threads pid ≠ .awaiting slot) :
    woken threads slot next pid = threads pid :=
  if_neg other

/-- A process has one call under way at most, and whoever waits for a reply is known by its slot. A thread that
is not stopped is of a process that has not ended, or its call is about to stop it. -/
structure Answered (threads : Nat → Thread) (procs : ProcTable) (nextPid : Nat) (held : Nat → Nat)
    (calls : Nat → Nat → Prop) (quits : Nat → Prop) : Prop where
  has : ∀ slot pid, calls slot pid → held slot ≠ 0
  one : ∀ slot slot' pid, calls slot pid → calls slot' pid → slot = slot'
  same : ∀ slot pid pid', calls slot pid → calls slot pid' → pid = pid'
  old : ∀ slot pid, calls slot pid → pid < nextPid
  called : ∀ slot pid, calls slot pid → threads pid = .awaiting slot ∨ threads pid = .stopped
  apart : ∀ slot pid i, calls slot pid → (procs i).state ≠ .unused → (procs i).pid = pid → (procs i).waitReplySlot = 0
  blocked : ∀ i, (procs i).state = .waiting →
    threads (procs i).pid = .awaiting (procs i).waitReplySlot ∨ threads (procs i).pid = .stopped
  fresh : ∀ pid, nextPid ≤ pid → threads pid = .stopped
  awaited : ∀ pid slot, threads pid = .awaiting slot →
    calls slot pid ∨ BlockedAt procs pid slot
  alive : ∀ pid, threads pid ≠ .stopped → Live procs pid ∨ ∃ slot, threads pid = .awaiting slot ∧ quits slot

namespace Answered

variable (answered : Answered threads procs nextPid held calls quits)
include answered

theorem mono {quits' : Nat → Prop}
    (more : ∀ slot, quits slot → quits' slot) : Answered threads procs nextPid held calls quits' :=
  { answered with
    alive := fun pid awake => (answered.alive pid awake).imp_right fun ⟨slot, is, quit⟩ => ⟨slot, is, more slot quit⟩ }

/-- A thread may be stopped at any time. -/
theorem stop (pid : Nat) :
    Answered (update threads pid .stopped) procs nextPid held calls quits := by
  have either (other : Nat) : update threads pid .stopped other = .stopped ∨
      update threads pid .stopped other = threads other := by
    by_cases here : other = pid
    · exact .inl (by rw [here, update_self])
    · exact .inr (update_of_ne here ..)
  refine { answered with called := ?_, blocked := ?_, fresh := ?_, awaited := ?_, alive := ?_ }
  · intro slot other call
    rcases either other with stopped | kept
    · exact .inr stopped
    · rw [kept]
      exact answered.called slot other call
  · intro i waiting
    rcases either (procs i).pid with stopped | kept
    · exact .inr stopped
    · rw [kept]
      exact answered.blocked i waiting
  · intro other new
    rcases either other with stopped | kept
    · exact stopped
    · rw [kept]
      exact answered.fresh other new
  · intro other slot is
    rcases either other with stopped | kept
    · cases stopped.symm.trans is
    · exact answered.awaited other slot (kept.symm.trans is)
  · intro other awake
    rcases either other with stopped | kept
    · exact absurd stopped awake
    · rw [kept] at awake ⊢
      exact answered.alive other awake

/-- A process that has ended may go. -/
theorem clear (zombie : (procs i).state = .zombie) :
    Answered threads (update procs i .empty) nextPid held calls quits := by
  refine { answered with apart := ?_, blocked := ?_, awaited := ?_, alive := ?_ }
  · intro slot pid j call
    exact update_elim j (fun used => absurd rfl used) fun j _ => answered.apart slot pid j call
  · exact fun j => update_elim j (fun waiting => absurd waiting (by decide)) fun j _ => answered.blocked j
  · intro pid slot is
    refine (answered.awaited pid slot is).imp_right fun blocked => blocked.update fun _ waiting => ?_
    cases zombie.symm.trans waiting
  · intro pid awake
    refine (answered.alive pid awake).imp_left fun live => live.update fun _ alive => ?_
    exact absurd zombie alive.not_zombie

/-- An entry may change as long as it is blocked as before; if it ends, its thread does. -/
protected theorem update (used : (procs i).state ≠ .unused)
    (isPid : p.pid = (procs i).pid) (isSlot : p.waitReplySlot = (procs i).waitReplySlot)
    (isBlocked : p.state = .waiting ↔ (procs i).state = .waiting)
    (ending : ((procs i).Alive → p.Alive) ∨ threads (procs i).pid = .stopped ∨
      ∃ slot, threads (procs i).pid = .awaiting slot ∧ quits slot) :
    Answered threads (update procs i p) nextPid held calls quits := by
  refine { answered with apart := ?_, blocked := ?_, awaited := ?_, alive := ?_ }
  · intro slot pid j call
    refine update_elim j (fun _ isPid' => ?_) fun j _ => answered.apart slot pid j call
    rw [isSlot]
    exact answered.apart slot pid i call used (isPid.symm.trans isPid')
  · intro j
    refine update_elim j (fun waiting => ?_) fun j _ => answered.blocked j
    rw [isPid, isSlot]
    exact answered.blocked i (isBlocked.mp waiting)
  · intro pid slot is
    refine (answered.awaited pid slot is).imp_right fun blocked => blocked.update fun isPid' waiting isSlot' => ?_
    exact ⟨isPid.trans isPid', isBlocked.mpr waiting, isSlot.trans isSlot'⟩
  · intro pid awake
    rcases answered.alive pid awake with live | quit
    · by_cases its : (procs i).pid = pid
      · subst its
        rcases ending with stays | stopped | quit
        · exact .inl (live.update fun _ alive => ⟨isPid, stays alive⟩)
        · exact absurd stopped awake
        · exact .inr quit
      · exact .inl (live.update fun isIts => absurd isIts its)
    · exact .inr quit

/-- The blocked call of a process is answered or given up. -/
theorem unblock (owned : Owned pool procs held)
    (waiting : (procs i).state = .waiting) (isPid : p.pid = (procs i).pid) (clear : p.waitReplySlot = 0)
    (on : p.state ≠ .waiting) {next : Thread} (isNext : next = .stopped ∨ next = .running ∧ p.Alive) :
    Answered (woken threads (procs i).waitReplySlot next) (update procs i p) nextPid held calls quits := by
  have nonzero := (owned.blocked i).mpr waiting
  obtain ⟨unheld, alone⟩ := owned.alone nonzero
  -- Only the process itself waits for this slot.
  have only (pid) (is : threads pid = .awaiting (procs i).waitReplySlot) : pid = (procs i).pid := by
    rcases answered.awaited pid _ is with call | ⟨j, isPid', -, isSlot⟩
    · exact absurd unheld (answered.has _ _ call)
    · rw [← isPid', alone j isSlot]
  have notHere {slot pid} (call : calls slot pid) : threads pid ≠ .awaiting (procs i).waitReplySlot := by
    intro is
    rcases answered.called slot pid call with is' | stopped
    · cases is'.symm.trans is
      exact answered.has _ _ call unheld
    · cases stopped.symm.trans is
  refine { answered with called := ?_, apart := ?_, blocked := ?_, fresh := ?_, awaited := ?_, alive := ?_ }
  · intro slot pid call
    rw [woken_of_ne (notHere call)]
    exact answered.called slot pid call
  · intro slot pid j call
    exact update_elim j (fun _ _ => clear) fun j _ => answered.apart slot pid j call
  · intro j
    refine update_elim j (fun waiting' => absurd waiting' on) fun j distinct waiting' => ?_
    have other : threads (procs j).pid ≠ .awaiting (procs i).waitReplySlot := by
      intro is
      rcases answered.blocked j waiting' with is' | stopped
      · exact distinct (alone j (Thread.awaiting.inj (is'.symm.trans is)))
      · cases stopped.symm.trans is
    rw [woken_of_ne other]
    exact answered.blocked j waiting'
  · intro pid new
    have stopped := answered.fresh pid new
    rw [woken_of_ne (by rw [stopped]; exact Thread.noConfusion)]
    exact stopped
  · intro pid slot is
    by_cases its : threads pid = .awaiting (procs i).waitReplySlot
    · rw [woken_of_eq its] at is
      rcases isNext with rfl | ⟨rfl, -⟩ <;> cases is
    · rw [woken_of_ne its] at is
      refine (answered.awaited pid slot is).imp_right fun blocked => blocked.update fun _ _ isSlot => ?_
      exact absurd (isSlot ▸ is) its
  · intro pid awake
    by_cases its : threads pid = .awaiting (procs i).waitReplySlot
    · rw [woken_of_eq its] at awake ⊢
      rcases isNext with stopped | ⟨-, alive⟩
      · exact absurd stopped awake
      · refine .inl ⟨i, ?_⟩
        rw [update_self, only pid its]
        exact ⟨isPid, alive⟩
    · rw [woken_of_ne its] at awake ⊢
      refine (answered.alive pid awake).imp_left fun live => live.update fun isIts _ => ?_
      -- The thread of this process waits for this slot, or is stopped.
      subst isIts
      rcases answered.blocked i waiting with is | stopped
      · exact absurd is its
      · exact absurd stopped awake

theorem skip :
    Answered threads procs (nextPid + 1) held calls quits :=
  { answered with
    old := fun slot pid call => Nat.lt_succ_of_lt (answered.old slot pid call)
    fresh := fun pid new => answered.fresh pid (Nat.le_of_succ_le new) }

/-- A new process runs. -/
theorem create (named : Named procs nextPid) (unused : (procs i).state = .unused) (parent : Nat) :
    Answered (update threads nextPid .running) (update procs i (.create nextPid parent))
      (nextPid + 1) held calls quits := by
  have older {slot pid} (call : calls slot pid) : pid ≠ nextPid := Nat.ne_of_lt (answered.old slot pid call)
  refine { answered with old := ?_, called := ?_, apart := ?_, blocked := ?_, fresh := ?_, awaited := ?_, alive := ?_ }
  · exact fun slot pid call => Nat.lt_succ_of_lt (answered.old slot pid call)
  · intro slot pid call
    rw [update_of_ne (older call)]
    exact answered.called slot pid call
  · intro slot pid j call
    exact update_elim j (fun _ _ => rfl) fun j _ => answered.apart slot pid j call
  · intro j
    refine update_elim j (fun waiting => by cases waiting) fun j _ waiting => ?_
    have below := named.below j (by rw [waiting]; decide)
    rw [update_of_ne (Nat.ne_of_lt below)]
    exact answered.blocked j waiting
  · intro pid new
    rw [update_of_ne (Nat.ne_of_gt new)]
    exact answered.fresh pid (Nat.le_of_succ_le new)
  · intro pid slot
    refine update_elim pid (fun is => by cases is) fun pid _ is => ?_
    refine (answered.awaited pid slot is).imp_right fun blocked => blocked.update fun _ waiting => ?_
    cases unused.symm.trans waiting
  · intro pid
    refine update_elim pid (fun _ => .inl ⟨i, ?_⟩) fun pid _ awake => ?_
    · rw [update_self]
      exact ⟨rfl, .inl rfl⟩
    · refine (answered.alive pid awake).imp_left fun live => live.update fun _ alive => ?_
      exact absurd unused alive.used

/-- A process blocks in the call that is under way. -/
theorem block (owned : Owned pool procs held) (used : (procs i).state ≠ .unused)
    (call : calls slot (procs i).pid) (isPid : p.pid = (procs i).pid) (isSlot : p.waitReplySlot = slot)
    (waiting : p.state = .waiting) :
    Answered threads (update procs i p) nextPid (update held slot (held slot - 1))
      (fun other pid => calls other pid ∧ other ≠ slot) quits := by
  refine ⟨?_, ?_, ?_, ?_, ?_, ?_, ?_, answered.fresh, ?_, ?_⟩
  · rintro other pid ⟨call', distinct⟩
    rw [update_of_ne distinct]
    exact answered.has other pid call'
  · exact fun a b pid first second => answered.one a b pid first.1 second.1
  · exact fun a pid pid' first second => answered.same a pid pid' first.1 second.1
  · exact fun a pid call' => answered.old a pid call'.1
  · exact fun a pid call' => answered.called a pid call'.1
  · rintro other pid j ⟨call', distinct⟩
    refine update_elim j (fun _ isPid' => ?_) fun j _ => answered.apart other pid j call'
    rw [← isPid', isPid] at call'
    exact absurd (answered.one _ _ _ call' call) distinct
  · intro j
    refine update_elim j (fun _ => ?_) fun j _ => answered.blocked j
    rw [isPid, isSlot]
    exact answered.called slot _ call
  · intro pid other is
    rcases answered.awaited pid other is with call' | blocked
    · by_cases its : other = slot
      · subst its
        refine .inr ⟨i, ?_⟩
        rw [update_self]
        exact ⟨isPid.trans (answered.same _ _ _ call call'), waiting, isSlot⟩
      · exact .inl ⟨call', its⟩
    · refine .inr (blocked.update fun _ waiting' => ?_)
      exact absurd (answered.apart _ _ i call used rfl) ((owned.blocked i).mpr waiting')
  · intro pid awake
    exact (answered.alive pid awake).imp_left fun live => live.update fun isIts _ => ⟨isPid.trans isIts, .inr waiting⟩

/-- Whoever has a call under way, is blocked or is still to come does not run, and does not send. -/
theorem apart_of_idle (pid : Nat) (idle : ∀ slot, threads pid ≠ .awaiting slot) (awake : threads pid ≠ .stopped) :
    (∀ slot other, calls slot other → other ≠ pid) ∧ (∀ i, (procs i).state = .waiting → (procs i).pid ≠ pid) ∧
      ∀ other, nextPid ≤ other → other ≠ pid := by
  refine ⟨?_, ?_, ?_⟩
  · rintro slot _ call rfl
    exact (answered.called slot _ call).elim (idle slot) awake
  · rintro i waiting rfl
    exact (answered.blocked i waiting).elim (idle _) awake
  · rintro _ new rfl
    exact awake (answered.fresh _ new)

/-- A running process sends a message. -/
theorem call (running : threads pid = .running) (request : Request) :
    Answered (update threads pid (.sending request)) procs nextPid held calls quits := by
  obtain ⟨calling, blocked, young⟩ := answered.apart_of_idle pid (by simp [running]) (by simp [running])
  refine { answered with called := ?_, blocked := ?_, fresh := ?_, awaited := ?_, alive := ?_ }
  · intro slot pid' call
    rw [update_of_ne (calling slot pid' call)]
    exact answered.called slot pid' call
  · intro i waiting
    rw [update_of_ne (blocked i waiting)]
    exact answered.blocked i waiting
  · intro pid' new
    rw [update_of_ne (young pid' new)]
    exact answered.fresh pid' new
  · exact fun pid' slot => update_elim pid' (fun is => by cases is) fun pid' _ => answered.awaited pid' slot
  · intro pid'
    refine update_elim pid' (fun _ => .inl ?_) fun pid' _ => answered.alive pid'
    exact (answered.alive pid (by simp [running])).resolve_right (by simp [running])

/-- The reactor receives a message, with the slot that it has for the reply. -/
theorem receive (owned : Owned pool procs held) {request : Request} (sending : threads pid = .sending request)
    (here : held slot ≠ 0) (new : ∀ pid, ¬ calls slot pid) :
    Answered (update threads pid (.awaiting slot)) procs nextPid held
      (fun other pid' => calls other pid' ∨ other = slot ∧ pid' = pid) quits := by
  obtain ⟨calling, blocked, young⟩ := answered.apart_of_idle pid (by simp [sending]) (by simp [sending])
  refine ⟨?_, ?_, ?_, ?_, ?_, ?_, ?_, ?_, ?_, ?_⟩
  · rintro slot' pid' (call | ⟨rfl, rfl⟩)
    · exact answered.has slot' pid' call
    · exact here
  · rintro a b pid' (first | ⟨rfl, rfl⟩) (second | ⟨rfl, isPid⟩)
    · exact answered.one a b pid' first second
    · exact absurd isPid (calling _ _ first)
    · exact absurd rfl (calling _ _ second)
    · rfl
  · rintro a pid' pid'' (first | ⟨rfl, rfl⟩) (second | ⟨isSlot, rfl⟩)
    · exact answered.same a pid' pid'' first second
    · exact absurd (isSlot ▸ first) (new pid')
    · exact absurd second (new pid'')
    · rfl
  · rintro slot' pid' (call | ⟨rfl, rfl⟩)
    · exact answered.old slot' pid' call
    · by_contra old
      exact young pid' (Nat.le_of_not_lt old) rfl
  · rintro slot' pid' (call | ⟨rfl, rfl⟩)
    · rw [update_of_ne (calling slot' pid' call)]
      exact answered.called slot' pid' call
    · rw [update_self]
      exact .inl rfl
  · rintro slot' pid' i (call | ⟨rfl, rfl⟩) used isPid
    · exact answered.apart slot' pid' i call used isPid
    · by_contra waits
      exact blocked i ((owned.blocked i).mp waits) isPid
  · intro i waiting
    rw [update_of_ne (blocked i waiting)]
    exact answered.blocked i waiting
  · intro pid' new
    rw [update_of_ne (young pid' new)]
    exact answered.fresh pid' new
  · intro pid' slot'
    refine update_elim pid' (fun is => .inl (.inr ⟨(Thread.awaiting.inj is).symm, rfl⟩)) fun pid' _ is => ?_
    exact (answered.awaited pid' slot' is).imp_left .inl
  · intro pid'
    refine update_elim pid' (fun _ => .inl ?_) fun pid' _ => answered.alive pid'
    exact (answered.alive pid (by simp [sending])).resolve_right (by simp [sending])

/-- A call is answered, or its process is stopped. -/
theorem send (owned : Owned pool procs held)
    (call : calls slot pid) {quits' : Nat → Prop} (kept : ∀ other, other ≠ slot → quits other → quits' other)
    {next : Thread} (isNext : next = .stopped ∨ next = .running ∧ ¬ quits slot) :
    Answered (woken threads slot next) procs nextPid held (fun other pid' => calls other pid' ∧ other ≠ slot)
      quits' := by
  have unblocked := owned.not_blocked (answered.has slot pid call)
  -- Only the process that has called waits for this slot.
  have only {pid'} (is : threads pid' = .awaiting slot) : calls slot pid' := by
    rcases answered.awaited pid' slot is with call' | ⟨j, -, -, isSlot⟩
    · exact call'
    · exact absurd isSlot (unblocked j)
  refine ⟨?_, ?_, ?_, ?_, ?_, ?_, ?_, ?_, ?_, ?_⟩
  · exact fun other pid' call' => answered.has other pid' call'.1
  · exact fun a b pid' first second => answered.one a b pid' first.1 second.1
  · exact fun a pid' pid'' first second => answered.same a pid' pid'' first.1 second.1
  · exact fun other pid' call' => answered.old other pid' call'.1
  · rintro other pid' ⟨call', distinct⟩
    have is := answered.called other pid' call'
    rw [woken_of_ne fun isSlot => distinct (answered.one _ _ _ call' (only isSlot))]
    exact is
  · exact fun other pid' i call' used isPid => answered.apart other pid' i call'.1 used isPid
  · intro i waiting
    have is := answered.blocked i waiting
    rw [woken_of_ne]
    · exact is
    · intro isSlot
      rcases is with is | stopped
      · exact unblocked i (Thread.awaiting.inj (is.symm.trans isSlot))
      · cases stopped.symm.trans isSlot
  · intro pid' young
    have stopped := answered.fresh pid' young
    rw [woken_of_ne (by rw [stopped]; exact Thread.noConfusion)]
    exact stopped
  · intro pid' other is
    by_cases its : threads pid' = .awaiting slot
    · rw [woken_of_eq its] at is
      rcases isNext with rfl | ⟨rfl, -⟩ <;> cases is
    · rw [woken_of_ne its] at is
      refine (answered.awaited pid' other is).imp_left fun call' => ⟨call', ?_⟩
      rintro rfl
      exact its is
  · intro pid' awake
    by_cases its : threads pid' = .awaiting slot
    · rw [woken_of_eq its] at awake
      rcases isNext with rfl | ⟨rfl, stays⟩
      · exact absurd rfl awake
      · rcases answered.alive pid' (by rw [its]; exact Thread.noConfusion) with live | ⟨slot', is, quit⟩
        · exact .inl live
        · cases its.symm.trans is
          exact absurd quit stays
    · rw [woken_of_ne its] at awake ⊢
      refine (answered.alive pid' awake).imp_right ?_
      rintro ⟨slot', is, quit⟩
      refine ⟨slot', is, kept slot' ?_ quit⟩
      rintro rfl
      exact its is

end Answered

end Answered

end Rel4.Host
