import Rel4.Proof.SmpSched

/-! Cores that trap, take the kernel lock and stall one another's threads in any order. -/

namespace Rel4

/-- A core in this phase holds the kernel lock. -/
def Phase.holds : Phase → Bool
  | .locked .. | .waiting _ => true
  | .user | .spinning .. => false

/-- A remote stall hit the thread that was current when the core trapped. -/
def Phase.stalledCurrent : Phase → Bool
  | .spinning _ stalled | .locked stalled _ => stalled
  | .user | .waiting _ => false

/-- Only the target of an invocation is ever resumed by it. -/
theorem Entry.lt_of_resume {entry : Entry} {caller : Option Addr} {t : Addr}
    (named : entry.wellNamed = true) (resumed : .resume t ∈ entry.work caller) :
    t < walkLimit := by
  cases entry with
  | invoke target op =>
    have small : target < walkLimit := by simpa [Entry.wellNamed] using named
    suffices t = target from this ▸ small
    cases op <;> simp [Entry.work, TcbOp.work, Work.suspend] at resumed <;> grind
  | softwareInterrupt | timer | yield | retype _ => simp [Entry.work] at resumed

/-- Traps that only a thread in user mode brings about. -/
def Entry.isSyscall : Entry → Bool
  | .softwareInterrupt | .timer => false
  | .yield | .invoke .. | .retype _ => true

/-- A core in this phase has a system call to serve. -/
def Phase.serves : Phase → Bool
  | .spinning entry _ => entry.isSyscall
  | .locked _ work | .waiting work => work.any (· ≠ .timerTick)
  | .user => false

/-- All work but the timer's comes from system calls. -/
theorem Entry.isSyscall_of_work {entry : Entry} (caller : Option Addr)
    (works : (entry.work caller).any (· ≠ .timerTick) = true) : entry.isSyscall = true := by
  cases entry with
  | softwareInterrupt | timer => simp [Entry.work] at works
  | yield | invoke | retype => rfl

namespace Smp

variable {s s' : Smp} {lists : Nat → List Addr} {core : Nat} {t : Addr}

/-- Some core has yet to halt the thread. -/
def Owed (s : Smp) (t : Addr) : Prop := ∃ core, .halt t ∈ (s.cpus core).phase.work

/--
What holds in every state, with these lists on the runqueues.

At most one core holds the lock, and while a stall is posted that core waits for it.
-/
structure Inv (s : Smp) (lists : Nat → List Addr) : Prop where
  scheduled : s.Scheduled lists s.Owed
  online : ∀ c, (s.cpus c).online = true → c < s.maxNumNodes
  inKernel : ∀ c, (s.cpus c).phase ≠ .user → c < s.maxNumNodes
  wellNamed : ∀ c entry stalled, (s.cpus c).phase = .spinning entry stalled →
    entry.wellNamed = true
  resumed : ∀ c t, .resume t ∈ (s.cpus c).phase.work → t < walkLimit
  stalled : ∀ c t, (s.cpus c).phase.stalledCurrent = true → (s.cpus c).current = some t →
    s.isIdleThread t = true
  locked : ∀ c, (s.cpus c).phase.holds = true → s.kernelLocked = true
  alone : ∀ c c', (s.cpus c).phase.holds = true → (s.cpus c').phase.holds = true → c = c'
  posted : ∀ stall, s.remoteStall = some stall → stall.done = false →
    (∃ c work, (s.cpus c).phase = .waiting work) ∧
    (s.isIdleThread stall.target = false → s.isRunnable stall.target = true →
      s.Owed stall.target ∨ stall.target ∈ lists (s.homeCore stall.target))

/-- Only the core that holds the lock has work left. -/
theorem Inv.owed_iff (inv : s.Inv lists) (holds : (s.cpus core).phase.holds = true) :
    s.Owed t ↔ .halt t ∈ (s.cpus core).phase.work := by
  refine ⟨fun ⟨c, isOwed⟩ => ?_, fun here => ⟨core, here⟩⟩
  have holds' : (s.cpus c).phase.holds = true := by
    cases phase : (s.cpus c).phase <;> simp_all [Phase.work, Phase.holds]
  rwa [inv.alone core c holds holds']

/-- While the lock is held by a core that does not wait, no stall is pending. -/
theorem Inv.not_posted (inv : s.Inv lists) {stalled : Bool} {work : List Work}
    (phase : (s.cpus core).phase = .locked stalled work) :
    ∀ stall, s.remoteStall = some stall → stall.done = true := by
  intro stall posted
  by_contra notDone
  obtain ⟨⟨c, work', waits⟩, -⟩ := inv.posted stall posted (by simpa using notDone)
  have same := inv.alone core c (by simp [phase, Phase.holds]) (by simp [waits, Phase.holds])
  rw [← same, phase] at waits
  cases waits

/-- The halts still owed once one core has gone on to another phase. -/
def OwedAfter (s : Smp) (core : Nat) (phase : Phase) (t : Addr) : Prop :=
  .halt t ∈ phase.work ∨ ∃ c, c ≠ core ∧ .halt t ∈ (s.cpus c).phase.work

/-- One core goes on to another phase; the lock and the posted stall may change with it. -/
theorem Inv.moved (inv : s.Inv lists) (bound : core < s.maxNumNodes) {s₁ : Smp}
    (within : Within core s s₁) {lists' : Nat → List Addr} {phase : Phase} {kernelLocked : Bool}
    {remoteStall : Option RemoteStall}
    (sched : s₁.Scheduled lists' (s.OwedAfter core phase))
    (wellNamed : ∀ entry stalled, phase = .spinning entry stalled → entry.wellNamed = true)
    (resumed : ∀ t, .resume t ∈ phase.work → t < walkLimit)
    (stalled : ∀ t, phase.stalledCurrent = true → (s₁.cpus core).current = some t →
      s₁.isIdleThread t = true)
    (held : phase.holds = true → kernelLocked = true ∧
      ∀ c, c ≠ core → (s.cpus c).phase.holds = false)
    (locked : ∀ c, c ≠ core → (s.cpus c).phase.holds = true → kernelLocked = true)
    (posted : ∀ stall, remoteStall = some stall → stall.done = false →
      ((∃ work, phase = .waiting work) ∨
        ∃ c work, c ≠ core ∧ (s.cpus c).phase = .waiting work) ∧
      (s₁.isIdleThread stall.target = false → s₁.isRunnable stall.target = true →
        s.OwedAfter core phase stall.target ∨
          stall.target ∈ lists' (s₁.homeCore stall.target))) :
    Inv { s₁.updCpu core fun cpu => { cpu with phase } with kernelLocked, remoteStall }
      lists' := by
  have cpus : ∀ c, (s₁.updCpu core fun cpu => { cpu with phase }).cpus c =
      if c = core then { s₁.cpus core with phase } else s₁.cpus c := updCpu_cpus _
  have phases : ∀ c, ((s₁.updCpu core fun cpu => { cpu with phase }).cpus c).phase =
      if c = core then phase else (s.cpus c).phase := by
    intro c
    rw [cpus]
    split
    · rfl
    · exact within.phase c
  have owed : ∀ t, Owed { s₁.updCpu core fun cpu => { cpu with phase } with
      kernelLocked, remoteStall } t ↔ s.OwedAfter core phase t := by
    intro t
    constructor
    · rintro ⟨c, isOwed⟩
      simp only [phases] at isOwed
      split at isOwed
      · exact .inl isOwed
      · rename_i other
        exact .inr ⟨c, other, isOwed⟩
    · rintro (here | ⟨c, other, there⟩)
      · exact ⟨core, by simpa [phases] using here⟩
      · exact ⟨c, by simpa [phases, other] using there⟩
  refine ⟨?_, fun c isOnline => ?_, fun c busy => ?_, fun c entry b spins => ?_,
    fun c t here => ?_, fun c t wasStalled here => ?_, fun c holds => ?_,
    fun c c' holds holds' => ?_, fun stall isPosted notDone => ?_⟩
  · have alike : Alike s₁ (s₁.updCpu core fun cpu => { cpu with phase }) := .updCpu rfl rfl
    have same : Alike s₁ { s₁.updCpu core fun cpu => { cpu with phase } with
        kernelLocked, remoteStall } :=
      ⟨alike.maxNumNodes, alike.idleTcbs, alike.affinity, alike.states, alike.links,
        alike.runqueue, alike.current⟩
    exact (sched.congr same).settle fun t _ _ isOwed => .inl ((owed t).mpr isOwed)
  · refine within.maxNumNodes ▸ inv.online c ?_
    rw [← within.online]
    simp only [cpus] at isOnline
    split at isOnline <;> simp_all
  · simp only [phases] at busy
    refine within.maxNumNodes ▸ ?_
    split at busy
    · rename_i here
      exact here ▸ bound
    · exact inv.inKernel c busy
  · simp only [phases] at spins
    split at spins
    · exact wellNamed entry b spins
    · exact inv.wellNamed c entry b spins
  · simp only [phases] at here
    split at here
    · exact resumed t here
    · exact inv.resumed c t here
  · simp only [phases] at wasStalled
    simp only [cpus] at here
    split at wasStalled
    · rename_i same
      rw [if_pos same] at here
      exact stalled t wasStalled here
    · rename_i other
      rw [if_neg other, within.current c other] at here
      exact (within.isIdleThread t).trans (inv.stalled c t wasStalled here)
  · simp only [phases] at holds
    split at holds
    · exact (held holds).1
    · rename_i other
      exact locked c other holds
  · simp only [phases] at holds holds'
    split at holds <;> split at holds'
    · simp_all
    · rename_i other
      simp [(held holds).2 c' other] at holds'
    · rename_i other _
      simp [(held holds').2 c other] at holds
    · exact inv.alone c c' holds holds'
  · obtain ⟨waits, placed⟩ := posted stall isPosted notDone
    refine ⟨?_, fun other runnable => ?_⟩
    · rcases waits with ⟨work, here⟩ | ⟨c, work, other, there⟩
      · exact ⟨core, work, by simpa [phases] using here⟩
      · exact ⟨c, work, by simpa [phases, other] using there⟩
    · rw [owed]
      exact placed other runnable

/-- The core that holds the lock does some work and goes on to its next phase. -/
theorem Inv.next (inv : s.Inv lists) (holds : (s.cpus core).phase.holds = true) {s₁ : Smp}
    (within : Within core s s₁) {lists' : Nat → List Addr} (phase : Phase)
    (remoteStall : Option RemoteStall)
    (sched : s₁.Scheduled lists' fun u => .halt u ∈ phase.work)
    (settled : phase = .user ∨ (∃ work, phase = .locked false work) ∨ ∃ work, phase = .waiting work)
    (kept : ∀ t, .resume t ∈ phase.work → .resume t ∈ (s.cpus core).phase.work)
    (posted : ∀ stall, remoteStall = some stall → stall.done = false →
      (∃ work, phase = .waiting work) ∧
      (s₁.isIdleThread stall.target = false → s₁.isRunnable stall.target = true →
        .halt stall.target ∈ phase.work ∨ stall.target ∈ lists' (s₁.homeCore stall.target))) :
    Inv { s₁.updCpu core fun cpu => { cpu with phase } with
      kernelLocked := phase.holds, remoteStall } lists' := by
  have outside : ∀ c, c ≠ core → (s.cpus c).phase.holds = false := by
    intro c other
    by_contra held
    exact other (inv.alone c core (by simpa using held) holds)
  refine inv.moved (inv.inKernel core fun user => ?_) within
    (sched.settle fun t _ _ isOwed => .inl (.inl isOwed)) (fun entry b spins => ?_)
    (fun t here => inv.resumed core t (kept t here)) (fun t stalled => ?_)
    (fun held => ⟨held, outside⟩) (fun c other held => ?_) fun stall isPosted notDone => ?_
  · simp [user, Phase.holds] at holds
  · subst spins
    simp at settled
  · rcases settled with rfl | ⟨work, rfl⟩ | ⟨work, rfl⟩ <;> simp [Phase.stalledCurrent] at stalled
  · simp [outside c other] at held
  · obtain ⟨waits, placed⟩ := posted stall isPosted notDone
    exact ⟨.inl waits, fun other runnable => (placed other runnable).imp .inl id⟩

/--
Every stall that hits a runnable thread is made to halt it, or finds it queued; and new threads are
made where none is.
-/
def Harmless (s : Smp) : Move → Prop
  | .advance core =>
    (∀ stalled tcb rest other, (s.cpus core).phase = .locked stalled (.stall tcb :: rest) →
      s.isIdleThread tcb = false → s.currentCoreOfTcb tcb = some other → other ≠ core →
        s.isRunnable tcb = true → .halt tcb ∈ rest ∨ s.contains (s.homeCore tcb) tcb = true) ∧
    ∀ stalled tcb rest, (s.cpus core).phase = .locked stalled (.init tcb :: rest) →
      s.isUnused tcb = true
  | .trap .. | .service _ | .acquire _ => True

section

variable (inv : s.Inv lists)
include inv

theorem Inv.step_trap {entry : Entry} (move : s.step (.trap core entry) = some s') : s'.Inv lists := by
  simp only [step] at move
  split at move
  · rename_i guard
    cases move
    obtain ⟨isOnline, user, named⟩ := guard
    have owed : ∀ t, s.Owed t → s.OwedAfter core (.spinning entry false) t := by
      rintro t ⟨c, isOwed⟩
      refine .inr ⟨c, ?_, isOwed⟩
      rintro rfl
      simp [user, Phase.work] at isOwed
    refine inv.moved (inv.online core isOnline) .refl
      (inv.scheduled.settle fun t _ _ isOwed => .inl (owed t isOwed)) (fun entry' b spins => ?_)
      (fun t here => ?_) (fun t stalled => ?_) (fun held => ?_) (fun c other held => inv.locked c held)
      fun stall isPosted notDone => ?_
    · cases spins
      exact named
    · simp [Phase.work] at here
    · simp [Phase.stalledCurrent] at stalled
    · simp [Phase.holds] at held
    · obtain ⟨⟨c, work, waits⟩, placed⟩ := inv.posted stall isPosted notDone
      refine ⟨.inr ⟨c, work, ?_, waits⟩, fun other runnable => ?_⟩
      · rintro rfl
        simp [user] at waits
      · exact (placed other runnable).imp (owed _) id
  · cases move

/-- A serviced stall takes the thread off the core, which is why it must be owed a halt or queued. -/
theorem Inv.step_service (move : s.step (.service core) = some s') :
    s'.Inv lists := by
  simp only [step] at move
  split at move
  · rename_i entry stalled stall phase isPosted
    split at move
    · rename_i forHere
      cases move
      have bound : core < s.maxNumNodes := inv.inKernel core (by simp [phase])
      have owed : ∀ t phase', s.Owed t → s.OwedAfter core phase' t := by
        rintro t phase' ⟨c, isOwed⟩
        refine .inr ⟨c, ?_, isOwed⟩
        rintro rfl
        simp [phase, Phase.work] at isOwed
      have named := inv.wellNamed core entry stalled phase
      unfold servicePendingRemoteCoreOp
      dsimp only
      split
      · rename_i isCurrent
        change Inv { (s.switchToIdleThread core).updCpu core
          (fun cpu => { cpu with phase := .spinning entry true }) with
            kernelLocked := s.kernelLocked, remoteStall := some { stall with done := true } } lists
        have sched := inv.scheduled.switchToIdleThread bound fun u other runnable onCore => by
          rw [isCurrent, Option.some.injEq] at onCore
          exact onCore ▸ (inv.posted stall isPosted forHere.2).2 (onCore ▸ other) (onCore ▸ runnable)
        refine inv.moved bound (.setCurrent _) (sched.settle fun t _ _ isOwed => .inl (owed t _ isOwed))
          (fun entry' b spins => ?_) (fun t here => ?_) (fun t _ here => ?_) (fun held => ?_)
          (fun c _ held => inv.locked c held) fun stall' same notDone => ?_
        · cases spins
          exact named
        · simp [Phase.work] at here
        · simp only [Smp.setCurrent, updCpu_cpus, if_pos, Option.some.injEq] at here
          exact here ▸ Scheduled.isIdleThread_idleTcbs bound
        · simp [Phase.holds] at held
        · cases same
          cases notDone
      · change Inv { s.updCpu core (fun cpu => { cpu with phase := .spinning entry stalled }) with
            kernelLocked := s.kernelLocked, remoteStall := some { stall with done := true } } lists
        refine inv.moved bound .refl
          (inv.scheduled.settle fun t _ _ isOwed => .inl (owed t _ isOwed))
          (fun entry' b spins => ?_) (fun t here => ?_) (fun t wasStalled here => ?_) (fun held => ?_)
          (fun c _ held => inv.locked c held) fun stall' same notDone => ?_
        · cases spins
          exact named
        · simp [Phase.work] at here
        · exact inv.stalled core t (by rw [phase]; exact wasStalled) here
        · simp [Phase.holds] at held
        · cases same
          cases notDone
    · cases move
  · cases move

/-- Taking the lock turns the trap into work. -/
theorem Inv.step_acquire (move : s.step (.acquire core) = some s') :
    s'.Inv lists := by
  simp only [step] at move
  split at move
  · rename_i entry stalled phase
    split at move
    · cases move
    rename_i unlocked
    cases move
    have outside : ∀ c, (s.cpus c).phase.holds = false := by
      intro c
      by_contra held
      exact unlocked (inv.locked c (by simpa using held))
    have free : ∀ t, ¬ s.Owed t := by
      rintro t ⟨c, isOwed⟩
      have := outside c
      cases where' : (s.cpus c).phase <;> simp_all [Phase.work, Phase.holds]
    refine inv.moved (inv.inKernel core (by simp [phase])) .refl
      (inv.scheduled.settle fun t _ _ isOwed => absurd isOwed (free t)) (fun entry' b spins => ?_)
      (fun t here => ?_) (fun t wasStalled here => ?_) (fun _ => ⟨rfl, fun c _ => outside c⟩)
      (fun c _ _ => rfl) fun stall isPosted notDone => ?_
    · cases spins
    · have named := inv.wellNamed core entry stalled phase
      cases stalled with
      | false => exact Entry.lt_of_resume named here
      | true => simp [Phase.work] at here
    · exact inv.stalled core t (by rw [phase]; exact wasStalled) here
    · obtain ⟨⟨c, work, waits⟩, -⟩ := inv.posted stall isPosted notDone
      have := outside c
      simp [waits, Phase.holds] at this
  · cases move

/-- One piece of work. -/
theorem Inv.step_doWork (harmless : s.Harmless (.advance core)) {stalled : Bool} {item : Work} {rest : List Work}
    (phase : (s.cpus core).phase = .locked stalled (item :: rest)) :
    ∃ lists', (s.doWork core rest item).Inv lists' := by
  have holds : (s.cpus core).phase.holds = true := by simp [phase, Phase.holds]
  have locked := inv.locked core holds
  have unposted := inv.not_posted phase
  have work : (s.cpus core).phase.work = item :: rest := by rw [phase]; rfl
  have sched : s.Scheduled lists fun u => item = .halt u ∨ .halt u ∈ rest :=
    inv.scheduled.settle fun t _ _ isOwed => .inl (by
      rw [inv.owed_iff holds, work, List.mem_cons] at isOwed
      exact isOwed.imp Eq.symm id)
  -- All work but a stall that finds its thread elsewhere ends in the same way.
  have kept : ∀ t, .resume t ∈ rest → .resume t ∈ (s.cpus core).phase.work := fun t here => by
    rw [work]
    exact List.mem_cons_of_mem _ here
  have finish : ∀ {s₁ : Smp} {lists' : Nat → List Addr}, Within core s s₁ →
      s₁.Scheduled lists' (fun u => .halt u ∈ rest) →
      (s₁.updCpu core fun cpu => { cpu with phase := .locked false rest }).Inv lists' := by
    intro s₁ lists' within sched'
    have done := inv.next holds within (.locked false rest) s.remoteStall sched'
      (.inr (.inl ⟨rest, rfl⟩)) kept
      fun stall isPosted notDone => by simp [unposted stall isPosted] at notDone
    rw [show (Phase.locked false rest).holds = s.kernelLocked from locked.symm,
      ← within.kernelLocked, ← within.remoteStall] at done
    exact done
  cases item with
  | stall t =>
    have sched' : s.Scheduled lists fun u => .halt u ∈ rest :=
      sched.settle fun u _ _ isOwed => .inl (isOwed.resolve_left nofun)
    have ready := finish .refl sched'
    simp only [doWork]
    split
    · exact ⟨lists, ready⟩
    rename_i notIdle
    split
    · exact ⟨lists, ready⟩
    rename_i other elsewhere
    split
    · exact ⟨lists, ready⟩
    rename_i remote
    refine ⟨lists, ?_⟩
    have waits := inv.next holds .refl (.waiting rest)
      (some { core := other, target := t, done := false }) sched' (.inr (.inr ⟨rest, rfl⟩)) kept
      fun stall posted _ => by
        cases posted
        refine ⟨⟨rest, rfl⟩, fun _ runnable => ?_⟩
        have := harmless.1 stalled t rest other phase (by simpa using notIdle) elsewhere remote
          runnable
        rwa [sched.contains_iff] at this
    rw [show (Phase.waiting rest).holds = s.kernelLocked from locked.symm] at waits
    exact waits
  | halt t =>
    obtain ⟨lists', sched'⟩ := sched.halt t
    refine ⟨lists', finish (.halt t) (sched'.settle fun u _ _ isOwed => .inl ?_)⟩
    rcases isOwed with ⟨same | isOwed, other⟩
    · cases same
      exact absurd rfl other
    · exact isOwed
  | resume t =>
    have small : t < walkLimit := inv.resumed core t (by rw [work]; exact List.mem_cons_self)
    obtain ⟨lists', sched', -⟩ := sched.resume small
    exact ⟨lists', finish (.resume t)
      (sched'.settle fun u _ _ isOwed => .inl (isOwed.resolve_left nofun))⟩
  | init t =>
    exact ⟨lists, finish (.initTcb (by simp [work]))
      ((sched.initTcb (harmless.2 stalled t rest phase)).settle fun u _ _ isOwed =>
        .inl (isOwed.resolve_left nofun))⟩
  | continueCurrentOnce t =>
    have sched' : (s.continueCurrentOnce core t).Scheduled lists _ :=
      sched.congr (.updCpu rfl rfl)
    exact ⟨lists, finish (.updCpu rfl rfl fun _ => rfl)
      (sched'.settle fun u _ _ isOwed => .inl (isOwed.resolve_left nofun))⟩
  | timerTick =>
    exact ⟨lists, finish .timerTick
      ((sched.timerTick core).settle fun u _ _ isOwed => .inl (isOwed.resolve_left nofun))⟩
  | yieldCurrent =>
    obtain ⟨lists', sched'⟩ := sched.yieldCurrent core
    exact ⟨lists', finish .yieldCurrent
      (sched'.settle fun u _ _ isOwed => .inl (isOwed.resolve_left nofun))⟩

/-- With no work left the core returns to user mode and gives up the lock. -/
theorem Inv.leave {stalled : Bool}
    (phase : (s.cpus core).phase = .locked stalled []) {s₁ : Smp} (within : Within core s s₁)
    {lists' : Nat → List Addr} (sched : s₁.Scheduled lists' s.Owed) : (s₁.finishKernelExit core).Inv lists' := by
  have holds : (s.cpus core).phase.holds = true := by simp [phase, Phase.holds]
  have unposted := inv.not_posted phase
  have done := inv.next holds within .user s.remoteStall
    (sched.settle fun t _ _ isOwed => by simp [inv.owed_iff holds, phase, Phase.work] at isOwed)
    (.inl rfl) (fun t here => by simp [Phase.work] at here)
    fun stall isPosted notDone => by simp [unposted stall isPosted] at notDone
  rw [← within.remoteStall] at done
  exact done

theorem Inv.step_advance (harmless : s.Harmless (.advance core))
    (move : s.step (.advance core) = some s') : ∃ lists', s'.Inv lists' := by
  simp only [step] at move
  split at move
  · rename_i stalled item rest phase
    cases move
    exact inv.step_doWork harmless phase
  · rename_i phase
    cases move
    have bound := inv.inKernel core (by simp [phase])
    obtain ⟨lists', sched⟩ := inv.scheduled.kernelExit bound
    exact ⟨lists', inv.leave phase .kernelExit sched⟩
  · rename_i phase
    cases move
    have bound := inv.inKernel core (by simp [phase])
    obtain ⟨lists', sched⟩ := inv.scheduled.restoreScheduledOrIdle bound
      fun u other runnable onCore => by
        have isIdle := inv.stalled core u (by simp [phase, Phase.stalledCurrent]) onCore
        simp [isIdle] at other
    exact ⟨lists', inv.leave phase .restoreScheduledOrIdle sched⟩
  · rename_i work phase
    split at move
    · rename_i stall isPosted
      split at move
      · cases move
        have holds : (s.cpus core).phase.holds = true := by simp [phase, Phase.holds]
        have sched : s.Scheduled lists fun u => .halt u ∈ work :=
          inv.scheduled.settle fun t _ _ isOwed => .inl (by
            rwa [inv.owed_iff holds, phase] at isOwed)
        have ready := inv.next holds .refl (.locked false work) none sched
          (.inr (.inl ⟨work, rfl⟩)) (fun t here => by rw [phase]; exact here)
          fun stall posted => by cases posted
        rw [show (Phase.locked false work).holds = s.kernelLocked from
          (inv.locked core holds).symm] at ready
        exact ⟨lists, ready⟩
      · cases move
    · cases move
  · cases move

/-- Every harmless move keeps the invariant. -/
theorem Inv.step {move : Move} (harmless : s.Harmless move)
    (moved : s.step move = some s') : ∃ lists', s'.Inv lists' := by
  cases move with
  | trap core entry => exact ⟨lists, inv.step_trap moved⟩
  | service core => exact ⟨lists, inv.step_service moved⟩
  | acquire core => exact ⟨lists, inv.step_acquire moved⟩
  | advance core => exact inv.step_advance harmless moved

end

/-- A state the cores can be in: some lists are on the runqueues and the invariant holds. -/
def WellFormed (s : Smp) : Prop := ∃ lists, s.Inv lists

/-- A move of some core that is harmless where it is made. -/
def HarmlessStep (s s' : Smp) : Prop := ∃ move, s.Harmless move ∧ s.step move = some s'

theorem WellFormed.run (start : s.WellFormed)
    (run : Relation.ReflTransGen HarmlessStep s s') : s'.WellFormed := by
  induction run with
  | refl => exact start
  | tail _ moved ih =>
    obtain ⟨lists, inv⟩ := ih
    obtain ⟨move, harmless, moved⟩ := moved
    exact inv.step harmless moved

/--
A runnable thread that no core is about to halt is current on a core, or on exactly its home
core's runqueue.
-/
theorem WellFormed.kept (formed : s.WellFormed) (other : s.isIdleThread t = false)
    (runnable : s.isRunnable t = true)
    (settled : ∀ core < s.maxNumNodes, .halt t ∉ (s.cpus core).phase.work) :
    (∃ core < s.maxNumNodes, (s.cpus core).current = some t) ∨
      ∀ core < s.maxNumNodes, s.contains core t = true ↔ core = s.homeCore t := by
  obtain ⟨lists, inv⟩ := formed
  rcases inv.scheduled.placed t other runnable with ⟨core, isOwed⟩ | onCore | queued
  · have bound : core < s.maxNumNodes := inv.inKernel core fun user => by
      simp [user, Phase.work] at isOwed
    exact absurd isOwed (settled core bound)
  · exact .inl ⟨_, inv.scheduled.homeCore_lt t, onCore⟩
  · refine .inr fun core _ => ?_
    rw [inv.scheduled.contains_iff]
    refine ⟨fun here => (inv.scheduled.queued core t here).2.2.2.symm, ?_⟩
    rintro rfl
    exact queued

/-- Idle threads make no system calls, and untyped memory holds no thread. -/
def allows (s : Smp) : Move → Bool
  | .trap core entry =>
    !entry.isSyscall || (s.cpus core).current.any fun caller => !s.isIdleThread caller
  | .advance core => match (s.cpus core).phase with
    | .locked _ (.init tcb :: _) => s.isUnused tcb
    | _ => true
  | .service _ | .acquire _ => true

/-- A move that a core can make and its threads can bring about. -/
def UserStep (s s' : Smp) : Prop := ∃ move, s.allows move = true ∧ s.step move = some s'

/--
The threads live on the boot core, so that only this core has system calls to serve, and it finds
no thread to stall on another one.
-/
structure Homed (s : Smp) : Prop where
  home : ∀ t, s.isIdleThread t = false → s.homeCore t = 0
  serves : ∀ c, (s.cpus c).phase.serves = true → c = 0
  unposted : s.remoteStall = none

section

variable (inv : s.Inv lists) (homed : s.Homed)
include homed

/-- A core goes on; the threads it has made meanwhile are at home there if it serves a call. -/
theorem Homed.next {s₁ : Smp} (within : Within core s s₁) {phase : Phase} {kernelLocked : Bool}
    (served : phase.serves = true → core = 0) :
    Homed { s₁.updCpu core fun cpu => { cpu with phase } with kernelLocked } := by
  refine ⟨fun t other => ?_, fun c serves => ?_, within.remoteStall.trans homed.unposted⟩
  · have home := homed.home t ((within.isIdleThread t).symm.trans other)
    change s₁.homeCore t = 0
    rcases within.affinity t with same | ⟨here, made⟩
    · rwa [homeCore, within.maxNumNodes, same]
    · -- Making a thread is work of a system call, so this is the boot core.
      have boot : core = 0 := homed.serves core (by
        cases phase : (s.cpus core).phase <;> simp_all [Phase.work, Phase.serves]
        all_goals exact ⟨_, made, by simp⟩)
      simp [homeCore, here, boot]
  · change ((s₁.updCpu core fun cpu => { cpu with phase }).cpus c).phase.serves = true at serves
    rw [updCpu_cpus] at serves
    split at serves
    · rename_i same
      exact same.trans (served serves)
    · exact homed.serves c (within.phase c ▸ serves)

include inv

/-- Only on the boot core is a thread other than the idle one current. -/
theorem Homed.current (other : s.isIdleThread t = false) (onCore : (s.cpus core).current = some t) :
    core = 0 := by
  rcases inv.scheduled.current core t onCore with isIdle | ⟨-, home⟩
  · simp [isIdle] at other
  · exact home.symm.trans (homed.home t other)

/-- A stall finds its thread on the core that makes it, or on none. -/
theorem Homed.currentCoreOfTcb {stalled : Bool} {rest : List Work} {found : Nat}
    (phase : (s.cpus core).phase = .locked stalled (.stall t :: rest))
    (other : s.isIdleThread t = false) (where' : s.currentCoreOfTcb t = some found) :
    found = core := by
  have boot : core = 0 := homed.serves core (by simp [phase, Phase.serves])
  have onCore : (s.cpus found).current = some t := by
    have := List.find?_some where'
    simp only [Bool.and_eq_true, beq_iff_eq] at this
    exact this.2
  exact (homed.current inv other onCore).trans boot.symm

/-- So no stall does harm. -/
theorem Homed.harmless {move : Move} (allowed : s.allows move = true) : s.Harmless move := by
  cases move with
  | trap | service | acquire => trivial
  | advance core =>
    refine ⟨fun stalled tcb rest found phase other where' remote => ?_,
      fun stalled tcb rest phase => ?_⟩
    · exact absurd (homed.currentCoreOfTcb inv phase other where') remote
    · simpa [allows, phase] using allowed

/-- One move of a core keeps the threads on the boot core. -/
theorem Homed.step {move : Move} (allowed : s.allows move = true)
    (moved : s.step move = some s') : s'.Homed := by
  cases move with
  | trap core entry =>
    simp only [Smp.step] at moved
    split at moved
    · cases moved
      refine homed.next .refl fun serves => ?_
      simp only [Phase.serves] at serves
      simp only [allows, serves, Bool.not_true, Bool.false_or, Option.any_eq_true] at allowed
      obtain ⟨caller, onCore, other⟩ := allowed
      exact homed.current inv (by simpa using other) onCore
    · cases moved
  | service core => simp [Smp.step, homed.unposted] at moved
  | acquire core =>
    simp only [Smp.step] at moved
    split at moved
    · rename_i entry stalled phase
      split at moved <;> cases moved
      refine homed.next .refl fun serves => homed.serves core ?_
      rw [phase]
      refine Entry.isSyscall_of_work (s.cpus core).current ?_
      cases stalled with
      | false => exact serves
      | true => simp [Phase.serves] at serves
    · cases moved
  | advance core =>
    simp only [Smp.step] at moved
    split at moved
    · rename_i stalled item rest phase
      cases moved
      have served : (Phase.locked false rest).serves = true → core = 0 := fun serves =>
        homed.serves core (by simp_all [Phase.serves])
      cases item with
      | stall t =>
        simp only [doWork]
        split
        · exact homed.next .refl served
        rename_i other
        split
        · exact homed.next .refl served
        rename_i found where'
        rw [if_pos (homed.currentCoreOfTcb inv phase (by simpa using other) where')]
        exact homed.next .refl served
      | halt t => exact homed.next (.halt t) served
      | resume t => exact homed.next (.resume t) served
      | init t => exact homed.next (.initTcb (by simp [phase, Phase.work])) served
      | continueCurrentOnce t => exact homed.next (.updCpu rfl rfl fun _ => rfl) served
      | timerTick => exact homed.next .timerTick served
      | yieldCurrent => exact homed.next .yieldCurrent served
    · cases moved
      exact homed.next .kernelExit nofun
    · cases moved
      exact homed.next .restoreScheduledOrIdle nofun
    · simp [homed.unposted] at moved
    · cases moved

end

/-- Runs that threads can bring about keep the threads on the boot core, and so are harmless. -/
theorem Homed.run (homed : s.Homed) (start : s.WellFormed)
    (run : Relation.ReflTransGen UserStep s s') :
    s'.Homed ∧ Relation.ReflTransGen HarmlessStep s s' := by
  induction run with
  | refl => exact ⟨homed, .refl⟩
  | tail _ moved ih =>
    obtain ⟨homed', run⟩ := ih
    obtain ⟨lists, inv⟩ := start.run run
    obtain ⟨move, allowed, moved⟩ := moved
    exact ⟨homed'.step inv allowed moved, run.tail ⟨move, homed'.harmless inv allowed, moved⟩⟩

/-- Every thread but the idle ones belongs to the boot core, and no core is in the kernel. -/
structure Booted (s : Smp) : Prop where
  wellFormed : s.WellFormed
  home : ∀ t, s.isIdleThread t = false → s.homeCore t = 0
  user : ∀ c, (s.cpus c).phase = .user
  unposted : s.remoteStall = none

theorem Booted.homed (booted : s.Booted) : s.Homed :=
  ⟨booted.home, fun c serves => by simp [booted.user c, Phase.serves] at serves, booted.unposted⟩

/-- Two cores with idle threads at 1 and 2; the first thread runs on the boot core. -/
def twoCores : Smp where
  maxNumNodes := 2
  idleTcbs core := core + 1
  affinity tcb := if tcb = 2 then 1 else 0
  states tcb := if tcb = 100 then .running else .inactive
  timeSlices _ := timeSliceTicks
  links _ := {}
  cpus core :=
    if core = 0 then { current := some 100, online := true }
    else if core = 1 then { current := some 2, online := true }
    else {}
  kernelLocked := false
  remoteStall := none

theorem twoCores_booted : twoCores.Booted := by
  have phases : ∀ c, (twoCores.cpus c).phase = .user := by
    intro c
    simp only [twoCores]
    split
    · rfl
    split <;> rfl
  have unposted : twoCores.remoteStall = none := rfl
  refine ⟨⟨fun _ => [], ⟨by decide, ⟨fun c => ?_, ?_, fun _ _ _ => rfl⟩, ?_, fun c t here => ?_,
    fun t _ runnable => .inr (.inl ?_)⟩, fun c isOnline => ?_, ?_, ?_, ?_, ?_, ?_, ?_, ?_⟩,
    fun t other => ?_, phases, unposted⟩
  · simp only [twoCores]
    split
    · exact Lib.IsQueue.empty
    split <;> exact Lib.IsQueue.empty
  · simp
  · simp
  · simp only [twoCores] at here
    split at here
    · cases here
      exact .inr (by simp_all [twoCores, homeCore, walkLimit])
    split at here
    · cases here
      exact .inl (by decide)
    · cases here
  · obtain rfl : t = 100 := by
      by_contra another
      simp [isRunnable, twoCores, another, ThreadState.isRunnable] at runnable
    rfl
  · simp only [twoCores] at isOnline ⊢
    split at isOnline
    · omega
    split at isOnline
    · omega
    · cases isOnline
  -- Nobody is in the kernel, so the rest holds of no core.
  rotate_right
  · have : t ≠ 2 := by
      rintro rfl
      exact absurd other (by decide)
    simp [homeCore, twoCores, this]
  all_goals simp [phases, unposted, Phase.work, Phase.holds, Phase.stalledCurrent]

/-- The state several moves lead to, if the threads can bring all of them about. -/
def run (s : Smp) : List Move → Option Smp
  | [] => some s
  | move :: moves =>
    if s.allows move then (s.step move).bind fun s => s.run moves else none

theorem reaches_of_run (moves : List Move) (run : s.run moves = some s') :
    Relation.ReflTransGen UserStep s s' := by
  induction moves generalizing s with
  | nil =>
    cases run
    exact .refl
  | cons move moves ih =>
    simp only [Smp.run] at run
    split at run
    · obtain ⟨s₁, moved, run⟩ := Option.bind_eq_some_iff.mp run
      exact .head ⟨move, ‹_›, moved⟩ (ih run)
    · cases run

/-- The first thread makes another and starts it; a tick hits the second core meanwhile. -/
def startThread : List Move :=
  [.trap 0 (.retype [200]), .acquire 0, .advance 0, .trap 1 .timer, .advance 0,
    .acquire 1, .advance 1, .trap 0 (.invoke 200 .resume), .advance 1, .acquire 0,
    .advance 0, .advance 0, .advance 0, .advance 0]

/--
While no stall does harm, one core at most is in the kernel with the lock, no thread is current on
two cores, and a core's runqueue holds only runnable threads that belong to the core.
-/
theorem cores_apart (start : s.WellFormed) (run : Relation.ReflTransGen HarmlessStep s s') :
    (∀ c c', (s'.cpus c).phase.holds = true → (s'.cpus c').phase.holds = true → c = c') ∧
    (∀ c c' t, s'.isIdleThread t = false → (s'.cpus c).current = some t →
      (s'.cpus c').current = some t → c = c') ∧
    ∀ c t, s'.contains c t = true →
      s'.isIdleThread t = false ∧ s'.isRunnable t = true ∧ s'.homeCore t = c := by
  obtain ⟨lists, inv⟩ := start.run run
  have home {c t} (other : s'.isIdleThread t = false) (current : (s'.cpus c).current = some t) :
      s'.homeCore t = c :=
    ((inv.scheduled.current c t current).resolve_left (by simp [other])).2
  refine ⟨inv.alone, fun c c' t other here there => (home other here).symm.trans (home other there),
    fun c t => ?_⟩
  rw [inv.scheduled.contains_iff]
  exact fun queued => (inv.scheduled.queued c t queued).2

/-- The first thread yields to the one it has started, while a tick waits for the lock. -/
def yieldThread : List Move :=
  [.trap 0 .yield, .acquire 0, .trap 1 .timer, .advance 0, .advance 0, .acquire 1]

theorem cores_apart_twoThreads :
    ∃ s', twoCores.run (startThread ++ yieldThread) = some s' ∧
      (s'.cpus 0).current = some 200 ∧ s'.contains 0 100 = true ∧
      (s'.cpus 1).phase.holds = true ∧
      (∀ c, (s'.cpus c).phase.holds = true → c = 1) ∧
      (∀ c, (s'.cpus c).current = some 200 → c = 0) ∧ ∀ c, s'.contains c 100 = true → c = 0 := by
  refine ⟨_, rfl, by decide +kernel, by decide +kernel, by decide +kernel, ?_⟩
  have apart := cores_apart twoCores_booted.wellFormed
    (twoCores_booted.homed.run twoCores_booted.wellFormed
      (reaches_of_run (startThread ++ yieldThread) rfl)).2
  exact ⟨fun c holds => apart.1 c 1 holds (by decide +kernel),
    fun c here => apart.2.1 c 0 200 (by decide +kernel) here (by decide +kernel),
    fun c here => (apart.2.2 c 100 here).2.2.symm.trans (by decide +kernel)⟩

end Smp

end Rel4
