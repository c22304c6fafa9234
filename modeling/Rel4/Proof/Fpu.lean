import Rel4.Kernel.Fpu

/-! A thread finds its own values in the floating-point registers, and never those of another thread. -/

namespace Rel4

open Function (update update_of_ne update_self)

namespace FpuCore

variable {c c' : FpuCore} {last : Addr → FpuState} {live : Addr → Bool} {t : Addr}

/-- The unit holds what its owner last had, and the save areas what all others had. -/
structure Holds (c : FpuCore) (live : Addr → Bool) (last : Addr → FpuState) : Prop where
  alive : ∀ o, c.owner = some o → live o = true
  owned : ∀ o, c.owner = some o → c.hardware = last o
  saved : ∀ t, live t = true → c.owner ≠ some t → (c.tcbs t).fpu = last t

/-- Only owner, registers and save areas matter. -/
theorem Holds.congr (holds : c.Holds live last) (owner : c'.owner = c.owner) (hardware : c'.hardware = c.hardware)
    (saved : ∀ t, (c'.tcbs t).fpu = (c.tcbs t).fpu) : c'.Holds live last where
  alive o is := holds.alive o (owner ▸ is)
  owned o is := hardware.trans (holds.owned o (owner ▸ is))
  saved t there other := (saved t).trans (holds.saved t there (owner ▸ other))

theorem updTcb_fpu {change : FpuTcb → FpuTcb} (same : ∀ tcb, (change tcb).fpu = tcb.fpu) (u : Addr) :
    ((c.updTcb t change).tcbs u).fpu = (c.tcbs u).fpu := by
  by_cases here : u = t
  · subst here
    simp [updTcb, same]
  · simp [updTcb, here]

theorem Holds.updTcb (holds : c.Holds live last) {change : FpuTcb → FpuTcb} (same : ∀ tcb, (change tcb).fpu = tcb.fpu) :
    (c.updTcb t change).Holds live last :=
  holds.congr rfl rfl (updTcb_fpu same)

theorem Holds.setFpuContextEnabled (holds : c.Holds live last) (enabled : Bool) :
    (c.setFpuContextEnabled t enabled).Holds live last :=
  holds.updTcb fun _ => rfl

/-- The core once the registers of the old owner are saved. -/
def vacated (c : FpuCore) : FpuCore :=
  match c.owner with
  | some old => c.enableAccess.saveFpuState old
  | none => c.enableAccess

theorem switchLocalOwner_none : c.switchLocalOwner none = { c.vacated.disableAccess with owner := none } := by
  unfold switchLocalOwner vacated
  cases is : c.owner <;> simp [enableAccess, is]

theorem switchLocalOwner_some : c.switchLocalOwner (some t) =
    { (c.vacated.loadFpuState t).setFpuContextEnabled t true with owner := some t } := by
  unfold switchLocalOwner vacated
  cases is : c.owner <;> simp [enableAccess, saveFpuState, loadFpuState, updTcb, is]

section

variable (holds : c.Holds live last)
include holds

/-- After that, every save area is up to date. -/
theorem Holds.vacated (there : live t = true) : (c.vacated.tcbs t).fpu = last t := by
  unfold FpuCore.vacated
  split
  · rename_i old is
    by_cases here : t = old
    · subst here
      simp [saveFpuState, FpuCore.updTcb, enableAccess, holds.owned t is]
    · have other : c.owner ≠ some t := by simp [is, Ne.symm here]
      simp [saveFpuState, FpuCore.updTcb, enableAccess, here, holds.saved t there other]
  · rename_i free
    exact holds.saved t there (by simp [free])

theorem Holds.switch_none : (c.switchLocalOwner none).Holds live last := by
  rw [switchLocalOwner_none]
  exact ⟨nofun, nofun, fun t there _ => holds.vacated there⟩

theorem Holds.switch_some (there : live t = true) : (c.switchLocalOwner (some t)).Holds live last := by
  rw [switchLocalOwner_some]
  -- What is loaded is the save area of the new owner, which was up to date.
  refine ⟨fun o is => ?_, fun o is => ?_, fun u alive _ => ?_⟩
  · cases is
    exact there
  · cases is
    exact holds.vacated there
  · have kept : (((c.vacated.loadFpuState t).setFpuContextEnabled t true).tcbs u).fpu = (c.vacated.tcbs u).fpu := by
      unfold FpuCore.setFpuContextEnabled
      rw [updTcb_fpu ?_ u]
      · rfl
      · exact fun _ => rfl
    exact kept.trans (holds.vacated alive)

theorem Holds.lazyRestore (there : live t = true) : (c.lazyRestore t).Holds live last := by
  unfold FpuCore.lazyRestore
  split
  · exact (holds.congr rfl rfl fun _ => rfl : c.disableAccess.Holds live last).setFpuContextEnabled _
  · split
    · exact (holds.congr rfl rfl fun _ => rfl : c.enableAccess.Holds live last).setFpuContextEnabled _
    · exact holds.switch_some there

theorem Holds.release : (c.release t).Holds live last := by
  unfold FpuCore.release
  split
  · exact holds.switch_none
  · exact holds

end

theorem release_owner : (c.release t).owner ≠ some t := by
  unfold release
  split
  · rw [switchLocalOwner_none]
    nofun
  · assumption

theorem Holds.setFlags (holds : c.Holds live last) (there : live t = true) (clear set : Word) :
    (c.setFlags t clear set).Holds live last := by
  unfold FpuCore.setFlags
  dsimp only
  generalize (c.tcbs t).flags - ((c.tcbs t).flags &&& clear) ||| set % 2 = flags
  have flagged : (c.updTcb t fun tcb => { tcb with flags }).Holds live last := holds.updTcb fun _ => rfl
  split
  · exact flagged.release.setFpuContextEnabled _
  · split
    · exact flagged.lazyRestore there
    · exact flagged

/-- A deleted thread does not own the unit, and counts no longer. -/
theorem Holds.finalize (holds : c.Holds live last) : (c.finalize t).Holds (update live t false) last := by
  have released : (c.finalize t).Holds live last := (holds.release (t := t)).updTcb fun _ => rfl
  have gone : (c.finalize t).owner ≠ some t := release_owner
  refine ⟨fun o is => ?_, released.owned, fun u alive other => ?_⟩
  · have apart : o ≠ t := fun same => gone (same ▸ is)
    rw [update_of_ne apart]
    exact released.alive o is
  · have apart : u ≠ t := by
      rintro rfl
      simp at alive
    rw [update_of_ne apart] at alive
    exact released.saved u alive other

/-- A new thread starts with zeros, in its save area and by its own account. -/
theorem Holds.create (holds : c.Holds live last) (free : live t = false) :
    (c.create t).Holds (update live t true) (update last t {}) := by
  have others : ∀ o, c.owner = some o → o ≠ t := by
    rintro o is rfl
    rw [holds.alive o is] at free
    cases free
  refine ⟨fun o is => ?_, fun o is => ?_, fun u alive other => ?_⟩
  · rw [update_of_ne (others o is)]
    exact holds.alive o is
  · rw [update_of_ne (others o is)]
    exact holds.owned o is
  · by_cases here : u = t
    · subst here
      simp [FpuCore.create, FpuCore.updTcb]
    · rw [update_of_ne here] at alive ⊢
      simpa [FpuCore.create, FpuCore.updTcb, here] using holds.saved u alive other

/-- A thread enters user mode with access just if it may use the unit, and then it owns it. -/
theorem lazyRestore_access : ((c.lazyRestore t).tcbs t).contextEnabled = !(c.tcbs t).fpuDisabled ∧
    (((c.lazyRestore t).tcbs t).fpuDisabled = (c.tcbs t).fpuDisabled) ∧
    ((c.tcbs t).fpuDisabled = false → (c.lazyRestore t).owner = some t) := by
  have flags : (c.vacated.tcbs t).flags = (c.tcbs t).flags := by
    unfold vacated
    split
    · rename_i old _
      by_cases here : t = old
      · simp [saveFpuState, updTcb, enableAccess, here]
      · simp [saveFpuState, updTcb, enableAccess, here]
    · rfl
  unfold lazyRestore
  by_cases disabled : (c.tcbs t).fpuDisabled = true
  · rw [if_pos disabled, disabled]
    refine ⟨by simp [setFpuContextEnabled, updTcb], ?_, nofun⟩
    rw [← disabled]
    simp [setFpuContextEnabled, updTcb, disableAccess, FpuTcb.fpuDisabled]
  · have enabled : (c.tcbs t).fpuDisabled = false := by simpa using disabled
    rw [if_neg disabled, enabled]
    by_cases owns : c.owner = some t
    · rw [if_pos owns]
      refine ⟨by simp [setFpuContextEnabled, updTcb, enableAccess], ?_, fun _ => owns⟩
      rw [← enabled]
      simp [setFpuContextEnabled, updTcb, enableAccess, FpuTcb.fpuDisabled]
    · rw [if_neg owns, switchLocalOwner_some]
      refine ⟨by simp [setFpuContextEnabled, updTcb], ?_, fun _ => rfl⟩
      rw [← enabled]
      simp [setFpuContextEnabled, updTcb, loadFpuState, FpuTcb.fpuDisabled, flags]

end FpuCore

namespace FpuSystem

variable {s s' : FpuSystem} {t : Addr} {event : FpuEvent}

/-- What holds at all times; a thread in user mode has access just if it may, and then it owns the unit. -/
structure Isolated (s : FpuSystem) : Prop where
  holds : s.core.Holds s.live s.last
  access : ∀ t, s.running = some t →
    (s.core.tcbs t).contextEnabled = !(s.core.tcbs t).fpuDisabled ∧
      ((s.core.tcbs t).fpuDisabled = false → s.core.owner = some t)

/-- Every event keeps it. -/
theorem Isolated.step (isolated : s.Isolated) (steps : s.step event = some s') : s'.Isolated := by
  -- In the kernel no thread is in user mode.
  have kernel : ∀ {core live last}, s.running = none → FpuCore.Holds core live last →
      ({ s with core, live, last } : FpuSystem).Isolated :=
    fun none holds => ⟨holds, fun t running => nomatch none.symm.trans running⟩
  unfold FpuSystem.step at steps
  cases event with
  | compute values =>
    cases running : s.running with
    | none => simp [running] at steps
    | some t =>
      simp only [running, Option.ite_none_right_eq_some, Option.some.injEq] at steps
      obtain ⟨enabled, rfl⟩ := steps
      obtain ⟨access, owns⟩ := isolated.access t running
      -- The thread that computes owns the unit, so its registers are again what it last had.
      have owner : s.core.owner = some t := owns (by simpa [enabled] using access)
      refine ⟨⟨isolated.holds.alive, fun o is => ?_, fun u alive other => ?_⟩,
        fun u is => isolated.access u (running.trans is)⟩
      · cases owner.symm.trans is
        exact (update_self t values s.last).symm
      · have apart : u ≠ t := by
          rintro rfl
          exact other owner
        exact (isolated.holds.saved u alive other).trans (update_of_ne apart values s.last).symm
  | trap =>
    simp only [Option.ite_none_right_eq_some, Option.some.injEq] at steps
    obtain ⟨-, rfl⟩ := steps
    exact ⟨isolated.holds, nofun⟩
  | setFlags t clear set =>
    simp only [Option.ite_none_right_eq_some, Option.some.injEq] at steps
    obtain ⟨⟨none, there⟩, rfl⟩ := steps
    exact kernel none (isolated.holds.setFlags there clear set)
  | delete t =>
    simp only [Option.ite_none_right_eq_some, Option.some.injEq] at steps
    obtain ⟨⟨none, -⟩, rfl⟩ := steps
    exact kernel none isolated.holds.finalize
  | create t =>
    simp only [Option.ite_none_right_eq_some, Option.some.injEq] at steps
    obtain ⟨⟨none, free⟩, rfl⟩ := steps
    exact kernel none (isolated.holds.create free)
  | exit t =>
    simp only [Option.ite_none_right_eq_some, Option.some.injEq] at steps
    obtain ⟨⟨-, there⟩, rfl⟩ := steps
    refine ⟨(isolated.holds.lazyRestore there).congr rfl rfl fun _ => rfl, fun u running => ?_⟩
    cases running
    obtain ⟨access, flags, owns⟩ := FpuCore.lazyRestore_access (c := s.core) (t := t)
    exact ⟨access.trans (congrArg _ flags.symm), fun enabled => owns (flags ▸ enabled)⟩

theorem Isolated.run (isolated : s.Isolated) {events : List FpuEvent} (runs : s.run events = some s') :
    s'.Isolated := by
  -- Induction over the events, each of which keeps the invariant.
  induction events generalizing s with
  | nil =>
    cases runs
    exact isolated
  | cons event rest ih =>
    obtain ⟨s₁, first, later⟩ := Option.bind_eq_some_iff.mp runs
    exact ih (isolated.step first) later

theorem start_isolated (hardware : FpuState) (live : Addr → Bool) (flags : Addr → Word) :
    (start hardware live flags).Isolated :=
  ⟨⟨nofun, nofun, fun _ _ _ => rfl⟩, nofun⟩

/--
Whenever a thread is in user mode, the registers hold the values it last had itself, if it may use the unit.

A thread that may not use it has no access to them.
-/
theorem fpu_isolated {hardware : FpuState} {live : Addr → Bool} {flags : Addr → Word} {events : List FpuEvent}
    (runs : (start hardware live flags).run events = some s) (user : s.running = some t) :
    ((s.core.tcbs t).fpuDisabled = false → s.core.hardware = s.last t ∧ (s.core.tcbs t).contextEnabled = true) ∧
      ((s.core.tcbs t).fpuDisabled = true → (s.core.tcbs t).contextEnabled = false) := by
  have isolated := (start_isolated hardware live flags).run runs
  obtain ⟨access, owns⟩ := isolated.access t user
  refine ⟨fun enabled => ⟨isolated.holds.owned t (owns enabled), ?_⟩, fun disabled => ?_⟩
  · rw [access, enabled]
    rfl
  · rw [access, disabled]
    rfl

/-- A thread computes, another one does, and the first finds its own values again. -/
theorem fpu_isolated_twoThreads :
    ∃ s, (start {} (fun _ => true) fun _ => 0).run
        [.exit 1, .compute { fcsr := 5 }, .trap, .exit 2, .compute { fcsr := 6 }, .trap, .exit 1] = some s ∧
      s.core.hardware = s.last 1 ∧ (s.last 1).fcsr = 5 := by
  obtain ⟨s, runs⟩ : ∃ s, (start {} (fun _ => true) fun _ => 0).run
      [.exit 1, .compute { fcsr := 5 }, .trap, .exit 2, .compute { fcsr := 6 }, .trap, .exit 1] = some s := ⟨_, rfl⟩
  have reached : s.running = some 1 ∧ (s.core.tcbs 1).fpuDisabled = false ∧ (s.last 1).fcsr = 5 := by
    cases runs
    exact ⟨rfl, rfl, rfl⟩
  exact ⟨s, runs, ((fpu_isolated runs reached.1).1 reached.2.1).1, reached.2.2⟩

end FpuSystem

end Rel4
