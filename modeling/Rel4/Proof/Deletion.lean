import Rel4.Proof.Rules
import Rel4.Proof.Slots

/-! What deletion does to the capability slots, whatever it is asked to delete. -/

namespace Rel4

open Lib

namespace Cap

/-- What deletion may leave in the slot of a capability: itself, nothing, or a zombie of it. -/
inductive Remnant : Cap → Cap → Prop
  | kept (cap : Cap) : Remnant cap cap
  | gone (cap : Cap) : Remnant null cap
  | cnode {ptr : Addr} {radix guard guardSize : Nat} (number : Nat) :
      Remnant (newCNodeZombie number radix ptr) (cnode ptr radix guard guardSize)
  | thread {ptr : Addr} (number : Nat) : Remnant (newTcbZombie number ptr) (thread ptr)
  | zombie {ptr : Addr} {type : ZombieType} (number' number : Nat) :
      Remnant (zombie ptr type number') (zombie ptr type number)

/-- Capabilities that deletion has to tear down step by step. -/
def lasting : Cap → Bool
  | cnode .. | thread .. | zombie .. => true
  | _ => false

end Cap

/-- One step of a deletion: capabilities leave remnants, or a zombie changes places with another
capability. -/
inductive DeletionStep (before after : Slot → Cap) : Prop
  | leave (each : ∀ x, (after x).Remnant (before x))
  | aside (a b : Slot) (zombie : ∃ ptr type number, before b = .zombie ptr type number)
      (first : after a = before b) (second : after b = before a)
      (rest : ∀ x, x ≠ a → x ≠ b → after x = before x)

/-- The slots have only changed in such steps, and no page went to or came from the boot pool. -/
structure Deletes (s s' : KState) : Prop where
  caps : Relation.ReflTransGen DeletionStep s.cap s'.cap
  pool : s'.vm.bootTables = s.vm.bootTables

/-- Only capabilities that go at once have gone. -/
structure Prunes (s s' : KState) : Prop where
  caps : ∀ x, s'.cap x = s.cap x ∨ s'.cap x = .null ∧ (s.cap x).lasting = false
  pool : s'.vm.bootTables = s.vm.bootTables

section Relations

variable {s s' : KState} {slot : Slot}

theorem KState.cap_of_caps (same : s'.caps = s.caps) : s'.cap = s.cap := by
  funext x
  rw [KState.cap, same, KState.cap]

instance : IsPreorder KState Deletes where
  refl _ := ⟨.refl, rfl⟩
  trans _ _ _ first second := ⟨first.caps.trans second.caps, second.pool.trans first.pool⟩

instance : IsPreorder KState Prunes where
  refl _ := ⟨fun _ => .inl rfl, rfl⟩
  trans s s' s'' first second := by
    refine ⟨fun x => ?_, second.pool.trans first.pool⟩
    rcases second.caps x with same | ⟨gone, light⟩
    · rw [same]
      exact first.caps x
    · rcases first.caps x with same' | ⟨gone', light'⟩
      · exact .inr ⟨gone, same' ▸ light⟩
      · exact .inr ⟨gone, light'⟩

theorem Prunes.of_caps (same : s'.caps = s.caps) (pool : s'.vm.bootTables = s.vm.bootTables) :
    Prunes s s' :=
  ⟨fun x => .inl (congrFun (KState.cap_of_caps same) x), pool⟩

theorem Prunes.deletes (prunes : Prunes s s') : Deletes s s' := by
  refine ⟨.single (.leave fun x => ?_), prunes.pool⟩
  rcases prunes.caps x with same | ⟨gone, -⟩
  · rw [same]
    exact .kept _
  · rw [gone]
    exact .gone _

/-- Replacing a capability by a remnant of it. -/
theorem Deletes.setCap {new : Cap} (remnant : new.Remnant (s.cap slot)) :
    Deletes s (s.setCap slot new) := by
  refine ⟨.single (.leave fun x => ?_), rfl⟩
  have here : (s.setCap slot new).cap x = if x = slot then new else s.cap x :=
    CapStore.setCap_cap new
  rw [here]
  split
  · rename_i same
    exact same ▸ remnant
  · exact .kept _

end Relations

section Tables

variable (arch : Arch) (vm : Vm) (root : Addr) (vaddr : Nat) (target : Addr)

theorem unlinkTable_bootTables (level table : Nat) :
    (unlinkTable arch vm vaddr target level table).bootTables = vm.bootTables := by
  fun_induction unlinkTable arch vm vaddr target level table with
  | case4 _ _ _ _ _ _ ih => exact ih
  | _ => rfl

theorem unmapUserFrame_bootTables (size : FrameSize) (pa : Nat) :
    (unmapUserFrame arch vm root vaddr size pa).bootTables = vm.bootTables := by
  unfold unmapUserFrame
  simp only
  split
  · rfl
  split
  · rfl
  split <;> rfl

theorem unmapUserPageTable_bootTables :
    (unmapUserPageTable arch vm root vaddr target).bootTables = vm.bootTables := by
  unfold unmapUserPageTable
  split
  · rfl
  · exact unlinkTable_bootTables ..

end Tables

section AtOnce

/-- What goes at once is in no slot that anybody else looks at. -/
theorem finalizeAtOnce_caps (cap : Cap) (isFinal : Bool) (s : KState) :
    wp (finalizeAtOnce cap isFinal)
      (fun done s' => (s'.caps = s.caps ∧ s'.vm.bootTables = s.vm.bootTables) ∧
        (done = true → cap.lasting = false))
      (fun _ s' => s'.caps = s.caps ∧ s'.vm.bootTables = s.vm.bootTables) s := by
  unfold finalizeAtOnce
  cases cap <;> simp only [wp_bind, wp_get, wp_pure, wp_ite, wp_set, wp_crash] <;>
    simp [Cap.lasting, unmapUserFrame_bootTables, unmapUserPageTable_bootTables]

theorem emptyFinalizedSlot_cap (slot : Slot) (cleanupInfo : Cap) (s : KState) :
    wp (emptyFinalizedSlot slot cleanupInfo)
      (fun _ s' => (∀ x, s'.cap x = if x = slot then .null else s.cap x) ∧
        s'.vm.bootTables = s.vm.bootTables)
      (fun _ _ => False) s := by
  have emptied : ∀ x, KState.cap { s with caps := s.caps.emptySlot slot } x =
      if x = slot then .null else s.cap x := fun x => CapStore.emptySlot_cap
  unfold emptyFinalizedSlot postCapDeletion
  simp only [wp_bind, wp_get, wp_ite, wp_set, wp_pure]
  refine ⟨fun _ => ?_, fun empty => ⟨fun x => ?_, trivial⟩⟩
  · split
    · simp only [wp_bind, wp_get, wp_ite, wp_set, wp_pure]
      exact ⟨fun _ => ⟨emptied, trivial⟩, fun _ => ⟨emptied, trivial⟩⟩
    · exact ⟨emptied, rfl⟩
  · split
    · rename_i here
      simpa [here] using empty
    · rfl

theorem cteDeleteOne_prunes (slot : Slot) : Always Prunes (cteDeleteOne slot) := by
  intro s
  unfold Follows cteDeleteOne
  simp only [wp_bind, wp_get, wp_ite, wp_crash, wp_pure]
  refine ⟨fun _ => ?_, fun _ => refl_of Prunes s⟩
  refine wp_mono (finalizeAtOnce_caps _ _ s) (fun done s' after => ?_)
    fun _ _ after => .of_caps after.1 after.2
  obtain ⟨⟨caps, pool⟩, light⟩ := after
  refine ⟨fun finished => ?_, fun _ => .of_caps caps pool⟩
  refine wp_mono (emptyFinalizedSlot_cap slot .null s') (fun _ s'' emptied => ?_)
    fun _ _ no => no.elim
  refine ⟨fun x => ?_, emptied.2.trans pool⟩
  rw [emptied.1 x]
  split
  · rename_i here
    exact .inr ⟨rfl, here ▸ light finished⟩
  · exact .inl (congrFun (KState.cap_of_caps caps) x)

/-- Threads are in no slot. -/
theorem modifyThreads_prunes (change : Threads → Threads) : Always Prunes (modifyThreads change) :=
  fun _ => .of_caps rfl rfl

theorem cancelBlockedOnReply_prunes (tcb : Addr) : Always Prunes (cancelBlockedOnReply tcb) := by
  refine always_bind (modifyThreads_prunes _) fun _ => always_bind always_get fun s => ?_
  split
  · exact cteDeleteOne_prunes _
  · exact always_pure _

theorem suspend_prunes (tcb : Addr) : Always Prunes (suspend tcb) :=
  always_bind always_get fun _ => always_ite
    (always_bind (modifyThreads_prunes _) fun _ => always_bind (modifyThreads_prunes _) fun _ =>
      always_bind (cancelBlockedOnReply_prunes tcb) fun _ => modifyThreads_prunes _)
    (always_pure _)

theorem finalizeTcb_prunes (tcb : Addr) : Always Prunes (finalizeTcb tcb) :=
  always_bind (modifyThreads_prunes _) fun _ =>
    always_bind (suspend_prunes tcb) fun _ => modifyThreads_prunes _

theorem clearNotification_prunes (irq : Nat) : Always Prunes (clearNotification irq) :=
  always_bind always_get fun _ => always_ite (cteDeleteOne_prunes _) (always_pure _)

/-- Giving way to the timer wakes threads and touches no slot. -/
theorem cnodePreemptionPoint_prunes : Always Prunes cnodePreemptionPoint := by
  intro s
  unfold Follows cnodePreemptionPoint
  simp only [wp_bind, wp_get, wp_ite, wp_set]
  refine ⟨fun _ => .of_caps rfl rfl, fun _ => ?_⟩
  split
  · simp only [handleTimerInterrupt, signalIrq, wp_bind, wp_modify, wp_get, wp_ite, wp_raise, wp_pure]
    refine ⟨fun _ => ⟨fun _ => ?_, fun _ => .of_caps rfl rfl⟩, fun _ => .of_caps rfl rfl⟩
    split
    · simp only [wp_ite, wp_set, wp_pure]
      exact ⟨fun _ => .of_caps rfl rfl, fun _ => .of_caps rfl rfl⟩
    · exact .of_caps rfl rfl
  · exact .of_caps rfl rfl

/-- Finalising leaves a remnant of the capability; one to tear down is still in its slot. -/
theorem finalizeCap_prunes (cap : Cap) (isFinal : Bool) (s : KState) :
    wp (finalizeCap cap isFinal)
      (fun result s' => Prunes s s' ∧ result.remainder.Remnant cap ∧
        (result.remainder ≠ .null → cap.lasting = true))
      (fun _ s' => Prunes s s') s := by
  unfold finalizeCap
  simp only [wp_bind]
  refine wp_mono (finalizeAtOnce_caps cap isFinal s) (fun done s' after => ?_)
    fun _ _ after => .of_caps after.1 after.2
  have sofar : Prunes s s' := .of_caps after.1.1 after.1.2
  have nothing : Prunes s s' ∧ Cap.null.Remnant cap ∧ (Cap.null ≠ .null → cap.lasting = true) :=
    ⟨sofar, .gone cap, fun no => absurd rfl no⟩
  simp only [wp_ite, wp_pure]
  refine ⟨fun _ => nothing, fun _ => ?_⟩
  cases cap with
  | cnode ptr radix guard guardSize =>
    simp only [wp_bind, wp_get, wp_ite, wp_crash, wp_pure]
    exact ⟨fun _ => ⟨fun _ => sofar, fun _ => ⟨sofar, .cnode _, fun _ => rfl⟩⟩, fun _ => nothing⟩
  | thread ptr =>
    simp only [wp_bind, wp_get, wp_ite, wp_crash, wp_pure]
    refine ⟨fun _ => ⟨fun _ => sofar, fun _ => ?_⟩, fun _ => nothing⟩
    exact (finalizeTcb_prunes ptr s').wp_of sofar
      (fun _ s'' _ later => ⟨later, .thread _, fun _ => rfl⟩) fun _ _ => id
  | zombie ptr type number =>
    simp only [wp_bind, wp_get, wp_pure]
    exact ⟨sofar, .kept _, fun _ => rfl⟩
  | irqHandler irq =>
    simp only [wp_bind, wp_get, wp_ite, wp_pure]
    refine ⟨fun _ => ?_, fun _ => nothing⟩
    exact (clearNotification_prunes irq s').wp_of sofar
      (fun _ s'' _ later => ⟨later, .gone _, fun no => absurd rfl no⟩) fun _ _ => id
  | ioPort first last =>
    simp only [wp_bind, wp_get, wp_ite, wp_set, wp_pure]
    refine ⟨fun _ => ⟨?_, nothing.2⟩, fun _ => nothing⟩
    exact ⟨sofar.caps, sofar.pool⟩
  | _ =>
    simp only [wp_bind, wp_get, wp_pure]
    exact nothing

end AtOnce

/-- What two slots hold after an exchange. -/
theorem cnodeSwapSlots_caps (capA capB : Cap) (a b : Slot) (s : KState) :
    wp (cnodeSwapSlots capA a capB b)
      (fun _ s' => (s'.cap a = capB ∧ s'.cap b = capA ∧
        ∀ x, x ≠ a → x ≠ b → s'.cap x = s.cap x) ∧ s'.vm = s.vm)
      (fun _ s' => s' = s) s := by
  unfold cnodeSwapSlots
  simp only [wp_bind, wp_ite, wp_crash, wp_modify, implies_true, true_and]
  intro distinct
  have caps : ∀ x, KState.cap { s with caps := s.caps.swapSlots capA a capB b } x =
      if x = a then capB else if x = b then capA else s.cap x :=
    fun x => CapStore.swapSlots_cap distinct
  refine ⟨⟨?_, ?_, fun x notA notB => ?_⟩, trivial⟩
  · rw [caps, if_pos rfl]
  · rw [caps, if_neg (Ne.symm distinct), if_pos rfl]
  · rw [caps, if_neg notA, if_neg notB]

section Zombies

variable {del : Slot → Bool → Kern Unit} (deletes : ∀ x exposed, Always Deletes (del x exposed))

include deletes in
theorem reduceZombie_deletes (slot : Slot) (immediate : Bool) :
    Always Deletes (reduceZombie del slot immediate) := by
  intro s
  have done := refl_of Deletes s
  unfold Follows reduceZombie
  simp only [wp_bind, wp_get]
  split
  · rename_i ptr type number here
    simp only [wp_bind, wp_ite, wp_crash, capRemovable, wp_pure]
    refine ⟨fun _ => done, fun _ => ⟨fun _ => done, fun _ => ⟨fun _ => done, fun _ =>
      ⟨fun _ => ?_, fun _ => ⟨fun _ => done, fun _ => ?_⟩⟩⟩⟩⟩
    · -- The zombie may have gone with the slot that was deleted; otherwise it shrinks.
      refine (deletes _ _ s).wp_of done (fun _ s' _ sofar => ?_) fun _ _ => id
      simp only [wp_get]
      split
      · exact sofar
      · rename_i ptr' type' number' here
        simp only [wp_bind, wp_ite, wp_crash, wp_set, wp_pure]
        refine ⟨fun _ => ⟨fun _ => sofar, fun _ => trans_of Deletes sofar (.setCap ?_)⟩,
          fun _ => ⟨fun _ => sofar, fun _ => sofar⟩⟩
        rw [here]
        exact .zombie _ _
      · exact sofar
    · have swap : Follows Deletes (cnodeSwapSlots (s.cap ptr) ptr (s.cap slot) slot) s := by
        refine wp_mono (cnodeSwapSlots_caps _ _ ptr slot s) ?_ fun _ _ same => same ▸ done
        rintro - s' ⟨⟨first, second, rest⟩, vm⟩
        exact ⟨.single (.aside ptr slot ⟨ptr, type, number, here⟩ first second rest), by rw [vm]⟩
      split
      · simp only [wp_bind, wp_ite, wp_crash]
        exact ⟨fun _ => done, fun _ => swap⟩
      · exact swap
  · exact done

include deletes in
/-- Each round of finalising a slot is made of such steps. -/
theorem finaliseSlot_deletes (slot : Slot) (immediate : Bool) (fuel : Nat) :
    Always Deletes (finaliseSlot del slot immediate fuel) := by
  induction fuel with
  | zero => exact always_throw _
  | succ fuel ih =>
    intro s
    have done := refl_of Deletes s
    unfold Follows finaliseSlot
    simp only [wp_bind, wp_get, wp_ite, wp_pure, wp_crash]
    refine ⟨fun _ => done, fun _ => ?_⟩
    refine wp_mono (finalizeCap_prunes _ _ s) (fun result s' after => ?_) fun _ _ => Prunes.deletes
    obtain ⟨prunes, remnant, lasting⟩ := after
    have sofar := prunes.deletes
    refine ⟨fun _ => sofar, fun _ => ?_⟩
    -- A remainder that is not done is a zombie, and the capability it is made from is still there.
    by_cases gone : result.remainder = .null
    · simp only [gone, capRemovable, wp_pure, not_true_eq_false, false_implies, and_true]
      exact fun _ => sofar
    have here : s'.cap slot = s.cap slot := by
      rcases prunes.caps slot with same | ⟨-, light⟩
      · exact same
      · simp [lasting gone] at light
    have stored : Deletes s (s'.setCap slot result.remainder) :=
      trans_of Deletes sofar (.setCap (here ▸ remnant))
    have removable : ∀ (post : Bool → KState → Prop), (∀ done, post done s') →
        wp (capRemovable result.remainder slot) post (fun _ => Deletes s) s' := by
      intro post every
      unfold capRemovable
      split
      · exact every _
      · exact every _
      · exact sofar
    refine removable _ fun _ => ⟨fun _ => sofar, fun _ => ?_⟩
    simp only [wp_modify]
    refine ⟨fun _ => stored, fun _ => ?_⟩
    refine (reduceZombie_deletes deletes slot immediate _).wp_of stored (fun _ s₂ _ sofar => ?_)
      fun _ _ => id
    have gives : Follows Deletes cnodePreemptionPoint s₂ :=
      (cnodePreemptionPoint_prunes s₂).mono fun _ => Prunes.deletes
    refine gives.wp_of sofar (fun _ s₃ _ sofar => ?_) fun _ _ => id
    exact (ih s₃).after sofar

end Zombies

/-- The slot that was finalised is emptied at the end. -/
theorem emptyFinalizedSlot_deletes (slot : Slot) (cleanupInfo : Cap) :
    Always Deletes (emptyFinalizedSlot slot cleanupInfo) := by
  intro s
  refine wp_mono (emptyFinalizedSlot_cap slot cleanupInfo s) (fun _ s' emptied => ?_)
    fun _ _ no => no.elim
  refine ⟨.single (.leave fun x => ?_), emptied.2⟩
  rw [emptied.1 x]
  split
  · exact .gone _
  · exact .kept _

theorem cteDelete_deletes (depth : Nat) (slot : Slot) (exposed : Bool) :
    Always Deletes (cteDelete depth slot exposed) := by
  induction depth generalizing slot exposed with
  | zero => exact always_throw _
  | succ depth ih =>
    exact always_bind always_get fun _ => always_bind (finaliseSlot_deletes ih slot exposed _)
      fun _ => always_ite (emptyFinalizedSlot_deletes slot _) (always_pure _)

theorem deleteSlot_deletes (slot : Slot) : Always Deletes (deleteSlot slot) :=
  always_bind always_get fun _ => cteDelete_deletes _ slot true

theorem revokeDescendants_deletes (slot : Slot) (fuel : Nat) :
    Always Deletes (revokeDescendants slot fuel) := by
  induction fuel with
  | zero => exact always_throw _
  | succ fuel ih =>
    refine always_bind always_get fun s => ?_
    split
    · exact always_ite (always_bind (deleteSlot_deletes _) fun _ =>
        always_bind (cnodePreemptionPoint_prunes.mono fun _ _ => Prunes.deletes) fun _ => ih)
        (always_pure _)
    · exact always_pure _

theorem cteRevoke_deletes (slot : Slot) : Always Deletes (cteRevoke slot) :=
  always_bind always_get fun _ => always_ite
    (always_bind (always_modify fun _ => Prunes.deletes (.of_caps rfl rfl)) fun _ =>
      revokeDescendants_deletes slot _)
    (always_pure _)

end Rel4
