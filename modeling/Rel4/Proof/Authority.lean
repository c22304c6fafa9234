import Rel4.Proof.Deletion

/-! Operations that make one capability from another never add authority. -/

namespace Rel4

open Lib

namespace Cap

variable {new old mid : Cap}

/--
The first capability names the object of the second and allows no more.

Where an object is mapped, what is used up of a block and how a node is addressed are not rights.
A badge that is set stays what it is.
-/
inductive Attenuates : Cap → Cap → Prop
  | null (old : Cap) : Attenuates null old
  | same (cap : Cap) : Attenuates cap cap
  | frame {base : Addr} {size : FrameSize} {rights' rights : VmRights} {dev : Bool}
      {addr' asid' addr asid : Nat} (read : rights'.allowRead = true → rights.allowRead = true)
      (write : rights'.allowWrite = true → rights.allowWrite = true) :
      Attenuates (frame base size rights' dev addr' asid') (frame base size rights dev addr asid)
  | untyped {ptr : Addr} {bits free' free : Nat} {dev : Bool} :
      Attenuates (untyped ptr bits free' dev) (untyped ptr bits free dev)
  | endpoint {ptr : Addr} {badge' badge : Word}
      {send' receive' grant' grantReply' send receive grant grantReply : Bool}
      (kept : badge ≠ 0 → badge' = badge) (sends : send' = true → send = true)
      (receives : receive' = true → receive = true) (grants : grant' = true → grant = true)
      (grantsReply : grantReply' = true → grantReply = true) :
      Attenuates (endpoint ptr badge' send' receive' grant' grantReply')
        (endpoint ptr badge send receive grant grantReply)
  | notification {ptr : Addr} {badge' badge : Word} {send' receive' send receive : Bool}
      (kept : badge ≠ 0 → badge' = badge) (sends : send' = true → send = true)
      (receives : receive' = true → receive = true) :
      Attenuates (notification ptr badge' send' receive') (notification ptr badge send receive)
  | reply {tcb : Addr} {grant' grant isMaster : Bool} (grants : grant' = true → grant = true) :
      Attenuates (reply tcb grant' isMaster) (reply tcb grant isMaster)
  | cnode {ptr : Addr} {radix guard' guardSize' guard guardSize : Nat} :
      Attenuates (cnode ptr radix guard' guardSize') (cnode ptr radix guard guardSize)

theorem Attenuates.trans (first : new.Attenuates mid) (second : mid.Attenuates old) :
    new.Attenuates old := by
  cases first with
  | null => exact .null old
  | same => exact second
  | frame read write =>
    cases second with
    | same => exact .frame read write
    | frame read' write' => exact .frame (read' ∘ read) (write' ∘ write)
  | untyped => cases second <;> constructor
  | endpoint kept send receive grant grantReply =>
    cases second with
    | same => exact .endpoint kept send receive grant grantReply
    | endpoint kept' send' receive' grant' grantReply' =>
      refine .endpoint (fun set => ?_) (send' ∘ send) (receive' ∘ receive) (grant' ∘ grant)
        (grantReply' ∘ grantReply)
      have unchanged := kept' set
      exact (kept (unchanged ▸ set)).trans unchanged
  | notification kept send receive =>
    cases second with
    | same => exact .notification kept send receive
    | notification kept' send' receive' =>
      refine .notification (fun set => ?_) (send' ∘ send) (receive' ∘ receive)
      have unchanged := kept' set
      exact (kept (unchanged ▸ set)).trans unchanged
  | reply grant =>
    cases second with
    | same => exact .reply grant
    | reply grant' => exact .reply (grant' ∘ grant)
  | cnode => cases second <;> constructor

/-- Capabilities that exist once: they may be moved but never copied. -/
def sole : Cap → Bool
  | reply .. | zombie .. | irqControl | ioPortControl => true
  | _ => false

theorem Attenuates.sole_eq (attenuates : new.Attenuates old) (live : new ≠ .null) :
    new.sole = old.sole := by
  cases attenuates <;> first | rfl | exact absurd rfl live

theorem maskRights_attenuates (mask : CapRights) (cap : Cap) :
    (cap.maskRights mask).Attenuates cap := by
  cases cap with
  | frame base size rights dev addr asid =>
    cases rights <;> cases hr : mask.read <;> cases hw : mask.write <;>
      simp [maskRights, maskFrameVmRights, hr, hw] <;>
      exact .frame (by simp [VmRights.allowRead]) (by simp [VmRights.allowWrite])
  | endpoint ptr badge send receive grant grantReply =>
    exact .endpoint (fun _ => rfl) (by simp_all) (by simp_all) (by simp_all) (by simp_all)
  | notification ptr badge send receive =>
    exact .notification (fun _ => rfl) (by simp_all) (by simp_all)
  | reply tcb grant isMaster => exact .reply (by simp_all)
  | _ => exact .same _

theorem updateData_attenuates (preserve : Bool) (data : Word) (cap : Cap) :
    (cap.updateData preserve data).Attenuates cap := by
  cases cap with
  | endpoint ptr badge send receive grant grantReply =>
    simp only [updateData]
    split
    · exact .null _
    · exact .endpoint (by simp_all) id id id id
  | notification ptr badge send receive =>
    simp only [updateData]
    split
    · exact .null _
    · exact .notification (by simp_all) id id
  | cnode ptr radix guard guardSize =>
    simp only [updateData]
    split
    · exact .null _
    · exact .cnode
  | _ => exact .same _

end Cap

/--
One change to the slots that adds no authority.

`may src dest old` says that the operation at hand may take what was `old` in the first slot to the second. A weaker
version of it goes into an empty slot if it may be copied; or it is moved there; or two capabilities change places.
What is put into a slot is never null. Deletion leaves remnants, and may put a zombie aside.
-/
inductive CapStep (may : Slot → Slot → Cap → Prop) (before after : Slot → Cap) : Prop
  | derive (old : Cap) (src dest : Slot) (source : may src dest old) (shared : old.sole = false)
      (empty : before dest = .null) (live : after dest ≠ .null) (new : (after dest).Attenuates old)
      (marked : (after src).Attenuates (before src))
      (rest : ∀ x, x ≠ src → x ≠ dest → after x = before x)
  | move (src dest : Slot) (source : may src dest (before src)) (empty : before dest = .null)
      (live : after dest ≠ .null) (new : (after dest).Attenuates (before src)) (gone : after src = .null)
      (rest : ∀ x, x ≠ src → x ≠ dest → after x = before x)
  | swap (a b : Slot) (source : may a b (before a) ∧ may b a (before b))
      (live : after a ≠ .null ∧ after b ≠ .null) (first : (after a).Attenuates (before b))
      (second : (after b).Attenuates (before a)) (rest : ∀ x, x ≠ a → x ≠ b → after x = before x)
  | aside (a b : Slot) (zombie : ∃ ptr type number, before b = .zombie ptr type number)
      (first : after a = before b) (second : after b = before a)
      (rest : ∀ x, x ≠ a → x ≠ b → after x = before x)
  | delete (each : ∀ x, (after x).Remnant (before x))

/-- The slots have only changed in steps that add no authority. -/
def Lessens (may : Slot → Slot → Cap → Prop) (s s' : KState) : Prop :=
  Relation.ReflTransGen (CapStep may) s.cap s'.cap

variable {may : Slot → Slot → Cap → Prop}

instance : IsPreorder KState (Lessens may) where
  refl _ := .refl
  trans _ _ _ := .trans

theorem Lessens.of_step {s s' : KState} (step : CapStep may s.cap s'.cap) : Lessens may s s' :=
  .single step

theorem Lessens.of_caps {s s' : KState} (same : s'.caps = s.caps) : Lessens may s s' := by
  rw [Lessens, KState.cap_of_caps same]

/-- A copy carries no more than its original, and what exists once is not copied. -/
theorem deriveCapForCopy_attenuates (slot : Slot) (cap : Cap) (s : KState) :
    wp (deriveCapForCopy slot cap)
      (fun new s' => s' = s ∧ new.Attenuates cap ∧ (new ≠ .null → cap.sole = false))
      (fun _ s' => s' = s) s := by
  unfold deriveCapForCopy
  cases cap <;> simp only [wp_pure, wp_bind, wp_get, wp_ite, wp_raise] <;>
    simp [Cap.sole, Cap.Attenuates.null, Cap.Attenuates.same]
  exact .frame id id

section Derivation

variable {s : KState} {src dest a b : Slot} {new capA capB : Cap}

theorem fullIfCopied_attenuates (old new : Cap) :
    (CapStore.fullIfCopied old new).Attenuates old := by
  cases old <;> cases new <;> simp only [CapStore.fullIfCopied] <;> try exact .same _
  split
  · exact .same _
  · exact .untyped

/-- Inserting a weaker copy of a capability that may be copied. -/
theorem cteInsert_lessens {old : Cap} (source : may src dest old) (shared : old.sole = false)
    (attenuates : new.Attenuates old) (live : new ≠ .null) :
    Follows (Lessens may) (cteInsert src new dest) s := by
  unfold Follows cteInsert
  simp only [wp_bind, wp_get, wp_ite, wp_crash, wp_set]
  refine ⟨fun _ => .refl, fun distinct => ⟨fun _ => .refl, fun empty => .of_step ?_⟩⟩
  have caps : ∀ x, KState.cap { s with caps := s.caps.cteInsert src new dest } x =
      if x = dest then new else if x = src then CapStore.fullIfCopied (s.cap src) new
      else s.cap x := fun x => CapStore.cteInsert_cap
  have there : KState.cap { s with caps := s.caps.cteInsert src new dest } dest = new := by
    rw [caps, if_pos rfl]
  refine .derive old src dest source shared ?_ (by rw [there]; exact live) (by rw [there]; exact attenuates) ?_
    fun x notSrc notDest => ?_
  · simp only [Cte.isEmpty, Bool.not_eq_true, Bool.not_eq_false'] at empty
    have := (Bool.and_eq_true_iff.mp (Bool.and_eq_true_iff.mp empty).1).1
    exact Cap.isNull_iff.mp this
  · rw [caps, if_neg distinct, if_pos rfl]
    exact fullIfCopied_attenuates _ _
  · rw [caps, if_neg notDest, if_neg notSrc]

/-- Moving a capability, perhaps weakened on the way. -/
theorem cnodeMoveSlot_lessens (source : may src dest (s.cap src)) (attenuates : new.Attenuates (s.cap src))
    (live : new ≠ .null) : Follows (Lessens may) (cnodeMoveSlot src dest new) s := by
  unfold Follows cnodeMoveSlot
  simp only [wp_bind, wp_get, wp_ite, wp_crash, wp_set]
  refine ⟨fun _ => .refl, fun distinct => ⟨fun _ => .refl, fun _ => ⟨fun _ => .refl,
    fun empty => ⟨fun _ => .refl, fun _ => .of_step ?_⟩⟩⟩⟩
  have caps : ∀ x, KState.cap { s with caps := s.caps.moveSlot src dest new } x =
      if x = dest then new else if x = src then .null else s.cap x :=
    fun x => CapStore.moveSlot_cap distinct
  have there : KState.cap { s with caps := s.caps.moveSlot src dest new } dest = new := by
    rw [caps, if_pos rfl]
  refine .move src dest source (by simpa using empty) (by rw [there]; exact live) (by rw [there]; exact attenuates) ?_
    fun x notSrc notDest => ?_
  · rw [caps, if_neg distinct, if_pos rfl]
  · rw [caps, if_neg notDest, if_neg notSrc]

/-- A move touches the two slots it is about. -/
theorem cnodeMoveSlot_elsewhere (src dest : Slot) (new : Cap) (s : KState) :
    wp (cnodeMoveSlot src dest new)
      (fun _ s' => ∀ x, x ≠ src → x ≠ dest → s'.cap x = s.cap x) (fun _ _ => True) s := by
  unfold cnodeMoveSlot
  simp only [wp_bind, wp_get, wp_ite, wp_crash, wp_set, implies_true, true_and]
  intro distinct _ _ _ x notSrc notDest
  exact (CapStore.moveSlot_cap distinct).trans (by rw [if_neg notDest, if_neg notSrc]; rfl)

/-- Exchanging two capabilities, perhaps weakened on the way. -/
theorem cnodeSwapSlots_lessens (source : may a b (s.cap a) ∧ may b a (s.cap b)) (live : capB ≠ .null ∧ capA ≠ .null)
    (first : capA.Attenuates (s.cap a)) (second : capB.Attenuates (s.cap b)) :
    Follows (Lessens may) (cnodeSwapSlots capA a capB b) s := by
  refine wp_mono (cnodeSwapSlots_caps capA capB a b s) ?_ fun _ _ same => same ▸ .refl
  rintro - s' ⟨⟨rfl, rfl, rest⟩, -⟩
  exact .of_step (.swap a b source live second first rest)

end Derivation

/-- Deletion adds no authority, whatever the operation at hand may take. -/
theorem Deletes.lessens {s s' : KState} (deletes : Deletes s s') : Lessens may s s' := by
  refine Relation.ReflTransGen.mono (fun before after step => ?_) _ _ deletes.caps
  cases step with
  | leave each => exact .delete each
  | aside a b zombie first second rest => exact .aside a b zombie first second rest

theorem deleteSlot_lessens (slot : Slot) (s : KState) :
    Follows (Lessens may) (deleteSlot slot) s :=
  (deleteSlot_deletes slot s).mono fun _ => Deletes.lessens

/-- The operations that make one capability from another. -/
inductive CapOperation
  | copyOrMint (thread uc : Addr) (root : Cap) (length : Word) (isMint : Bool)
  | moveOrMutate (thread uc : Addr) (root : Cap) (length : Word) (isMutate : Bool)
  | rotate (thread uc : Addr) (root : Cap) (length : Word)
  | saveCaller (uc : Addr) (root : Cap) (length : Word)
  | configure (thread uc : Addr) (slot : Slot) (target : Addr) (length : Word)
  | setSpace (thread uc : Addr) (slot : Slot) (target : Addr) (length : Word)
  | setIpcBuffer (thread uc : Addr) (slot : Slot) (target : Addr) (length : Word)
  | transfer (receiver : Addr) (info : MessageInfo) (endpoint : Option Addr) (canGrant : Bool)
      (extraCapSlots : List (Option Slot))
  | setNotification (irq : Nat) (ntfn : Addr) (badge : Word) (ntfnSlot : Slot)

namespace CapOperation

/-- Run such an operation. -/
def run : CapOperation → Kern Unit
  | copyOrMint thread uc root length isMint => cnodeOpCopyOrMint thread uc root length isMint
  | moveOrMutate thread uc root length isMutate =>
    cnodeOpMoveOrMutate thread uc root length isMutate
  | rotate thread uc root length => cnodeOpRotate thread uc root length
  | saveCaller uc root length => cnodeOpSaveCaller uc root length
  | configure thread uc slot target length => tcbConfigure thread uc slot target length
  | setSpace thread uc slot target length => tcbSetSpace thread uc slot target length
  | setIpcBuffer thread uc slot target length => tcbSetIpcBuffer thread uc slot target length
  | transfer receiver info endpoint canGrant extraCapSlots => do
    let _ ← transferCaps receiver info endpoint canGrant extraCapSlots
  | setNotification irq ntfn badge ntfnSlot => do
    let _ ← Rel4.setNotification irq ntfn badge ntfnSlot

/-- The slot that an extra capability of a message lies in. -/
def Extra (s : KState) (thread : Addr) (index : Nat) (src : Slot) : Prop :=
  ∃ cap, lookupExtraCapSlot thread index s = .ok (cap, src) s

/-- From which slot to which an operation takes a capability, as the message and the state name them. -/
def Source (s : KState) : CapOperation → Slot → Slot → Prop
  | copyOrMint thread uc root length _, src, dest | moveOrMutate thread uc root length _, src, dest =>
    cnodeDestination uc root length s = .ok dest s ∧ cnodeSource thread uc dest length s = .ok src s
  | rotate thread uc root length, x, y => ∃ src pivot dest data,
    rotateOperands thread uc root length s = .ok (src, pivot, dest, data) s ∧
      (x = pivot ∧ y = dest ∨ x = src ∧ y = pivot)
  | saveCaller uc root length, src, dest => cnodeDestination uc root length s = .ok dest s ∧
    ∃ cur, s.threads.current = some cur ∧ src = tcbSlot cur tcbCaller
  | configure thread _ _ target _, src, dest => Extra s thread 0 src ∧ dest = tcbSlot target tcbCTableSlot ∨
    Extra s thread 1 src ∧ dest = tcbSlot target tcbVTableSlot ∨
    Extra s thread 2 src ∧ dest = tcbSlot target tcbBufferSlot
  | setSpace thread _ _ target _, src, dest => Extra s thread 0 src ∧ dest = tcbSlot target tcbCTableSlot ∨
    Extra s thread 1 src ∧ dest = tcbSlot target tcbVTableSlot
  | setIpcBuffer thread _ _ target _, src, dest => Extra s thread 0 src ∧ dest = tcbSlot target tcbBufferSlot
  | transfer receiver _ _ _ extraCapSlots, src, dest => some src ∈ extraCapSlots ∧
    s.getReceiveSlot receiver = some dest
  | setNotification irq _ _ ntfnSlot, src, dest => src = ntfnSlot ∧ dest = s.env.notificationSlot irq

/-- What an operation may take from one slot to another: what was there when it began. -/
def Takes (op : CapOperation) (s : KState) (src dest : Slot) (old : Cap) : Prop :=
  op.Source s src dest ∧ s.cap src = old

end CapOperation

section Operations

open CapOperation

variable (s : KState)

theorem cnodeOpCopyOrMint_lessens (thread uc : Addr) (root : Cap) (length : Word) (isMint : Bool) :
    Follows (Lessens ((copyOrMint thread uc root length isMint).Takes s))
      (cnodeOpCopyOrMint thread uc root length isMint) s := by
  have done := refl_of (Lessens ((copyOrMint thread uc root length isMint).Takes s)) s
  unfold Follows cnodeOpCopyOrMint
  simp only [wp_bind, wp_get, wp_ite, wp_raise]
  refine (cnodeDestination_readOnly uc root length).wp_of (fun dest into => ?_) fun _ _ => done
  refine (cnodeSource_readOnly thread uc dest length).wp_of (fun src named => ?_) fun _ _ => done
  refine ⟨fun _ => done, fun _ => ⟨fun _ => done, fun _ => ?_⟩⟩
  refine (readMr_readOnly uc 4).wp_of (fun rights _ => ?_) fun _ _ => done
  refine (readMr_readOnly uc 5).wp_of (fun data _ => ?_) fun _ _ => done
  have masked := Cap.maskRights_attenuates (.ofWord rights) (s.cap src)
  have badged := (Cap.updateData_attenuates false data _).trans masked
  have asked : (if isMint then ((s.cap src).maskRights (.ofWord rights)).updateData false data
      else (s.cap src).maskRights (.ofWord rights)).Attenuates (s.cap src) := by
    split
    · exact badged
    · exact masked
  refine wp_mono (deriveCapForCopy_attenuates src _ s) (fun new s' derived => ?_)
    fun _ s' same => same ▸ done
  obtain ⟨rfl, weaker, shared⟩ := derived
  refine ⟨fun _ => done, fun live => ?_⟩
  have live' : new ≠ .null := by simpa using live
  have weaker' := weaker.trans asked
  refine cteInsert_lessens ⟨⟨into, named⟩, rfl⟩ ?_ weaker' live'
  rw [← weaker'.sole_eq live', weaker.sole_eq live']
  exact shared live'

theorem cnodeOpMoveOrMutate_lessens (thread uc : Addr) (root : Cap) (length : Word) (isMutate : Bool) :
    Follows (Lessens ((moveOrMutate thread uc root length isMutate).Takes s))
      (cnodeOpMoveOrMutate thread uc root length isMutate) s := by
  have done := refl_of (Lessens ((moveOrMutate thread uc root length isMutate).Takes s)) s
  unfold Follows cnodeOpMoveOrMutate
  simp only [wp_bind, wp_get, wp_ite, wp_raise]
  refine (cnodeDestination_readOnly uc root length).wp_of (fun dest into => ?_) fun _ _ => done
  refine (cnodeSource_readOnly thread uc dest length).wp_of (fun src named => ?_) fun _ _ => done
  refine ⟨fun _ => done, fun _ => ⟨fun _ => done, fun _ => ?_⟩⟩
  refine (readMr_readOnly uc 4).wp_of (fun data _ => ?_) fun _ _ => done
  refine ⟨fun _ => done, fun live => cnodeMoveSlot_lessens ⟨⟨into, named⟩, rfl⟩ ?_ (by simpa using live)⟩
  split
  · exact Cap.updateData_attenuates true data _
  · exact .same _

theorem cnodeOpRotate_lessens (thread uc : Addr) (root : Cap) (length : Word) :
    Follows (Lessens ((rotate thread uc root length).Takes s)) (cnodeOpRotate thread uc root length) s := by
  have done := refl_of (Lessens ((rotate thread uc root length).Takes s)) s
  unfold Follows cnodeOpRotate
  simp only [wp_bind, wp_get, wp_ite, wp_raise]
  refine (rotateOperands_readOnly thread uc root length).wp_of (fun operands read => ?_) fun _ _ => done
  obtain ⟨src, pivot, dest, srcData, pivotData⟩ := operands
  have outer : (rotate thread uc root length).Takes s pivot dest (s.cap pivot) :=
    ⟨⟨src, pivot, dest, _, read, .inl ⟨rfl, rfl⟩⟩, rfl⟩
  have inner : (rotate thread uc root length).Takes s src pivot (s.cap src) :=
    ⟨⟨src, pivot, dest, _, read, .inr ⟨rfl, rfl⟩⟩, rfl⟩
  refine ⟨fun _ => done, fun apart => ⟨fun _ => done, fun _ => ⟨fun _ => done, fun _ =>
    ⟨fun _ => done, fun _ => ⟨fun _ => done, fun live => ?_⟩⟩⟩⟩⟩
  obtain ⟨liveSrc, livePivot⟩ : (s.cap src).updateData true srcData ≠ .null ∧
      (s.cap pivot).updateData true pivotData ≠ .null := by simpa using live
  refine ⟨fun two => ?_, fun other => ?_⟩
  · exact cnodeSwapSlots_lessens ⟨inner, two ▸ outer⟩ ⟨livePivot, liveSrc⟩
      (Cap.updateData_attenuates true _ _) (Cap.updateData_attenuates true _ _)
  · -- The first move empties the pivot and leaves the source alone.
    refine (cnodeMoveSlot_lessens outer (Cap.updateData_attenuates true _ _) livePivot).wp_of done
      (fun _ s' moved sofar => ?_) fun _ _ => id
    have same : s'.cap src = s.cap src := by
      have elsewhere := cnodeMoveSlot_elsewhere pivot dest ((s.cap pivot).updateData true pivotData) s
      rw [wp, moved] at elsewhere
      exact elsewhere src (fun same => apart (.inl same.symm)) other
    exact (cnodeMoveSlot_lessens (same ▸ inner) (same ▸ Cap.updateData_attenuates true _ _) liveSrc).after sofar

theorem cnodeOpSaveCaller_lessens (uc : Addr) (root : Cap) (length : Word) :
    Follows (Lessens ((saveCaller uc root length).Takes s)) (cnodeOpSaveCaller uc root length) s := by
  have done := refl_of (Lessens ((saveCaller uc root length).Takes s)) s
  unfold Follows cnodeOpSaveCaller
  simp only [wp_bind, wp_get, wp_ite, wp_raise]
  refine (cnodeDestination_readOnly uc root length).wp_of (fun dest into => ?_) fun _ _ => done
  refine ⟨fun _ => done, fun _ => ?_⟩
  split
  · exact done
  rename_i cur current
  split
  · exact done
  · rename_i tcb canGrant isMaster held
    simp only [wp_ite, wp_pure]
    exact ⟨fun _ => cnodeMoveSlot_lessens ⟨⟨into, cur, current, rfl⟩, rfl⟩ (held ▸ .same _) (by simp), fun _ => done⟩
  · exact done

/-- What a slot is to be given was derived from what another one held before. -/
def Cap.DerivedFrom (may : Slot → Slot → Cap → Prop) (src dest : Slot) (new : Cap) : Prop :=
  new ≠ .null → ∃ old, may src dest old ∧ old.sole = false ∧ new.Attenuates old

theorem insertTcbCapIfLive_lessens {newCap : Cap} {src : Option Slot} {dest : Slot}
    (derived : ∀ x ∈ src, newCap.DerivedFrom may x dest) (slot : Slot) (target : Addr) (s : KState) :
    Follows (Lessens may) (insertTcbCapIfLive slot target dest newCap src) s := by
  unfold Follows insertTcbCapIfLive
  split
  · exact refl_of (Lessens may) s
  · simp only [wp_bind, wp_get, wp_ite, wp_pure]
    refine ⟨fun live => ?_, fun _ => refl_of (Lessens may) s⟩
    obtain ⟨old, source, shared, weaker⟩ := derived _ rfl live.1
    exact cteInsert_lessens source shared weaker live.1

theorem installTcbCap_lessens {newCap : Cap} {target : Addr} {index : Nat} {src : Slot}
    (derived : newCap.DerivedFrom may src (tcbSlot target index)) (slot : Slot) (s : KState) :
    Follows (Lessens may) (installTcbCap slot target index newCap src) s := by
  unfold Follows installTcbCap
  simp only [wp_bind]
  refine (deleteSlot_lessens _ s).wp_of (refl_of (Lessens may) s) (fun _ s' _ sofar => ?_)
    fun _ _ => id
  refine (insertTcbCapIfLive_lessens ?_ _ _ s').after sofar
  rintro x ⟨⟩
  exact derived

theorem installTcbBufferCap_lessens {bufferCap : Cap} {target : Addr} {src : Option Slot}
    (derived : ∀ x ∈ src, bufferCap.DerivedFrom may x (tcbSlot target tcbBufferSlot)) (slot : Slot)
    (bufferUva : Word) (s : KState) :
    Follows (Lessens may) (installTcbBufferCap slot target bufferUva bufferCap src) s := by
  unfold Follows installTcbBufferCap
  simp only [wp_bind, modifyTcb, modifyThreads, wp_modify]
  refine (deleteSlot_lessens _ s).wp_of (refl_of (Lessens may) s) (fun _ s' _ sofar => ?_)
    fun _ _ => id
  exact (insertTcbCapIfLive_lessens derived _ _ _).after
    (trans_of (Lessens may) sofar (.of_caps rfl))

theorem lookupExtraCapSlot_held (thread : Addr) (index : Nat) :
    wp (lookupExtraCapSlot thread index)
      (fun found s' => s' = s ∧ s.cap found.2 = found.1 ∧ Extra s thread index found.2) (fun _ s' => s' = s) s := by
  refine (lookupExtraCapSlot_readOnly thread index).wp_of (fun found looked => ?_) fun _ _ => rfl
  have here : wp (lookupExtraCapSlot thread index) (fun found s' => s.cap found.2 = found.1) (fun _ _ => True) s := by
    simp only [lookupExtraCapSlot, lookupCapOr, wp_bind, wp_readExtraCap, wp_get]
    split
    · rename_i found looked
      simp only [KState.lookupCap, Option.map_eq_some_iff] at looked
      obtain ⟨slot, -, rfl⟩ := looked
      rfl
    · trivial
  rw [wp, looked] at here
  exact ⟨rfl, here, found.1, looked⟩

theorem lookupIpcBufferCapSlot_derived (may : Slot → Slot → Cap → Prop) (thread : Addr) (index : Nat) (bufferUva : Word)
    (dest : Slot) (source : ∀ src, Extra s thread index src → may src dest (s.cap src)) :
    wp (lookupIpcBufferCapSlot thread index bufferUva)
      (fun found s' => s' = s ∧ ∀ x ∈ found.2, found.1.DerivedFrom may x dest) (fun _ s' => s' = s) s := by
  simp only [lookupIpcBufferCapSlot, wp_bind]
  refine wp_mono (lookupExtraCapSlot_held s thread index) (fun found s' after => ?_)
    fun _ _ => id
  obtain ⟨rfl, here, extra⟩ := after
  simp only [wp_ite, wp_pure, wp_bind, true_and]
  refine ⟨fun _ => by simp, fun _ => ?_⟩
  refine wp_mono (deriveCapForCopy_attenuates found.2 found.1 s') (fun new s' derived => ?_)
    fun _ _ => id
  obtain ⟨rfl, weaker, shared⟩ := derived
  split
  · rename_i base size rights addr asid
    simp only [wp_bind, wp_ite, wp_raise, wp_pure, implies_true, true_and]
    rintro - _ ⟨⟩ live
    exact ⟨found.1, here ▸ source _ extra, shared live, weaker⟩
  · rfl

/-- A capability looked up, perhaps with a new guard, and then derived. -/
theorem derive_updated {cap : Cap} {slot dest : Slot} (source : may slot dest cap) (data : Word) :
    wp (deriveCapForCopy slot (if data ≠ 0 then cap.updateData false data else cap))
      (fun new s' => s' = s ∧ new.DerivedFrom may slot dest) (fun _ s' => s' = s) s := by
  have updated : (if data ≠ 0 then cap.updateData false data else cap).Attenuates cap := by
    split
    · exact Cap.updateData_attenuates false data cap
    · exact .same cap
  refine wp_mono (deriveCapForCopy_attenuates slot _ s) (fun new s' derived => ?_) fun _ _ => id
  obtain ⟨rfl, weaker, shared⟩ := derived
  have weaker' := weaker.trans updated
  refine ⟨rfl, fun live => ⟨cap, source, ?_, weaker'⟩⟩
  rw [← weaker'.sole_eq live, weaker.sole_eq live]
  exact shared live

theorem decodeSpaces_derived (may : Slot → Slot → Cap → Prop) (target : Addr) (cspaceData vspaceData : Word)
    {cspace vspace : Cap × Slot} {cdest vdest : Slot} (csource : may cspace.2 cdest cspace.1) (vsource : may vspace.2 vdest vspace.1) :
    wp (decodeSpaces target cspaceData vspaceData cspace vspace)
      (fun found s' => s' = s ∧ found.1.DerivedFrom may cspace.2 cdest ∧ found.2.DerivedFrom may vspace.2 vdest)
      (fun _ s' => s' = s) s := by
  simp only [decodeSpaces, wp_bind, wp_get, wp_ite, wp_raise, implies_true, true_and]
  intro _ _
  refine wp_mono (derive_updated s csource cspaceData) (fun cspaceCap s' derived => ?_)
    fun _ _ => id
  obtain ⟨rfl, croot⟩ := derived
  split
  · simp only [wp_bind]
    refine wp_mono (derive_updated s' vsource vspaceData) (fun vspaceCap s' derived => ?_)
      fun _ _ => id
    obtain ⟨rfl, vroot⟩ := derived
    split
    · exact ⟨rfl, croot, vroot⟩
    · rfl
  · rfl

theorem tcbConfigure_lessens (thread uc : Addr) (slot : Slot) (target : Addr) (length : Word) :
    Follows (Lessens ((configure thread uc slot target length).Takes s))
      (tcbConfigure thread uc slot target length) s := by
  have done := refl_of (Lessens ((configure thread uc slot target length).Takes s)) s
  simp only [Follows, tcbConfigure, wp_bind, wp_ite, wp_raise, wp_getMr]
  refine ⟨fun _ => done, fun _ => ?_⟩
  refine (requireExtraCaps_readOnly uc 3).wp_of (fun _ _ => ?_) fun _ _ => done
  refine wp_mono (lookupExtraCapSlot_held s thread 0) (fun cspace s' after => ?_)
    fun _ _ same => same ▸ done
  obtain ⟨rfl, chere, croot⟩ := after
  refine wp_mono (lookupExtraCapSlot_held s' thread 1) (fun vspace s' after => ?_)
    fun _ _ same => same ▸ done
  obtain ⟨rfl, vhere, vroot⟩ := after
  refine wp_mono (lookupIpcBufferCapSlot_derived s' ((configure thread uc slot target length).Takes s') thread 2 _ _
    fun src extra => ⟨.inr (.inr ⟨extra, rfl⟩), rfl⟩) (fun buffer s' after => ?_) fun _ _ same => same ▸ done
  obtain ⟨rfl, buffered⟩ := after
  refine wp_mono (decodeSpaces_derived s' ((configure thread uc slot target length).Takes s') target _ _
    ⟨.inl ⟨croot, rfl⟩, chere⟩ ⟨.inr (.inl ⟨vroot, rfl⟩), vhere⟩) (fun roots s' after => ?_)
    fun _ _ same => same ▸ done
  obtain ⟨rfl, croot, vroot⟩ := after
  refine (installTcbCap_lessens croot _ s').wp_of done (fun _ s₁ _ sofar => ?_) fun _ _ => id
  refine (installTcbCap_lessens vroot _ s₁).wp_of sofar (fun _ s₂ _ sofar => ?_) fun _ _ => id
  simp only [modifyTcb, modifyThreads, wp_modify]
  exact (installTcbBufferCap_lessens buffered _ _ _).after
    (trans_of (Lessens _) sofar (.of_caps rfl))

theorem tcbSetSpace_lessens (thread uc : Addr) (slot : Slot) (target : Addr) (length : Word) :
    Follows (Lessens ((setSpace thread uc slot target length).Takes s)) (tcbSetSpace thread uc slot target length) s := by
  have done := refl_of (Lessens ((setSpace thread uc slot target length).Takes s)) s
  simp only [Follows, tcbSetSpace, wp_bind, wp_ite, wp_raise, wp_getMr]
  refine ⟨fun _ => done, fun _ => ?_⟩
  refine (requireExtraCaps_readOnly uc 2).wp_of (fun _ _ => ?_) fun _ _ => done
  refine wp_mono (lookupExtraCapSlot_held s thread 0) (fun cspace s' after => ?_)
    fun _ _ same => same ▸ done
  obtain ⟨rfl, chere, croot⟩ := after
  refine wp_mono (lookupExtraCapSlot_held s' thread 1) (fun vspace s' after => ?_)
    fun _ _ same => same ▸ done
  obtain ⟨rfl, vhere, vroot⟩ := after
  refine wp_mono (decodeSpaces_derived s' ((setSpace thread uc slot target length).Takes s') target _ _
    ⟨.inl ⟨croot, rfl⟩, chere⟩ ⟨.inr ⟨vroot, rfl⟩, vhere⟩) (fun roots s' after => ?_) fun _ _ same => same ▸ done
  obtain ⟨rfl, croot, vroot⟩ := after
  simp only [wp_modifyTcb]
  refine (installTcbCap_lessens croot _ _).wp_of (trans_of (Lessens _) done (.of_caps rfl))
    (fun _ s₁ _ sofar => ?_) fun _ _ => id
  exact (installTcbCap_lessens vroot _ s₁).after sofar

theorem tcbSetIpcBuffer_lessens (thread uc : Addr) (slot : Slot) (target : Addr) (length : Word) :
    Follows (Lessens ((setIpcBuffer thread uc slot target length).Takes s))
      (tcbSetIpcBuffer thread uc slot target length) s := by
  have done := refl_of (Lessens ((setIpcBuffer thread uc slot target length).Takes s)) s
  simp only [Follows, tcbSetIpcBuffer, wp_bind, wp_ite, wp_raise, wp_getMr]
  refine ⟨fun _ => done, fun _ => ?_⟩
  refine (requireExtraCaps_readOnly uc 1).wp_of (fun _ _ => ?_) fun _ _ => done
  refine wp_mono (lookupIpcBufferCapSlot_derived s ((setIpcBuffer thread uc slot target length).Takes s) thread 0 _ _
    fun src extra => ⟨⟨extra, rfl⟩, rfl⟩) (fun buffer s' after => ?_) fun _ _ same => same ▸ done
  obtain ⟨rfl, buffered⟩ := after
  exact installTcbBufferCap_lessens buffered _ _ s'

theorem setNotification_lessens (irq : Nat) (ntfn : Addr) (badge : Word) (ntfnSlot : Slot) :
    Follows (Lessens ((CapOperation.setNotification irq ntfn badge ntfnSlot).Takes s))
      (Rel4.setNotification irq ntfn badge ntfnSlot) s := by
  have done := refl_of (Lessens ((CapOperation.setNotification irq ntfn badge ntfnSlot).Takes s)) s
  simp only [Follows, Rel4.setNotification, wp_bind, wp_get, wp_ite, wp_pure]
  refine ⟨fun _ => done, fun _ => ⟨fun _ => done, fun _ => ?_⟩⟩
  refine (clearNotification_prunes irq s).wp_of (refl_of Prunes s) (fun _ s' _ prunes => ?_)
    fun _ _ prunes => prunes.deletes.lessens
  refine ⟨fun _ => prunes.deletes.lessens, fun live => ?_⟩
  -- A notification capability that is still there is the one that was there before.
  cases current : s'.cap ntfnSlot with
  | notification ptr badge' send receive =>
    have same : s.cap ntfnSlot = s'.cap ntfnSlot := by
      rcases prunes.caps ntfnSlot with same | ⟨gone, -⟩
      · exact same.symm
      · simp [gone] at current
    have source : (CapOperation.setNotification irq ntfn badge ntfnSlot).Takes s ntfnSlot (s.env.notificationSlot irq)
        (.notification ptr badge' send receive) := ⟨⟨rfl, rfl⟩, same.trans current⟩
    exact (cteInsert_lessens source rfl (.same _) (by simp)).after prunes.deletes.lessens
  | _ => simp [current, sameNotificationSendCap] at live

theorem setBufferWord_caps (buffer : Addr) (index : Nat) (value : Word) (s : KState) :
    wp (setBufferWord buffer index value) (fun _ s' => s'.caps = s.caps) (fun _ _ => False) s := by
  simp only [setBufferWord, wp_modify]
  split <;> rfl

/-- Until the one insertion the slots are as they were, and nothing is derived after it. -/
theorem transferCapsFrom_lessens (buffer : Addr) (endpoint : Option Addr) (i : Nat)
    (extraCapSlots : List (Option Slot)) (dest : Option Slot) (sofar : CapTransfer)
    (source : ∀ src d, some src ∈ extraCapSlots → dest = some d → may src d (s.cap src))
    (s' : KState) (same : dest.isSome = true → s'.caps = s.caps) :
    Follows (Lessens may) (transferCapsFrom buffer endpoint i extraCapSlots dest sofar) s' := by
  induction extraCapSlots generalizing i dest sofar s' with
  | nil => exact refl_of (Lessens may) s'
  | cons named rest ih =>
    have done := refl_of (Lessens may) s'
    cases named with
    | none => exact done
    | some src =>
      simp only [Follows, transferCapsFrom, wp_bind, wp_get, wp_ite, wp_pure]
      refine ⟨fun _ => done, fun _ => ?_⟩
      split
      · rw [wp_bind]
        refine wp_mono (setBufferWord_caps _ _ _ s') (fun _ s'' unchanged => ?_) fun _ _ no => no.elim
        exact (ih _ _ _ (fun src d mem => source src d (List.mem_cons_of_mem _ mem)) s''
          fun free => unchanged.trans (same free)).after (.of_caps unchanged)
      · exact done
      · rename_i dest _
        rw [wp_bind, wp_attempt]
        refine wp_mono (deriveCapForCopy_attenuates src _ s') (fun new s'' derived => ?_)
          fun stop s'' unchanged => ?_
        · obtain ⟨rfl, weaker, shared⟩ := derived
          simp only [wp_ite, wp_pure, wp_bind, wp_get]
          refine ⟨fun _ => done, fun live => ⟨fun _ => done, fun _ => ?_⟩⟩
          have live' : new ≠ .null := by simpa using live
          have here : s.cap src = s''.cap src := by rw [KState.cap, ← same rfl, KState.cap]
          refine (cteInsert_lessens (here ▸ source src dest (List.mem_cons_self ..) rfl) (shared live') weaker
            live').wp_of done (fun _ s₁ _ later => ?_) fun _ _ => id
          exact (ih _ _ _ (fun _ _ _ is => by cases is) s₁ fun free => by cases free).after later
        · subst unchanged
          cases stop <;> exact done

theorem transferCaps_lessens (receiver : Addr) (info : MessageInfo) (endpoint : Option Addr)
    (canGrant : Bool) (extraCapSlots : List (Option Slot)) :
    Follows (Lessens ((transfer receiver info endpoint canGrant extraCapSlots).Takes s))
      (transferCaps receiver info endpoint canGrant extraCapSlots) s := by
  simp only [Follows, transferCaps, wp_bind, wp_get]
  split
  · refine transferCapsFrom_lessens s _ _ _ _ _ _ (fun src d mem is => ⟨⟨?_, is⟩, rfl⟩) s fun _ => rfl
    exact List.mem_of_mem_take mem
  · exact refl_of (Lessens _) s

end Operations

/--
In every state, such an operation only ever derives, moves, exchanges and deletes: each capability it puts into a slot
is not null, and is a weaker version of the one in the slot that the operation takes it from. None that exists once is
copied.
-/
theorem authority_never_grows (operation : CapOperation) (s : KState) :
    wp operation.run (fun _ s' => Lessens (operation.Takes s) s s') (fun _ s' => Lessens (operation.Takes s) s s') s := by
  cases operation with
  | copyOrMint => exact cnodeOpCopyOrMint_lessens s ..
  | moveOrMutate => exact cnodeOpMoveOrMutate_lessens s ..
  | rotate => exact cnodeOpRotate_lessens s ..
  | saveCaller => exact cnodeOpSaveCaller_lessens s ..
  | configure => exact tcbConfigure_lessens s ..
  | setSpace => exact tcbSetSpace_lessens s ..
  | setIpcBuffer => exact tcbSetIpcBuffer_lessens s ..
  | transfer =>
    simp only [CapOperation.run, wp_bind, wp_pure]
    exact transferCaps_lessens s ..
  | setNotification =>
    simp only [CapOperation.run, wp_bind, wp_pure]
    exact setNotification_lessens s ..

end Rel4
