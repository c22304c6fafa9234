import Mathlib.Data.Set.Lattice
import Rel4.Proof.Rules
import Rel4.Proof.Slots

/-! Exchanging, moving and rotating capabilities is renaming the slots of the derivation lists. -/

namespace Rel4

open Lib CapStore
open Function (update)

namespace CapStore

variable {cs cs' cs'' : CapStore} {a b d x y : Slot} {new capA capB : Cap}
  {name name' : Equiv.Perm Slot} {held held' : Slot → Cap} {vacant vacant' : Set Slot}

/--
The contents of the slots went along with a renaming of the slots.

`held` is what each slot gives up, under its old name. A vacant slot has no capability, so that the
flags it still shows are nobody's.
-/
structure Relocated (cs cs' : CapStore) (name : Equiv.Perm Slot) (held : Slot → Cap)
    (vacant : Set Slot) : Prop where
  cap : ∀ x, cs'.cap (name x) = held x
  next : ∀ x, cs'.next (name x) = (cs.next x).map name
  prev : ∀ x, cs'.prev (name x) = (cs.prev x).map name
  marks : ∀ x ∉ vacant, cs'.marks (name x) = cs.marks x

namespace Relocated

/-- The order of the lists is the old one under the new names. -/
theorem before (moved : Relocated cs cs' name held vacant) :
    Before cs'.next (name x) (name y) ↔ Before cs.next x y :=
  before_rename name moved.next

/-- Lists stay lists under a renaming. -/
theorem linked (moved : Relocated cs cs' name held vacant) (linked : Linked cs.next cs.prev) :
    Linked cs'.next cs'.prev :=
  linked.rename name moved.next moved.prev

/-- One renaming after another. -/
theorem trans (first : Relocated cs cs' name held vacant)
    (second : Relocated cs' cs'' name' held' vacant') :
    Relocated cs cs'' (name.trans name') (fun x => held' (name x))
      (vacant ∪ Set.preimage name vacant') where
  cap x := second.cap (name x)
  next x := by
    rw [Equiv.trans_apply, second.next, first.next, Option.map_map]
    rfl
  prev x := by
    rw [Equiv.trans_apply, second.prev, first.prev, Option.map_map]
    rfl
  marks x occupied := by
    simp only [Set.mem_union, Set.mem_preimage, not_or] at occupied
    rw [Equiv.trans_apply, second.marks _ occupied.2, first.marks x occupied.1]

/-- Only what the slots hold matters, and a slot more may be called vacant. -/
theorem congr (moved : Relocated cs cs' name held vacant) (same : ∀ x, held x = held' x)
    (wider : vacant ⊆ vacant') : Relocated cs cs' name held' vacant' :=
  ⟨fun x => (moved.cap x).trans (same x), moved.next, moved.prev,
    fun x occupied => moved.marks x fun inside => occupied (wider inside)⟩

end Relocated

theorem relocated_of_mdb (cap : ∀ x, cs'.cap (name x) = held x)
    (mdb : ∀ x, cs'.mdb (name x) = renameLinks name (cs.mdb x)) :
    Relocated cs cs' name held ∅ where
  cap := cap
  next x := congrArg MdbNode.next (mdb x)
  prev x := congrArg MdbNode.prev (mdb x)
  marks x _ := by rw [CapStore.marks, mdb]; rfl

/-- Two slots exchange their names, whether they are neighbours, in one list or apart. -/
theorem swapSlots_relocated (linked : Linked cs.next cs.prev) (distinct : a ≠ b) :
    Relocated cs (cs.swapSlots capA a capB b) (Equiv.swap a b)
      (update (update cs.cap a capA) b capB) ∅ := by
  refine relocated_of_mdb (fun x => ?_) fun x => swapSlots_mdb linked distinct
  -- The two slots hold the new capabilities, every other slot what it held.
  rw [swapSlots_cap distinct]
  by_cases atA : x = a
  · subst atA
    simp [distinct, distinct.symm]
  by_cases atB : x = b
  · subst atB
    simp
  · rw [Equiv.swap_apply_of_ne_of_ne atA atB]
    simp [atA, atB]

/-- A capability takes its place in the list with it to a slot that is in none. -/
theorem moveSlot_relocated (linked : Linked cs.next cs.prev) (distinct : a ≠ b)
    (noNext : (cs.mdb b).next = none) (noPrev : (cs.mdb b).prev = none) :
    Relocated cs (cs.moveSlot a b new) (Equiv.swap a b)
      (update (update cs.cap a new) b .null) {b} := by
  -- The free slot is in no list, so that its name can be given away.
  have mdb : ∀ x, (cs.moveSlot a b new).mdb (Equiv.swap a b x) =
      if x = b then {} else renameLinks (Equiv.swap a b) (cs.mdb x) := fun x =>
    moveSlot_mdb_of_unlinked linked distinct noNext noPrev
  refine ⟨fun x => ?_, fun x => ?_, fun x => ?_, fun x occupied => ?_⟩
  · rw [moveSlot_cap distinct]
    by_cases atA : x = a
    · subst atA
      simp [distinct]
    by_cases atB : x = b
    · subst atB
      simp [distinct]
    · rw [Equiv.swap_apply_of_ne_of_ne atA atB]
      simp [atA, atB]
  · refine (congrArg MdbNode.next (mdb x)).trans ?_
    split
    · rename_i atB
      rw [atB, show cs.next b = none from noNext]
      rfl
    · rfl
  · refine (congrArg MdbNode.prev (mdb x)).trans ?_
    split
    · rename_i atB
      rw [atB, show cs.prev b = none from noPrev]
      rfl
    · rfl
  · rw [CapStore.marks, mdb, if_neg (by simpa using occupied)]
    rfl

end CapStore

section Programs

variable {s : KState}

/-- The exchange never fails on two different slots, and changes nothing but the slots. -/
theorem wp_cnodeSwapSlots (linked : Linked s.caps.next s.caps.prev) (capA capB : Cap) {a b : Slot}
    (distinct : a ≠ b) {fail : Abort → KState → Prop} :
    wp (cnodeSwapSlots capA a capB b) (fun _ s' => ∃ caps, s' = { s with caps } ∧
      Relocated s.caps caps (Equiv.swap a b)
        (update (update s.cap a capA) b capB) ∅) fail s := by
  simp only [cnodeSwapSlots, wp_bind, wp_ite, wp_modify, wp_crash]
  exact ⟨fun same => absurd same distinct, fun _ => ⟨_, rfl, swapSlots_relocated linked distinct⟩⟩

/-- The four checks of a move: two slots, something to move, and a free slot that is in no list. -/
def KState.MayMove (s : KState) (src dst : Slot) : Prop :=
  src ≠ dst ∧ s.cap src ≠ .null ∧ s.cap dst = .null ∧ (s.mdb dst).next = none ∧ (s.mdb dst).prev = none

/-- A move that passes its checks goes through, and takes what it moves along the lists. -/
theorem wp_cnodeMoveSlot (linked : Linked s.caps.next s.caps.prev) (src dst : Slot) (newCap : Cap) :
    wp (cnodeMoveSlot src dst newCap) (fun _ s' => s.MayMove src dst ∧ ∃ caps, s' = { s with caps } ∧
      Relocated s.caps caps (Equiv.swap src dst) (update (update s.cap src newCap) dst .null) {dst})
      (fun _ _ => ¬ s.MayMove src dst) s := by
  unfold cnodeMoveSlot KState.MayMove
  simp only [wp_bind, wp_get, wp_ite, wp_set, wp_crash]
  refine ⟨fun same all => all.1 same, fun distinct => ⟨fun none all => all.2.1 (Cap.isNull_iff.mp none), fun some =>
    ⟨fun full all => ?_, fun free => ⟨fun tied all => ?_, fun unlinked => ?_⟩⟩⟩⟩
  · simp [all.2.2.1] at full
  · simp [all.2.2.2.1, all.2.2.2.2] at tied
  · simp only [Bool.or_eq_true, not_or, Option.not_isSome_iff_eq_none] at unlinked
    refine ⟨⟨distinct, by simpa using some, by simpa using free, unlinked⟩, _, rfl, ?_⟩
    exact moveSlot_relocated linked distinct unlinked.1 unlinked.2

theorem returns_cnodeMoveSlot (linked : Linked s.caps.next s.caps.prev) (src dst : Slot) (newCap : Cap) :
    Returns (cnodeMoveSlot src dst newCap) (fun _ s' => s.MayMove src dst ∧ ∃ caps, s' = { s with caps } ∧
      Relocated s.caps caps (Equiv.swap src dst) (update (update s.cap src newCap) dst .null) {dst}) s :=
  wp_mono (wp_cnodeMoveSlot linked src dst newCap) (fun _ _ => id) fun _ _ _ => trivial

/-- Where the slots of a rotation end up: the pivot's content in the destination, the source's in
the pivot. -/
def rotation (src pivot dest : Slot) : Equiv.Perm Slot :=
  if src = dest then Equiv.swap src pivot
  else (Equiv.swap pivot dest).trans (Equiv.swap src pivot)

/-- What a rotation stores: the two capabilities with new data, and nothing in the slot set free. -/
def rotated (s : KState) (src pivot dest : Slot) (newSrc newPivot : Cap) : Slot → Cap :=
  Function.update (Function.update (if src = dest then s.cap else Function.update s.cap dest .null)
    src newSrc) pivot newPivot

/-- The two moves of a rotation through three slots make one renaming. -/
theorem returns_rotateThree (linked : Linked s.caps.next s.caps.prev) {src pivot dest : Slot}
    (three : src ≠ dest) (newSrc newPivot : Cap) :
    Returns (do cnodeMoveSlot pivot dest newPivot; cnodeMoveSlot src pivot newSrc)
      (fun _ s' => ∃ caps, s' = { s with caps } ∧
        Relocated s.caps caps (rotation src pivot dest) (rotated s src pivot dest newSrc newPivot)
          {dest}) s := by
  refine Returns.bind (returns_cnodeMoveSlot linked pivot dest newPivot) ?_
  rintro - s₁ ⟨⟨apart', -⟩, caps₁, rfl, first⟩
  refine (returns_cnodeMoveSlot (s := { s with caps := caps₁ }) (first.linked linked) src pivot
    newSrc).mono ?_
  rintro - s₂ ⟨⟨apart, -⟩, caps₂, rfl, second⟩
  refine ⟨caps₂, rfl, ?_⟩
  -- With three slots the renaming is the two moves one after the other.
  have name : rotation src pivot dest = (Equiv.swap pivot dest).trans (Equiv.swap src pivot) :=
    if_neg three
  rw [name]
  refine (first.trans second).congr (fun x => ?_) ?_
  · -- What the second move finds in a slot is what the first one left there.
    have left : ∀ y, KState.cap { s with caps := caps₁ } (Equiv.swap pivot dest y) = _ := first.cap
    by_cases atPivot : x = pivot
    · subst atPivot
      have found := left x
      rw [Equiv.swap_apply_left] at found ⊢
      simp [rotated, found, apart', apart'.symm, three.symm]
    by_cases atDest : x = dest
    · subst atDest
      simp [rotated, three, three.symm, atPivot]
    rw [Equiv.swap_apply_of_ne_of_ne atPivot atDest]
    have found := left x
    rw [Equiv.swap_apply_of_ne_of_ne atPivot atDest] at found
    by_cases atSrc : x = src
    · subst atSrc
      simp [rotated, atPivot]
    · simp [rotated, found, three, atPivot, atDest, atSrc]
  · -- The slot free for the second move is the first one's destination under its new name.
    rintro x (inside | inside)
    · exact inside
    · rw [Set.mem_preimage, Set.mem_singleton_iff] at inside
      exact (Equiv.swap pivot dest).injective (inside.trans (Equiv.swap_apply_right pivot dest).symm)

/-- A rotation that returns has renamed the two or three slots that its message names. -/
theorem returns_cnodeOpRotate (linked : Linked s.caps.next s.caps.prev) (thread uc : Addr)
    (root : Cap) (length : Word) :
    Returns (cnodeOpRotate thread uc root length) (fun _ s' =>
      ∃ src pivot dest srcData pivotData caps,
        rotateOperands thread uc root length s = .ok (src, pivot, dest, srcData, pivotData) s ∧
        pivot ≠ src ∧ pivot ≠ dest ∧ (src = dest ∨ s.cap dest = .null) ∧ s' = { s with caps } ∧
        Relocated s.caps caps (rotation src pivot dest)
          (rotated s src pivot dest ((s.cap src).updateData true srcData)
            ((s.cap pivot).updateData true pivotData)) {x | x = dest ∧ src ≠ dest}) s := by
  unfold cnodeOpRotate Returns
  simp only [wp_bind, wp_get, wp_ite, wp_raise, implies_true, true_and]
  refine (rotateOperands_readOnly thread uc root length).wp_of (fun operands read => ?_) fun _ _ => trivial
  obtain ⟨src, pivot, dest, srcData, pivotData⟩ := operands
  dsimp only
  -- All that was read leaves the state alone; what is left are the checks on the three slots.
  intro apart free _ _ _
  simp only [not_or] at apart
  refine ⟨fun two => ?_, fun three => ?_⟩
  · subst two
    refine wp_mono (wp_cnodeSwapSlots linked _ _ (Ne.symm apart.1)) ?_ fun _ _ => id
    rintro - s' ⟨caps, rfl, moved⟩
    refine ⟨src, pivot, src, srcData, pivotData, caps, read, apart.1, apart.2, .inl rfl, rfl, ?_⟩
    rw [rotation, if_pos rfl]
    exact moved.congr (fun x => by simp [rotated]) (Set.empty_subset _)
  · have empty : s.cap dest = .null := by
      by_contra full
      exact free ⟨three, full⟩
    -- The two moves are taken as one program again.
    rw [← wp_bind]
    refine Returns.mono (returns_rotateThree linked three _ _) ?_
    rintro - s' ⟨caps, rfl, moved⟩
    refine ⟨src, pivot, dest, srcData, pivotData, caps, read, apart.1, apart.2, .inr empty, rfl, ?_⟩
    exact moved.congr (fun _ => rfl) fun x here => ⟨here, three⟩

/--
The exchange, the move and the rotation of capabilities rename the slots they touch.

The lists keep their order, each capability keeps its flags, and every other slot keeps what it
holds and its neighbours under their new names. A move goes through exactly if it passes its checks.
-/
theorem slots_renamed (linked : Linked s.caps.next s.caps.prev) :
    (∀ cap1 a cap2 b, a ≠ b → wp (cnodeSwapSlots cap1 a cap2 b) (fun _ s' => ∃ caps,
        s' = { s with caps } ∧ Relocated s.caps caps (Equiv.swap a b)
          (Function.update (Function.update s.cap a cap1) b cap2) ∅ ∧
        ∀ x y, Before caps.next (Equiv.swap a b x) (Equiv.swap a b y) ↔ Before s.caps.next x y)
      (fun _ _ => False) s) ∧
    (∀ src dst newCap, wp (cnodeMoveSlot src dst newCap) (fun _ s' => s.MayMove src dst ∧ ∃ caps,
        s' = { s with caps } ∧ Relocated s.caps caps (Equiv.swap src dst)
          (Function.update (Function.update s.cap src newCap) dst .null) {dst} ∧
        ∀ x y, Before caps.next (Equiv.swap src dst x) (Equiv.swap src dst y) ↔
          Before s.caps.next x y) (fun _ _ => ¬ s.MayMove src dst) s) ∧
    ∀ thread uc root length, Returns (cnodeOpRotate thread uc root length) (fun _ s' =>
      ∃ src pivot dest srcData pivotData caps,
        rotateOperands thread uc root length s = .ok (src, pivot, dest, srcData, pivotData) s ∧
        pivot ≠ src ∧ pivot ≠ dest ∧ (src = dest ∨ s.cap dest = .null) ∧ s' = { s with caps } ∧
        Relocated s.caps caps (rotation src pivot dest)
          (rotated s src pivot dest ((s.cap src).updateData true srcData)
            ((s.cap pivot).updateData true pivotData)) {x | x = dest ∧ src ≠ dest} ∧
        ∀ x y, Before caps.next (rotation src pivot dest x) (rotation src pivot dest y) ↔
          Before s.caps.next x y) s := by
  refine ⟨fun cap1 a cap2 b distinct => ?_, fun src dst newCap => ?_, fun thread uc root length => ?_⟩
  · refine wp_mono (wp_cnodeSwapSlots linked cap1 cap2 distinct) ?_ fun _ _ => id
    rintro - s' ⟨caps, rfl, moved⟩
    exact ⟨caps, rfl, moved, fun x y => moved.before⟩
  · refine wp_mono (wp_cnodeMoveSlot linked src dst newCap) ?_ fun _ _ => id
    rintro - s' ⟨may, caps, rfl, moved⟩
    exact ⟨may, caps, rfl, moved, fun x y => moved.before⟩
  · refine (returns_cnodeOpRotate linked thread uc root length).mono ?_
    rintro - s' ⟨src, pivot, dest, srcData, pivotData, caps, read, apart, apart', free, rfl, moved⟩
    exact ⟨src, pivot, dest, srcData, pivotData, caps, read, apart, apart', free, rfl, moved,
      fun x y => moved.before⟩

/-- Two neighbours of one list. -/
def neighbours : KState where
  env := { arch := .riscv64, idleTcb := 0, irqNode := 0, bootPtPool := 0, ioapicPins := 0, fuel := 0 }
  caps := { ctes := fun x =>
    if x = 32 then { cap := .domain, mdb := { next := some 64, revocable := true } }
    else if x = 64 then { cap := .irqControl, mdb := { prev := some 32 } } else {} }

theorem neighbours_linked : Linked neighbours.caps.next neighbours.caps.prev := by
  have link : ∀ a b, neighbours.caps.next a = some b ↔ a = 32 ∧ b = 64 := by
    intro a b
    simp only [CapStore.next, neighbours]
    grind
  have back : ∀ a b, neighbours.caps.prev b = some a ↔ a = 32 ∧ b = 64 := by
    intro a b
    simp only [CapStore.prev, neighbours]
    grind
  refine ⟨fun a b => (link a b).trans (back a b).symm, fun a loop => ?_⟩
  -- The only link leads to a larger slot.
  have climbs : ∀ {a b}, Before neighbours.caps.next a b → a < b := by
    intro a b before
    induction before with
    | single last =>
      obtain ⟨rfl, rfl⟩ := (link _ _).mp last
      decide
    | tail _ last sofar =>
      obtain ⟨rfl, rfl⟩ := (link _ _).mp last
      exact Nat.lt_trans sofar (by decide)
  exact Nat.lt_irrefl a (climbs loop)

theorem neighbours_exchanged :
    ∃ caps, cnodeSwapSlots .domain 32 .irqControl 64 neighbours = .ok () { neighbours with caps } ∧
      caps.next 64 = some 32 ∧ caps.prev 32 = some 64 ∧ (caps.mdb 64).revocable = true := by
  obtain ⟨u, s', ran, caps, rfl, moved, -⟩ := exists_ok_of_wp
    ((slots_renamed neighbours_linked).1 .domain 32 .irqControl 64 (by decide))
  have next := moved.next 32
  have prev := moved.prev 64
  have marks := congrArg MdbNode.revocable (moved.marks 32 (Set.notMem_empty 32))
  rw [Equiv.swap_apply_left] at next marks
  rw [Equiv.swap_apply_right] at prev
  exact ⟨caps, ran, next.trans rfl, prev.trans rfl, marks⟩

end Programs

end Rel4
