import Rel4.Kernel.Cnode
import Rel4.Lib.Chain

/-! What each operation on capability slots does to the capabilities and to both link directions. -/

namespace Rel4

namespace CapStore

variable {cs : CapStore} {src dest slot x y : Slot} {new : Cap}

/-- The capability of each slot. -/
def cap (cs : CapStore) (slot : Slot) : Cap := (cs.ctes slot).cap

/-- The derivation entry of each slot. -/
def mdb (cs : CapStore) (slot : Slot) : MdbNode := (cs.ctes slot).mdb

/-- The successor of each slot in the derivation list. -/
def next (cs : CapStore) (slot : Slot) : Option Slot := (cs.ctes slot).mdb.next

/-- The predecessor of each slot in the derivation list. -/
def prev (cs : CapStore) (slot : Slot) : Option Slot := (cs.ctes slot).mdb.prev

section Primitive

variable (change : Cte → Cte) (node : Option Slot) (link : Option Slot)

theorem modify_ctes :
    (cs.modify slot change).ctes x = if x = slot then change (cs.ctes slot) else cs.ctes x := by
  simp only [modify, Function.update_apply]

@[simp] theorem setCap_cap (c : Cap) :
    (cs.setCap slot c).cap x = if x = slot then c else cs.cap x := by
  simp only [cap, setCap, modify_ctes]
  split <;> rfl

@[simp] theorem setCap_mdb (c : Cap) : (cs.setCap slot c).mdb x = cs.mdb x := by
  simp only [mdb, setCap, modify_ctes]
  split <;> simp_all

@[simp] theorem setMdb_cap (m : MdbNode) : (cs.setMdb slot m).cap x = cs.cap x := by
  simp only [cap, setMdb, modify_ctes]
  split <;> simp_all

@[simp] theorem setMdb_mdb (m : MdbNode) :
    (cs.setMdb slot m).mdb x = if x = slot then m else cs.mdb x := by
  simp only [mdb, setMdb, modify_ctes]
  split <;> rfl

@[simp] theorem setMdbPrev_cap : (cs.setMdbPrev node link).cap x = cs.cap x := by
  unfold setMdbPrev
  split
  · simp only [cap, modify_ctes]
    split <;> simp_all
  · rfl

@[simp] theorem setMdbPrev_mdb :
    (cs.setMdbPrev node link).mdb x =
      if some x = node then { cs.mdb x with prev := link } else cs.mdb x := by
  unfold setMdbPrev
  split
  · simp only [mdb, modify_ctes, Option.some.injEq]
    split <;> simp_all
  · simp

@[simp] theorem setMdbNext_cap : (cs.setMdbNext node link).cap x = cs.cap x := by
  unfold setMdbNext
  split
  · simp only [cap, modify_ctes]
    split <;> simp_all
  · rfl

@[simp] theorem setMdbNext_mdb :
    (cs.setMdbNext node link).mdb x =
      if some x = node then { cs.mdb x with next := link } else cs.mdb x := by
  unfold setMdbNext
  split
  · simp only [mdb, modify_ctes, Option.some.injEq]
    split <;> simp_all
  · simp

@[simp] theorem inheritFirstBadged_cap : (cs.inheritFirstBadged node).cap x = cs.cap x := by
  unfold inheritFirstBadged
  split
  · simp only [cap, modify_ctes]
    split <;> simp_all
  · rfl

@[simp] theorem inheritFirstBadged_mdb :
    (cs.inheritFirstBadged node).mdb x =
      if some x = node then { cs.mdb x with firstBadged := true } else cs.mdb x := by
  unfold inheritFirstBadged
  split
  · simp only [mdb, modify_ctes, Option.some.injEq]
    split <;> simp_all
  · simp

@[simp] theorem modify_const_cap (cte : Cte) :
    (cs.modify slot fun _ => cte).cap x = if x = slot then cte.cap else cs.cap x := by
  simp only [cap, modify_ctes]
  split <;> rfl

@[simp] theorem modify_const_mdb (cte : Cte) :
    (cs.modify slot fun _ => cte).mdb x = if x = slot then cte.mdb else cs.mdb x := by
  simp only [mdb, modify_ctes]
  split <;> rfl

@[simp] theorem births_mdb (n : Nat) : ({ cs with births := n } : CapStore).mdb x = cs.mdb x := rfl

end Primitive

theorem ctes_mdb : (cs.ctes x).mdb = cs.mdb x := rfl

theorem next_eq : cs.next x = (cs.mdb x).next := rfl

theorem prev_eq : cs.prev x = (cs.mdb x).prev := rfl

@[simp] theorem setUntypedCapAsFull_mdb (srcCap new : Cap) :
    (cs.setUntypedCapAsFull slot srcCap new).mdb x = cs.mdb x := by
  unfold setUntypedCapAsFull
  split
  · split <;> simp
  · rfl

/-- A source that is copied may be marked as full; no other capability changes. -/
def fullIfCopied (old new : Cap) : Cap :=
  match old, new with
  | .untyped ptr bits _ _, .untyped ptr' bits' _ _ =>
    if ptr ≠ ptr' ∨ bits ≠ bits' ∨ bits < minUntypedBits then old
    else old.setUntypedFreeIndex (2 ^ (bits - minUntypedBits))
  | _, _ => old

theorem setUntypedCapAsFull_cap (new : Cap) :
    (cs.setUntypedCapAsFull slot (cs.cap slot) new).cap x =
      if x = slot then fullIfCopied (cs.cap slot) new else cs.cap x := by
  by_cases same : x = slot
  · subst same
    cases old : cs.cap x <;> cases new <;>
      simp only [setUntypedCapAsFull, fullIfCopied, if_true, old]
    split <;> simp [old, ← show cs.cap x = (cs.ctes x).cap from rfl]
  · unfold setUntypedCapAsFull
    split
    · split <;> simp [same]
    · simp [same]

/-- A derivation entry without its links: the two flags and the ghost data. -/
def marks (cs : CapStore) (slot : Slot) : MdbNode := { cs.mdb slot with prev := none, next := none }

section Insert

theorem cteInsert_cap :
    (cs.cteInsert src new dest).cap x =
      if x = dest then new else if x = src then fullIfCopied (cs.cap src) new else cs.cap x := by
  simp only [cteInsert, setMdbPrev_cap, setMdbNext_cap, modify_const_cap]
  split
  · rfl
  · let cs' : CapStore := { cs with births := cs.births + 1 }
    exact (setUntypedCapAsFull_cap new : (cs'.setUntypedCapAsFull src (cs'.cap src) new).cap x = _)

end Insert

section Rename

variable {a b : Slot} {capA capB : Cap}

/-- Follow a renaming of the slots in both links. -/
def renameLinks (name : Slot → Slot) (mdb : MdbNode) : MdbNode :=
  { mdb with prev := mdb.prev.map name, next := mdb.next.map name }

theorem map_swap (link : Option Slot) :
    link.map (Equiv.swap a b) =
      if link = some a then some b else if link = some b then some a else link := by
  cases link <;> grind

/-- The slot an entry names as its predecessor is the one that links to it. -/
theorem prev_names (linked : Lib.Linked cs.next cs.prev) :
    (some x = (cs.mdb y).prev ↔ (cs.mdb x).next = some y) ∧
      (some x = (cs.mdb y).next ↔ (cs.mdb x).prev = some y) :=
  ⟨eq_comm.trans (linked.symm x y).symm, eq_comm.trans (linked.symm y x)⟩

theorem moveSlot_cap (distinct : a ≠ b) :
    (cs.moveSlot a b new).cap x = if x = b then new else if x = a then .null else cs.cap x := by
  simp only [moveSlot, relinkMdbNeighbors, setMdbPrev_cap, setMdbNext_cap, setMdb_cap, setCap_cap]
  grind

/-- A slot that is in no list is named by nobody. -/
theorem unnamed (linked : Lib.Linked cs.next cs.prev) (noNext : (cs.mdb b).next = none)
    (noPrev : (cs.mdb b).prev = none) (y : Slot) :
    (cs.mdb y).next ≠ some b ∧ (cs.mdb y).prev ≠ some b := by
  constructor
  · intro link
    have back : (cs.mdb b).prev = some y := (linked.symm y b).mp link
    simp [noPrev] at back
  · intro link
    have forth : (cs.mdb b).next = some y := (linked.symm b y).mpr link
    simp [noNext] at forth

/-- A capability moved to a slot in no list is renamed wherever it is mentioned. -/
theorem moveSlot_mdb_of_unlinked (linked : Lib.Linked cs.next cs.prev) (distinct : a ≠ b)
    (noNext : (cs.mdb b).next = none) (noPrev : (cs.mdb b).prev = none) :
    (cs.moveSlot a b new).mdb (Equiv.swap a b x) =
      if x = b then {} else renameLinks (Equiv.swap a b) (cs.mdb x) := by
  have loop : (cs.mdb a).next ≠ some a := linked.next_ne_self
  have unnamed := unnamed linked noNext noPrev
  have moved : (cs.mdb a).prev ≠ some a := fun link => loop ((linked.symm a a).mpr link)
  simp only [moveSlot, relinkMdbNeighbors, setMdbPrev_mdb, setMdbNext_mdb, setMdb_mdb, setCap_mdb,
    renameLinks, map_swap, ctes_mdb, (prev_names linked).1, (prev_names linked).2]
  by_cases atA : x = a
  · subst atA
    simp only [Equiv.swap_apply_left]
    ext1 <;> grind
  by_cases atB : x = b
  · subst atB
    simp only [Equiv.swap_apply_right]
    ext1 <;> grind
  · rw [Equiv.swap_apply_of_ne_of_ne atA atB]
    ext1 <;> grind

theorem swapSlots_cap (distinct : a ≠ b) :
    (cs.swapSlots capA a capB b).cap x =
      if x = a then capB else if x = b then capA else cs.cap x := by
  simp only [swapSlots, relinkMdbNeighbors, setMdbPrev_cap, setMdbNext_cap, setMdb_cap, setCap_cap]
  grind

/-- Exchanging two slots renames each to the other wherever it is mentioned. -/
theorem swapSlots_mdb (linked : Lib.Linked cs.next cs.prev) (distinct : a ≠ b) :
    (cs.swapSlots capA a capB b).mdb (Equiv.swap a b x) =
      renameLinks (Equiv.swap a b) (cs.mdb x) := by
  have loop : ∀ y, (cs.mdb y).next ≠ some y := fun y => linked.next_ne_self
  have once : (cs.mdb a).next = some b → (cs.mdb b).next ≠ some a := fun forth back =>
    linked.asymm (.single forth) (.single back)
  simp only [swapSlots, relinkMdbNeighbors, setMdbPrev_mdb, setMdbNext_mdb, setMdb_mdb, setCap_mdb,
    renameLinks, map_swap, ctes_mdb, (prev_names linked).1, (prev_names linked).2]
  by_cases atA : x = a
  · subst atA
    simp only [Equiv.swap_apply_left]
    ext1 <;> grind [prev_names linked]
  by_cases atB : x = b
  · subst atB
    simp only [Equiv.swap_apply_right]
    ext1 <;> grind [prev_names linked]
  · rw [Equiv.swap_apply_of_ne_of_ne atA atB]
    ext1 <;> grind [prev_names linked]

end Rename

section Empty

@[simp] theorem emptySlot_cap :
    (cs.emptySlot slot).cap x = if x = slot then .null else cs.cap x := by
  simp only [emptySlot, setMdb_cap, setCap_cap, ctes_mdb]
  by_cases first : (cs.mdb slot).firstBadged = true <;> simp [first]

end Empty

end CapStore

end Rel4
