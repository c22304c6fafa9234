import Rel4.Proof.Rename

/-! The derivation lists in every run of the operations that change them. -/

namespace Rel4.CapStore

open Lib

/-- The successor and predecessor links make up lists. -/
def WellLinked (cs : CapStore) : Prop := Linked cs.next cs.prev

/--
One change to the lists, as the assertions of the source allow it.

Before a root is installed the source only looks for a capability in the slot; that a slot without
one is in no list is asked for here.
-/
inductive Change (cs : CapStore) : CapStore → Prop
  | install (a : Slot) (cap : Cap) (free : (cs.ctes a).isEmpty = true) : Change cs (cs.installRoot a cap)
  | insertNew (a b : Slot) (cap : Cap) (distinct : a ≠ b) (free : (cs.ctes b).isEmpty = true) :
    Change cs (cs.insertNewCap a b cap)
  | insert (a b : Slot) (cap : Cap) (distinct : a ≠ b) (free : (cs.ctes b).isEmpty = true) :
    Change cs (cs.cteInsert a cap b)
  | move (a b : Slot) (cap : Cap) (distinct : a ≠ b) (free : (cs.ctes b).isEmpty = true) :
    Change cs (cs.moveSlot a b cap)
  | swap (a b : Slot) (capA capB : Cap) (distinct : a ≠ b) : Change cs (cs.swapSlots capA a capB b)
  | empty (a : Slot) : Change cs (cs.emptySlot a)

variable {cs cs' : CapStore} {a : Slot}

/-- An empty slot is in no list. -/
theorem unlinked (free : (cs.ctes a).isEmpty = true) : (cs.mdb a).next = none ∧ (cs.mdb a).prev = none := by
  simp_all [Cte.isEmpty, mdb]

/-- Each change keeps the lists. -/
theorem Change.keeps (change : Change cs cs') (lists : cs.WellLinked) : cs'.WellLinked := by
  have loop (x) : (cs.mdb x).next ≠ some x := lists.next_ne_self
  cases change with
  | install a cap free =>
    have alone := unlinked free
    have same : (cs.installRoot a cap).next = cs.next ∧ (cs.installRoot a cap).prev = cs.prev := by
      constructor <;> funext x <;> simp [next_eq, prev_eq, installRoot] <;> grind
    rwa [WellLinked, same.1, same.2]
  | insertNew a b cap distinct free | insert a b cap distinct free =>
    obtain ⟨noNext, noPrev⟩ := unlinked free
    have unnamed := unnamed lists noNext noPrev a
    refine Linked.insert lists noNext noPrev distinct (fun x => ?_) fun x => ?_ <;>
      simp [next_eq, prev_eq, insertNewCap, cteInsert, ctes_mdb] <;> grind
  | move a b cap distinct free =>
    obtain ⟨noNext, noPrev⟩ := unlinked free
    exact (moveSlot_relocated lists distinct noNext noPrev).linked lists
  | swap a b capA capB distinct => exact (swapSlots_relocated lists distinct).linked lists
  | empty a =>
    have names := fun x => prev_names (x := x) (y := a) lists
    -- The two neighbours are joined, whether or not the second one inherits a flag.
    refine Linked.splice lists (b := a) (fun x => ?_) fun x => ?_ <;>
      by_cases first : (cs.mdb a).firstBadged = true <;>
      simp [next_eq, prev_eq, emptySlot, ctes_mdb, first] <;> grind

/--
However capabilities are made, copied, moved, exchanged and deleted, the derivation entries make up
lists: successors and predecessors agree, and no list runs in a circle.
-/
theorem derivation_lists_kept (start : cs.WellLinked) (run : Relation.ReflTransGen Change cs cs') : cs'.WellLinked := by
  induction run with
  | refl => exact start
  | tail _ change lists => exact change.keeps lists

/-- A copy is put between two neighbours and goes again. -/
theorem derivation_lists_kept_copy : ∃ cs : CapStore, cs.next 32 = some 64 ∧ cs.prev 64 = some 32 ∧
    cs.next 96 = none ∧ cs.WellLinked := by
  have run : Relation.ReflTransGen Change neighbours.caps _ := .single (.insert 32 96 .domain (by decide) rfl)
  exact ⟨_, rfl, rfl, rfl, derivation_lists_kept neighbours_linked (run.tail (.empty 96))⟩

end Rel4.CapStore
