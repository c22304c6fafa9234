import Mathlib.Logic.Equiv.Basic

/-!
Nodes threaded on successor links.

The order in which a chain visits its nodes is followed through renaming, and nodes are put in and
taken out.
-/

namespace Rel4.Lib

variable {N : Type*} {next next' prev : N → Option N} {a b c x y z : N}

/-- One node comes before another when following successors from it arrives there. -/
def Before (next : N → Option N) : N → N → Prop :=
  Relation.TransGen fun a b => next a = some b

theorem Before.single (link : next a = some b) : Before next a b := Relation.TransGen.single link

theorem Before.trans (first : Before next a b) (second : Before next b c) : Before next a c :=
  Relation.TransGen.trans first second

/-- Successor and predecessor links agree, and no chain returns to where it started. -/
structure Linked (next prev : N → Option N) : Prop where
  symm : ∀ a b, next a = some b ↔ prev b = some a
  acyclic : ∀ a, ¬ Before next a a

theorem Linked.next_ne_self (linked : Linked next prev) : next a ≠ some a :=
  fun link => linked.acyclic a (.single link)

theorem Linked.asymm (linked : Linked next prev) (before : Before next a b) :
    ¬ Before next b a :=
  fun back => linked.acyclic a (before.trans back)

/-- A map that carries links to links carries the order along. -/
theorem Before.map {f : N → N} (links : ∀ u v, next u = some v → next' (f u) = some (f v))
    (before : Before next x y) : Before next' (f x) (f y) := by
  induction before with
  | single link => exact .single (links _ _ link)
  | tail _ link ih => exact ih.trans (.single (links _ _ link))

/-- Renaming the nodes of a chain renames its order. -/
theorem before_rename (rename : Equiv.Perm N) (links : ∀ x, next' (rename x) = (next x).map rename) :
    Before next' (rename x) (rename y) ↔ Before next x y := by
  constructor
  · intro before
    have back : ∀ u v, next' u = some v → next (rename.symm u) = some (rename.symm v) := by
      intro u v link
      have image := links (rename.symm u)
      rw [Equiv.apply_symm_apply, link] at image
      obtain ⟨w, old, renamed⟩ := Option.map_eq_some_iff.mp image.symm
      rw [old, ← renamed, Equiv.symm_apply_apply]
    simpa using before.map back
  · exact Before.map fun u v link => by rw [links u, link, Option.map_some]

namespace Linked

variable {prev' : N → Option N}

/-- Renaming the nodes renames both directions. -/
theorem rename (linked : Linked next prev) (perm : Equiv.Perm N)
    (links : ∀ x, next' (perm x) = (next x).map perm)
    (back : ∀ x, prev' (perm x) = (prev x).map perm) : Linked next' prev' := by
  refine ⟨fun x y => ?_, fun x loop => linked.acyclic (perm.symm x) ?_⟩
  · have forth := links (perm.symm x)
    have behind := back (perm.symm y)
    rw [Equiv.apply_symm_apply] at forth behind
    rw [forth, behind, Option.map_eq_some_iff, Option.map_eq_some_iff]
    constructor
    · rintro ⟨z, link, rfl⟩
      exact ⟨perm.symm x, by simpa using (linked.symm _ _).mp link, by simp⟩
    · rintro ⟨z, link, rfl⟩
      exact ⟨perm.symm y, by simpa using (linked.symm _ _).mpr link, by simp⟩
  · rw [← before_rename perm links]
    simpa using loop

section Change

variable [DecidableEq N] (linked : Linked next prev)
include linked

/-- A node in no list may be put in right behind another one. -/
theorem insert (noNext : next b = none) (noPrev : prev b = none) (distinct : a ≠ b)
    (links : ∀ x, next' x = if x = b then next a else if x = a then some b else next x)
    (back : ∀ x, prev' x = if x = b then some a else if next a = some x then some b else prev x) :
    Linked next' prev' := by
  have symm := linked.symm
  refine ⟨fun x y => by grind, fun x loop => ?_⟩
  -- With the new node taken for the one before it, a walk is an old walk, or the new link alone.
  let merge (x : N) : N := if x = b then a else x
  have step (x y) (link : next' x = some y) : next (merge x) = some (merge y) ∨ x = a ∧ y = b := by
    grind
  have old {y} (walk : Before next' x y) : Before next (merge x) (merge y) ∨ x = a ∧ y = b := by
    induction walk with
    | single link => exact (step _ _ link).imp_left .single
    | tail _ link sofar =>
      rcases sofar with sofar | ⟨rfl, rfl⟩ <;> rcases step _ _ link with old | ⟨rfl, rfl⟩
      · exact .inl (sofar.trans (.single old))
      · exact .inl (by simpa [merge, distinct] using sofar)
      · exact .inl (.single (by simpa [merge, distinct] using old))
      · exact absurd rfl distinct
  rcases old loop with loop | ⟨here, there⟩
  · exact linked.acyclic _ loop
  · exact distinct (here.symm.trans there)

/-- A node may be taken out. -/
theorem splice
    (links : ∀ x, next' x = if x = b then none else if next x = some b then next b else next x)
    (back : ∀ x, prev' x = if x = b then none else if prev x = some b then prev b else prev x) :
    Linked next' prev' := by
  have symm := linked.symm
  have loop : next b ≠ some b := linked.next_ne_self
  refine ⟨fun x y => by grind, fun x walk => linked.acyclic x (Relation.TransGen.lift' id ?_ x x walk)⟩
  -- The link across the node was two links.
  intro x y link
  rw [links] at link
  split_ifs at link with here before
  · exact (Before.single before).trans (.single link)
  · exact .single link

end Change

end Linked

end Rel4.Lib
