import Mathlib.Data.List.Nodup
import Mathlib.Data.List.Perm.Subperm

/-! Tables of which one entry changes: what all entries have, and how many have a property. -/

namespace Rel4.Lib

variable {ι β : Type*} {i : ι} {pred pred' : ι → Bool} {list : List ι}

/-- What the new entry and the entries that stay have is had by every entry afterwards. -/
@[elab_as_elim]
theorem update_elim [DecidableEq ι] {f : ι → β} {v : β} {motive : ι → β → Prop} (j : ι) (here : motive i v)
    (others : ∀ j, j ≠ i → motive j (f j)) : motive j (Function.update f i v j) := by
  by_cases is : j = i
  · subst is
    rwa [Function.update_self]
  · rw [Function.update_of_ne is]
    exact others j is

/-- If the property changes in one place only, there are as many as before, without the old entry and
with the new. -/
theorem countP_change (nodup : list.Nodup) (member : i ∈ list)
    (same : ∀ j ∈ list, j ≠ i → pred' j = pred j) :
    list.countP pred' + (if pred i then 1 else 0) = list.countP pred + if pred' i then 1 else 0 := by
  induction list with
  | nil => cases member
  | cons a rest ih =>
    obtain ⟨absent, nodup⟩ := List.nodup_cons.mp nodup
    rw [List.countP_cons, List.countP_cons]
    by_cases here : a = i
    · subst here
      have others : rest.countP pred' = rest.countP pred := List.countP_congr fun j later => by
        rw [same j (List.mem_cons_of_mem _ later) (by rintro rfl; exact absent later)]
      omega
    · have := ih nodup ((List.mem_cons.mp member).resolve_left (Ne.symm here)) fun j later =>
        same j (List.mem_cons_of_mem _ later)
      rw [same a List.mem_cons_self here]
      omega

/-- The same for a table of which one entry is replaced. -/
theorem countP_update [DecidableEq ι] {f : ι → β} {v : β} {pred : β → Bool} (nodup : list.Nodup)
    (member : i ∈ list) :
    (list.countP fun j => pred (Function.update f i v j)) + (if pred (f i) then 1 else 0) =
      (list.countP fun j => pred (f j)) + if pred v then 1 else 0 := by
  have others (j) (_ : j ∈ list) (other : j ≠ i) : pred (Function.update f i v j) = pred (f j) := by
    rw [Function.update_of_ne other]
  have changed := countP_change nodup member others
  rwa [Function.update_self] at changed

/-- What at most one entry has is had by one entry. -/
theorem eq_of_countP_le_one [DecidableEq ι] {j : ι} (nodup : list.Nodup) (few : list.countP pred ≤ 1)
    (member : i ∈ list) (member' : j ∈ list) (here : pred i = true) (there : pred j = true) : i = j := by
  by_contra distinct
  -- Without the one entry there is none left, and the other is still there.
  have changed : (list.countP fun k => pred k && k != i) + _ = list.countP pred + _ :=
    countP_change nodup member fun k _ other => by simp [other]
  have left : 0 < list.countP fun k => pred k && k != i :=
    List.countP_pos_iff.mpr ⟨j, member', by simp [there, Ne.symm distinct]⟩
  simp only [here, bne_self_eq_false, Bool.and_false, if_true, Bool.false_eq_true, if_false] at changed
  omega

/-- What is of one of two kinds is counted with one of them. -/
theorem countP_le_add {left right : ι → Bool}
    (either : ∀ i ∈ list, pred i = true → left i = true ∨ right i = true) :
    list.countP pred ≤ list.countP left + list.countP right := by
  induction list with
  | nil => exact Nat.le_refl 0
  | cons a rest ih =>
    have := ih fun i later => either i (List.mem_cons_of_mem a later)
    have here := either a List.mem_cons_self
    rw [List.countP_cons, List.countP_cons, List.countP_cons]
    by_cases has : pred a = true
    · rcases here has with is | is <;> simp only [has, is, if_true] <;> omega
    · simp only [has, Bool.false_eq_true, if_false]
      omega

/-- There are no more of one kind than of another that they can be told apart by. -/
theorem countP_le_of_inj {κ : Type*} {others : List κ} {pred' : κ → Bool} (f : ι → κ) (nodup : list.Nodup)
    (maps : ∀ i ∈ list, pred i = true → f i ∈ others ∧ pred' (f i) = true)
    (inj : ∀ i ∈ list, ∀ j ∈ list, pred i = true → pred j = true → f i = f j → i = j) :
    list.countP pred ≤ others.countP pred' := by
  rw [List.countP_eq_length_filter, List.countP_eq_length_filter, ← List.length_map (f := f)]
  -- The images are distinct, and each of them is of the other kind.
  refine (List.subperm_of_subset (List.Nodup.map_on ?_ (nodup.filter _)) ?_).length_le
  · intro i here j there same
    obtain ⟨member, has⟩ := List.mem_filter.mp here
    obtain ⟨member', has'⟩ := List.mem_filter.mp there
    exact inj i member j member' has has' same
  · intro image is
    obtain ⟨i, here, rfl⟩ := List.mem_map.mp is
    obtain ⟨member, has⟩ := List.mem_filter.mp here
    exact List.mem_filter.mpr (maps i member has)

end Rel4.Lib
