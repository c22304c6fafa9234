import Mathlib.Logic.Function.Basic

/-! First in, first out, in a buffer of fixed size whose positions wrap around. -/

namespace Rel4.Lib

variable {α : Type*} {cap : Nat}

/-- The elements in a buffer, from the oldest on. -/
def ringContents (cap : Nat) (buf : Nat → α) (first len : Nat) : List α :=
  (List.range len).map fun i => buf ((first + i) % cap)

@[simp] theorem ringContents_length (buf : Nat → α) (first len : Nat) :
    (ringContents cap buf first len).length = len := by
  simp [ringContents]

/-- Where the first element is matters only up to the size of the buffer. -/
theorem ringContents_congr {buf : Nat → α} {first first' : Nat} (same : first % cap = first' % cap)
    (len : Nat) : ringContents cap buf first len = ringContents cap buf first' len := by
  unfold ringContents
  refine List.map_congr_left fun i _ => ?_
  rw [Nat.add_mod, same, ← Nat.add_mod]

/-- The elements from a position on follow those before it. -/
theorem ringContents_add (buf : Nat → α) (first len more : Nat) :
    ringContents cap buf first (len + more) =
      ringContents cap buf first len ++ ringContents cap buf (first + len) more := by
  simp [ringContents, List.range_add, Function.comp_def, Nat.add_assoc]

/-- Positions less than the size of the buffer apart are different. -/
theorem ring_apart {first i j : Nat} (below : i < j) (near : j < i + cap) :
    (first + i) % cap ≠ (first + j) % cap := by
  intro same
  have apart : cap ∣ (first + j) - (first + i) :=
    Nat.dvd_of_mod_eq_zero (Nat.sub_mod_eq_zero_of_mod_eq same.symm)
  have := Nat.le_of_dvd (by omega) apart
  omega

/-- What is written behind the newest element is the newest then. -/
theorem ringContents_push {buf : Nat → α} {first len : Nat} (room : len < cap) (a : α) :
    ringContents cap (Function.update buf ((first + len) % cap) a) first (len + 1) =
      ringContents cap buf first len ++ [a] := by
  unfold ringContents
  rw [List.range_succ, List.map_append, List.map_singleton, Function.update_self]
  congr 1
  refine List.map_congr_left fun i member => ?_
  have below := List.mem_range.mp member
  exact Function.update_of_ne (ring_apart below (by omega)) _ _

/-- The oldest element is the one at the reading position. -/
theorem ringContents_succ (buf : Nat → α) (first len : Nat) :
    ringContents cap buf first (len + 1) =
      buf (first % cap) :: ringContents cap buf (first + 1) len := by
  rw [Nat.add_comm len 1, ringContents_add]
  rfl

/-- The same for a reading position that is kept below the size of the buffer. -/
theorem ringContents_pop {buf : Nat → α} {first len : Nat} (small : first < cap) :
    ringContents cap buf first (len + 1) = buf first :: ringContents cap buf ((first + 1) % cap) len := by
  rw [ringContents_succ, Nat.mod_eq_of_lt small]
  exact congrArg _ (ringContents_congr (Nat.mod_mod _ _).symm len)

end Rel4.Lib
