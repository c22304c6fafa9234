import Mathlib.Data.Nat.Bitwise

/-! The low bits of a number as a list, most significant first. -/

namespace Rel4.Lib

/-- The low bits of a number, most significant first. -/
def bitsOf : Nat → Nat → List Bool
  | 0, _ => []
  | n + 1, w => w.testBit n :: bitsOf n w

/-- The number a list of bits spells, most significant first. -/
def ofBits (bits : List Bool) : Nat := bits.foldl (fun value bit => 2 * value + bit.toNat) 0

variable {m n a b w : Nat}

@[simp] theorem bitsOf_length : (bitsOf n w).length = n := by
  induction n with
  | zero => rfl
  | succ n ih => simp [bitsOf, ih]

/-- The upper bits come first. -/
theorem bitsOf_add : bitsOf (m + n) w = bitsOf m (w / 2 ^ n) ++ bitsOf n w := by
  induction m with
  | zero => simp [bitsOf]
  | succ m ih =>
    rw [Nat.add_right_comm, bitsOf, bitsOf, ih, Nat.testBit_div_two_pow, List.cons_append]

/-- Higher bits do not matter. -/
theorem bitsOf_mod (small : n ≤ m) : bitsOf n (w % 2 ^ m) = bitsOf n w := by
  induction n with
  | zero => rfl
  | succ n ih =>
    rw [bitsOf, bitsOf, ih (by omega), Nat.testBit_mod_two_pow]
    simp [show n < m from small]

/-- A further bit doubles the value. -/
theorem ofBits_concat (bits : List Bool) (bit : Bool) :
    ofBits (bits ++ [bit]) = 2 * ofBits bits + bit.toNat := by
  simp [ofBits]

/-- Reading the bits back gives the number below the bits taken. -/
@[simp] theorem ofBits_bitsOf : ofBits (bitsOf n w) = w % 2 ^ n := by
  -- The last bit is split off, so that the value grows as the fold does.
  induction n generalizing w with
  | zero => simp [bitsOf, ofBits, Nat.mod_one]
  | succ n ih =>
    have last : bitsOf 1 w = [w.testBit 0] := rfl
    rw [bitsOf_add, last, ofBits_concat, ih, pow_one, Nat.testBit_zero, Nat.pow_succ',
      Nat.mod_mul]
    rcases Nat.mod_two_eq_zero_or_one w with even | odd
    · simp [even]
    · simp [odd, Nat.add_comm]

/-- Two numbers have the same low bits when they agree below the bits taken. -/
theorem bitsOf_inj : bitsOf n a = bitsOf n b ↔ a % 2 ^ n = b % 2 ^ n := by
  constructor
  · intro same
    rw [← ofBits_bitsOf, same, ofBits_bitsOf]
  · intro same
    rw [← bitsOf_mod (Nat.le_refl n), same, bitsOf_mod (Nat.le_refl n)]

end Rel4.Lib
