import Mathlib.Data.Nat.Bitwise

/-!
Fields of a 64-bit word.

A field is a run of bits, given by its lowest bit and its length. Fields that do not overlap are independent.
-/

namespace Rel4.Lib

/-- The value of a field. -/
def getField (w lo len : Nat) : Nat := (w >>> lo) &&& (2 ^ len - 1)

/-- A word with a value in one field, cut to its length, and zeros elsewhere. -/
def putField (v lo len : Nat) : Nat := (v &&& (2 ^ len - 1)) <<< lo

/-- A word with zeros in one field. -/
def clearField (w lo len : Nat) : Nat := w &&& (2 ^ 64 - 1 - (2 ^ len - 1) <<< lo)

/-- Store a value, cut to the length of the field. -/
def setField (w lo len v : Nat) : Nat := clearField w lo len ||| putField v lo len

variable {w v a b lo len lo' len' i : Nat}

theorem getField_eq : getField w lo len = w / 2 ^ lo % 2 ^ len := by
  rw [getField, Nat.and_two_pow_sub_one_eq_mod, Nat.shiftRight_eq_div_pow]

theorem testBit_getField :
    (getField w lo len).testBit i = (decide (i < len) && w.testBit (lo + i)) := by
  rw [getField, Nat.testBit_and, Nat.testBit_shiftRight, Nat.testBit_two_pow_sub_one, Bool.and_comm]

theorem testBit_putField :
    (putField v lo len).testBit i = (decide (lo ≤ i ∧ i < lo + len) && v.testBit (i - lo)) := by
  rw [putField, Nat.testBit_shiftLeft, Nat.testBit_and, Nat.testBit_two_pow_sub_one]
  by_cases low : lo ≤ i
  · have same : i - lo < len ↔ i < lo + len := by omega
    simp only [low, same, decide_true, Bool.true_and, true_and]
    rw [Bool.and_comm]
  · simp [low]

/-- The mask of a field lies in the word. -/
theorem mask_lt (fits : lo + len ≤ 64) : (2 ^ len - 1) <<< lo < 2 ^ 64 := by
  rw [Nat.shiftLeft_eq]
  have positive := Nat.two_pow_pos lo
  have below : (2 ^ len - 1) * 2 ^ lo < 2 ^ len * 2 ^ lo :=
    Nat.mul_lt_mul_of_pos_right (Nat.sub_lt (Nat.two_pow_pos len) Nat.one_pos) positive
  rw [← Nat.pow_add] at below
  exact Nat.lt_of_lt_of_le below (Nat.pow_le_pow_right (by decide) (by omega))

theorem testBit_clearField (fits : lo + len ≤ 64) : (clearField w lo len).testBit i =
    (w.testBit i && (decide (i < 64) && !decide (lo ≤ i ∧ i < lo + len))) := by
  have mask : ((2 ^ len - 1) <<< lo).testBit i = decide (lo ≤ i ∧ i < lo + len) := by
    have ones : (putField (2 ^ len - 1) lo len).testBit i = _ := testBit_putField
    rw [putField, Nat.and_self, Nat.testBit_two_pow_sub_one] at ones
    rw [ones]
    by_cases inside : lo ≤ i ∧ i < lo + len
    · have : i - lo < len := by omega
      simp [inside, this]
    · simp [inside]
  rw [clearField, Nat.testBit_and, Nat.sub_sub, Nat.add_comm,
    Nat.testBit_two_pow_sub_succ (mask_lt fits), mask]

@[simp] theorem getField_or :
    getField (a ||| b) lo len = getField a lo len ||| getField b lo len := by
  rw [getField, getField, getField, Nat.shiftRight_or_distrib, Nat.and_or_distrib_right]

@[simp] theorem getField_zero : getField 0 lo len = 0 := by
  rw [getField, Nat.zero_shiftRight, Nat.zero_and]

/-- A field that was filled has its value. -/
@[simp] theorem getField_putField : getField (putField v lo len) lo len = v % 2 ^ len := by
  refine Nat.eq_of_testBit_eq fun i => ?_
  rw [testBit_getField, testBit_putField, Nat.add_sub_cancel_left, Nat.testBit_mod_two_pow]
  by_cases inside : i < len
  · simp [inside]
  · simp [inside]

/-- Any other field is empty then. -/
@[simp] theorem getField_putField_other (apart : lo + len ≤ lo' ∨ lo' + len' ≤ lo) :
    getField (putField v lo' len') lo len = 0 := by
  refine Nat.eq_of_testBit_eq fun i => ?_
  have outside : ¬ (i < len ∧ lo' ≤ lo + i ∧ lo + i < lo' + len') := by omega
  rw [testBit_getField, testBit_putField, Nat.zero_testBit, ← Bool.and_assoc, ← Bool.decide_and,
    decide_eq_false outside,
    Bool.false_and]

/-- A field is empty when it lies in one that was cleared. -/
@[simp] theorem getField_clearField (fits : lo' + len' ≤ 64)
    (inside : lo' ≤ lo ∧ lo + len ≤ lo' + len') :
    getField (clearField w lo' len') lo len = 0 := by
  refine Nat.eq_of_testBit_eq fun i => ?_
  rw [testBit_getField, testBit_clearField fits, Nat.zero_testBit]
  by_cases low : i < len
  · have : lo' ≤ lo + i ∧ lo + i < lo' + len' := by omega
    simp [this]
  · simp [low]

/-- Clearing one field leaves the others. -/
@[simp] theorem getField_clearField_other (fits : lo' + len' ≤ 64) (within : lo + len ≤ 64)
    (apart : lo + len ≤ lo' ∨ lo' + len' ≤ lo) :
    getField (clearField w lo' len') lo len = getField w lo len := by
  refine Nat.eq_of_testBit_eq fun i => ?_
  rw [testBit_getField, testBit_getField, testBit_clearField fits]
  by_cases inside : i < len
  · have here : lo + i < 64 := by omega
    have outside : ¬ (lo' ≤ lo + i ∧ lo + i < lo' + len') := by omega
    simp only [inside, here, outside, decide_true, decide_false, Bool.not_false, Bool.and_true,
      Bool.true_and]
  · simp [inside]

@[simp] theorem getField_setField (fits : lo + len ≤ 64) :
    getField (setField w lo len v) lo len = v % 2 ^ len := by
  rw [setField, getField_or, getField_clearField fits ⟨Nat.le_refl _, Nat.le_refl _⟩,
    getField_putField, Nat.zero_or]

@[simp] theorem getField_setField_other (fits : lo' + len' ≤ 64) (within : lo + len ≤ 64)
    (apart : lo + len ≤ lo' ∨ lo' + len' ≤ lo) :
    getField (setField w lo' len' v) lo len = getField w lo len := by
  rw [setField, getField_or, getField_clearField_other fits within apart,
    getField_putField_other apart, Nat.or_zero]

/-- What is stored into a field is cleared with it. -/
@[simp] theorem clearField_setField (fits : lo + len ≤ 64) :
    clearField (setField w lo len v) lo len = clearField w lo len := by
  refine Nat.eq_of_testBit_eq fun i => ?_
  rw [testBit_clearField fits, testBit_clearField fits, setField, Nat.testBit_or,
    testBit_clearField fits, testBit_putField]
  by_cases inside : lo ≤ i ∧ i < lo + len
  · simp [inside]
  · simp [inside]

/-- A multiple of a power of two has nothing in the low field of that length. -/
theorem clearField_of_dvd (fits : len ≤ 64) (word : w < 2 ^ 64) (multiple : 2 ^ len ∣ w) :
    clearField w 0 len = w := by
  refine Nat.eq_of_testBit_eq fun i => ?_
  rw [testBit_clearField (by omega)]
  by_cases low : i < len
  · obtain ⟨q, rfl⟩ := multiple
    simp [Nat.testBit_two_pow_mul, low]
  · by_cases within : i < 64
    · simp [low, within]
    · have : w.testBit i = false :=
        Nat.testBit_lt_two_pow
          (Nat.lt_of_lt_of_le word (Nat.pow_le_pow_right (by decide) (Nat.not_lt.mp within)))
      simp [this]

section Setters

variable {R A O : Type} {Holds : R → A → Prop} {set : R → O → R} {apply : O → A → A}
  {Fits : O → A → Prop}

/-- Every setter of a sequence is given a value that fits where it stands. -/
def FitAlong (Fits : O → A → Prop) (apply : O → A → A) : List O → A → Prop
  | [], _ => True
  | op :: ops, a => Fits op a ∧ FitAlong Fits apply ops (apply op a)

/-- Setters that do their work one at a time do it in any sequence. -/
theorem foldl_holds (step : ∀ r a op, Holds r a → Fits op a → Holds (set r op) (apply op a)) :
    ∀ (ops : List O) (r : R) (a : A), Holds r a → FitAlong Fits apply ops a →
      Holds (ops.foldl set r) (ops.foldl (fun a op => apply op a) a)
  | [], _, _, holds, _ => holds
  | op :: ops, r, a, holds, fits =>
    foldl_holds step ops (set r op) (apply op a) (step r a op holds fits.1) fits.2

end Setters

end Rel4.Lib
