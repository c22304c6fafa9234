import Mathlib.Data.List.Infix
import Rel4.Kernel.Lookup
import Rel4.Lib.Bits

/-! The walk through capability nodes against seL4's recursive address resolution. -/

namespace Rel4

open Lib

/-- Why an address does not resolve; both mismatches tell the bits left and those the node takes. -/
inductive ResolveFault
  | invalidRoot
  | guardMismatch (bitsLeft levelBits : Nat)
  | depthMismatch (bitsLeft levelBits : Nat)
deriving DecidableEq

/--
seL4's resolution of an address, given as the list of its bits.

The guard is looked at before the length of the address.
-/
def CapStore.resolveAddressBits (cs : CapStore) (cap : Cap) (cref : List Bool) :
    Except ResolveFault (Slot × List Bool) :=
  match cap with
  | .cnode ptr radix guard guardSize =>
    let levelBits := guardSize + radix
    if ptr = 0 then .error .invalidRoot
    else if ¬ bitsOf guardSize guard <+: cref then .error (.guardMismatch cref.length levelBits)
    else if cref.length < levelBits then .error (.depthMismatch cref.length levelBits)
    else
      let slot := slotAt ptr (ofBits ((cref.drop guardSize).take radix))
      if cref.length = levelBits then .ok (slot, [])
      -- A node that takes no bits would resolve to itself for ever.
      else if 0 < levelBits then
        match (cs.ctes slot).cap with
        | .cnode ptr' radix' guard' guardSize' =>
          cs.resolveAddressBits (.cnode ptr' radix' guard' guardSize') (cref.drop levelBits)
        | _ => .ok (slot, cref.drop levelBits)
      else .error .invalidRoot
  | _ => .error .invalidRoot
termination_by cref.length
decreasing_by
  simp only [List.length_drop]
  omega

/-- The error the walk reports for a fault: it checks the length first, and has no word for a root
that is no node. -/
def ResolveFault.reported : ResolveFault → LookupError
  | guardMismatch bitsLeft levelBits =>
    if bitsLeft < levelBits then .depthMismatch else .guardMismatch
  | invalidRoot | depthMismatch .. => .depthMismatch

/-- The outcome of the walk for an outcome of the resolution. -/
def reportedOutcome : Except ResolveFault (Slot × List Bool) → Except LookupStop LookupResult
  | .ok (slot, rest) => .ok ⟨slot, rest.length⟩
  | .error fault => .error (.failed fault.reported)

/-- A node takes at least one bit and no more than a word; its width is a six-bit field. -/
def Cap.NodeFields : Cap → Prop
  | .cnode _ radix _ guardSize => 1 ≤ radix ∧ radix < 64 ∧ guardSize + radix ≤ 64
  | _ => True

section Words

variable {n : Nat} {w : BitVec 64}

theorem checkedShr_eq (small : n < 64) : checkedShr w n = .ok (w >>> n) := if_pos small

/-- Masking keeps the low bits. -/
theorem checkedMask_eq (small : n < 64) :
    ∃ mask, checkedMask n = .ok mask ∧ ∀ w : BitVec 64, (w &&& mask).toNat = w.toNat % 2 ^ n := by
  refine ⟨_, if_pos small, fun w => ?_⟩
  -- One shifted by less than a word is a power of two that fits.
  have room : 2 ^ n < 2 ^ 64 := Nat.pow_lt_pow_right (by decide) small
  have mask : ((1#64 <<< n) - 1#64).toNat = 2 ^ n - 1 := by
    have positive : 0 < 2 ^ n := Nat.two_pow_pos n
    rw [BitVec.toNat_sub, BitVec.toNat_shiftLeft, Nat.shiftLeft_eq]
    have one : (1#64).toNat = 1 := rfl
    rw [one, Nat.one_mul, Nat.mod_eq_of_lt room]
    omega
  rw [BitVec.toNat_and, mask, Nat.and_two_pow_sub_one_eq_mod]

/-- Without guard bits the mask is zero, and any guard passes. -/
theorem guardMask_eq (small : n < 64) :
    ∃ mask, guardMask n = .ok mask ∧ ∀ w : BitVec 64, (w &&& mask).toNat = w.toNat % 2 ^ n := by
  by_cases none : n = 0
  · exact ⟨0#64, if_pos none, fun w => by simp [none, Nat.mod_one]⟩
  · rw [guardMask, if_neg none]
    exact checkedMask_eq small

end Words

section Walk

variable {cs : CapStore} {root : Cap} {ptr : Addr} {radix guard guardSize depth iterations w : Nat}
  {cptr : BitVec 64}

/-- One level of the walk in numbers: no shift is too wide and no index too large. -/
theorem lookupLevel_eq (fields : (Cap.cnode ptr radix guard guardSize).NodeFields)
    (short : depth ≤ 64) :
    lookupLevel ptr radix guard guardSize cptr depth =
      if depth < radix + guardSize then .error (.failed .depthMismatch)
      else if cptr.toNat / 2 ^ (depth - (radix + guardSize)) / 2 ^ radix % 2 ^ guardSize ≠
          guard % 2 ^ guardSize then .error (.failed .guardMismatch)
      else .ok ⟨slotAt ptr (cptr.toNat / 2 ^ (depth - (radix + guardSize)) % 2 ^ radix),
        depth - (radix + guardSize)⟩ := by
  obtain ⟨positive, radixSmall, room⟩ := fields
  unfold lookupLevel
  by_cases over' : depth < radix + guardSize
  · simp [over']
    rfl
  -- Both masks are of less than a word, for a node takes at least one bit besides.
  obtain ⟨radixMask, radixIs, radixMod⟩ := checkedMask_eq radixSmall
  obtain ⟨guardMask, guardIs, guardMod⟩ := guardMask_eq (show guardSize < 64 by omega)
  -- The shifts and masks are division and remainder by powers of two.
  have index : (cptr >>> (depth - (radix + guardSize)) &&& radixMask).toNat =
      cptr.toNat / 2 ^ (depth - (radix + guardSize)) % 2 ^ radix := by
    rw [radixMod, BitVec.toNat_ushiftRight, Nat.shiftRight_eq_div_pow]
  have matches' : (cptr >>> (depth - (radix + guardSize)) >>> radix &&& guardMask =
      BitVec.ofNat 64 guard &&& guardMask) ↔
      cptr.toNat / 2 ^ (depth - (radix + guardSize)) / 2 ^ radix % 2 ^ guardSize =
        guard % 2 ^ guardSize := by
    rw [← BitVec.toNat_inj, guardMod, guardMod, BitVec.toNat_ushiftRight, BitVec.toNat_ushiftRight,
      Nat.shiftRight_eq_div_pow, Nat.shiftRight_eq_div_pow, BitVec.toNat_ofNat,
      Nat.mod_mod_of_dvd _ (Nat.pow_dvd_pow 2 (by omega))]
  have inside : ¬ 2 ^ radix ≤ cptr.toNat / 2 ^ (depth - (radix + guardSize)) % 2 ^ radix :=
    Nat.not_le.mpr (Nat.mod_lt _ (Nat.two_pow_pos radix))
  simp only [over', if_false, checkedShr_eq (show depth - (radix + guardSize) < 64 by omega),
    checkedShr_eq radixSmall, guardIs, radixIs, index, inside, ne_eq, matches', bind, Except.bind,
    pure, Except.pure]
  split <;> rfl

section

variable (enough : radix + guardSize ≤ depth)
include enough

/-- The bits of an address at a node that does not take more of them than there are. -/
theorem bitsOf_level :
    bitsOf depth w = bitsOf guardSize (w / 2 ^ (depth - (radix + guardSize)) / 2 ^ radix) ++
      (bitsOf radix (w / 2 ^ (depth - (radix + guardSize))) ++
        bitsOf (depth - (radix + guardSize)) w) := by
  obtain ⟨rest, rfl⟩ := Nat.exists_eq_add_of_le enough
  have split : radix + guardSize + rest = guardSize + (radix + rest) := by omega
  rw [Nat.add_sub_cancel_left, split, bitsOf_add, bitsOf_add, Nat.div_div_eq_div_mul, ← Nat.pow_add,
    Nat.add_comm radix rest]

theorem guard_prefix :
    bitsOf guardSize guard <+: bitsOf depth w ↔
      w / 2 ^ (depth - (radix + guardSize)) / 2 ^ radix % 2 ^ guardSize = guard % 2 ^ guardSize := by
  rw [List.prefix_iff_eq_take, bitsOf_length, bitsOf_level enough, List.take_left' bitsOf_length,
    bitsOf_inj, eq_comm]

theorem ofBits_offset :
    ofBits (((bitsOf depth w).drop guardSize).take radix) =
      w / 2 ^ (depth - (radix + guardSize)) % 2 ^ radix := by
  rw [bitsOf_level enough, List.drop_left' bitsOf_length, List.take_left' bitsOf_length,
    ofBits_bitsOf]

theorem drop_level : (bitsOf depth w).drop (guardSize + radix) = bitsOf (depth - (radix + guardSize)) w := by
  rw [← List.drop_drop, bitsOf_level enough, List.drop_left' bitsOf_length,
    List.drop_left' bitsOf_length]

end

/-- The walk gives what the resolution of the address bits gives, one bit at least per level. -/
theorem walkSlotIn_eq (fields : ∀ slot, (cs.ctes slot).cap.NodeFields) (rootFields : root.NodeFields)
    (positive : 1 ≤ depth) (enough : depth ≤ iterations) (short : depth ≤ 64) :
    cs.walkSlotIn iterations root cptr depth =
      reportedOutcome (cs.resolveAddressBits root (bitsOf depth cptr.toNat)) := by
  -- Every level uses up a bit at least, so there are enough iterations for the bits.
  induction iterations generalizing root cptr depth with
  | zero => omega
  | succ iterations ih =>
    cases root
    case cnode ptr radix guard guardSize =>
      unfold CapStore.resolveAddressBits CapStore.walkSlotIn
      rw [lookupLevel_eq rootFields short]
      by_cases null : ptr = 0
      · simp only [null, if_true]
        rfl
      by_cases long : depth < radix + guardSize
      · -- The walk does not look at the guard of a node it has too few bits for.
        have long' : depth < guardSize + radix := by omega
        simp only [null, if_false, long, if_true, bitsOf_length, long']
        split <;> simp [reportedOutcome, ResolveFault.reported, long'] <;> rfl
      have enough : radix + guardSize ≤ depth := by omega
      have notShort : ¬ depth < guardSize + radix := by omega
      have takes : 0 < guardSize + radix := by have := rootFields.1; omega
      simp only [null, if_false, long, guard_prefix enough, bitsOf_length, notShort, takes, if_true,
        ofBits_offset enough, drop_level enough]
      by_cases guarded : cptr.toNat / 2 ^ (depth - (radix + guardSize)) / 2 ^ radix % 2 ^ guardSize =
          guard % 2 ^ guardSize
      case neg =>
        simp only [guarded, ne_eq, not_false_eq_true, if_true, reportedOutcome,
          ResolveFault.reported, notShort, if_false]
        rfl
      simp only [guarded, ne_eq, not_true_eq_false, if_false]
      generalize slotAt ptr (cptr.toNat / 2 ^ (depth - (radix + guardSize)) % 2 ^ radix) = slot
      -- From here on only the bits that are left matter.
      have left : depth = guardSize + radix ↔ depth - (radix + guardSize) = 0 := by omega
      have fewer : depth - (radix + guardSize) ≤ iterations := by omega
      have word : depth - (radix + guardSize) < 64 := by omega
      simp only [left]
      generalize depth - (radix + guardSize) = rest at left fewer word
      simp only [bind, Except.bind, pure, Except.pure]
      by_cases done : rest = 0
      · simp only [done, if_true, reportedOutcome]
        rfl
      simp only [done, if_false]
      obtain ⟨mask, maskIs, maskMod⟩ := checkedMask_eq word
      have nextFields := fields slot
      generalize (cs.ctes slot).cap = next at nextFields
      cases next
      case cnode ptr' radix' guard' guardSize' =>
        -- The bits already used are masked off, which the resolution of the rest does not see.
        simp only [maskIs]
        rw [ih nextFields (by omega) fewer (by omega), maskMod, bitsOf_mod (Nat.le_refl rest)]
      all_goals simp [reportedOutcome]
    all_goals
      unfold CapStore.resolveAddressBits
      rfl

/-- The walk in numbers, which the rest of the kernel is modelled with, finds what the walk on words
finds. -/
theorem lookupSlotIn_eq_walkSlotIn (fields : ∀ slot, (cs.ctes slot).cap.NodeFields)
    (rootFields : root.NodeFields) (short : depth ≤ 64) :
    cs.lookupSlotIn iterations root cptr.toNat depth =
      (cs.walkSlotIn iterations root cptr depth).toOption.map fun found =>
        (found.slot, found.bitsRemaining) := by
  induction iterations generalizing root cptr depth with
  | zero => rfl
  | succ iterations ih =>
    cases root
    case cnode ptr radix guard guardSize =>
      unfold CapStore.lookupSlotIn CapStore.walkSlotIn
      rw [lookupLevel_eq rootFields short]
      by_cases null : ptr = 0
      · simp only [null, true_or, if_true]
        rfl
      by_cases long : depth < radix + guardSize
      · simp only [null, long, or_true, if_true, if_false]
        rfl
      simp only [null, long, or_self, if_false]
      by_cases guarded : cptr.toNat / 2 ^ (depth - (radix + guardSize)) / 2 ^ radix % 2 ^ guardSize =
          guard % 2 ^ guardSize
      case neg =>
        simp only [guarded, ne_eq, not_false_eq_true, if_true]
        rfl
      simp only [guarded, ne_eq, not_true_eq_false, if_false]
      generalize slotAt ptr (cptr.toNat / 2 ^ (depth - (radix + guardSize)) % 2 ^ radix) = slot
      have word : depth - (radix + guardSize) < 64 := by have := rootFields.1; omega
      generalize depth - (radix + guardSize) = rest at word
      simp only [bind, Except.bind, pure, Except.pure]
      by_cases done : rest = 0
      · simp only [done, if_true]
        rfl
      simp only [done, if_false]
      obtain ⟨mask, maskIs, maskMod⟩ := checkedMask_eq word
      have nextFields := fields slot
      generalize (cs.ctes slot).cap = next at nextFields
      cases next
      case cnode ptr' radix' guard' guardSize' =>
        -- The bits already used are a remainder here and masked off there.
        simp only [maskIs]
        rw [← maskMod, ih nextFields (by omega)]
      all_goals rfl
    all_goals rfl

/--
The walk ends within as many iterations as a word has bits, without a failed check, and resolves
the address as the recursive specification does.

Its errors are coarser: it reports a guard mismatch only where the node's bits are all there.
-/
theorem walkSlotIn_resolves (fields : ∀ slot, (cs.ctes slot).cap.NodeFields)
    (rootFields : root.NodeFields) (positive : 1 ≤ depth) (short : depth ≤ 64) (cptr : BitVec 64) :
    cs.walkSlotIn 64 root cptr depth =
        reportedOutcome (cs.resolveAddressBits root (bitsOf depth cptr.toNat)) ∧
      ∀ cptr' : BitVec 64, cptr'.toNat % 2 ^ depth = cptr.toNat % 2 ^ depth →
        cs.walkSlotIn 64 root cptr' depth = cs.walkSlotIn 64 root cptr depth := by
  refine ⟨walkSlotIn_eq fields rootFields positive short short, fun cptr' same => ?_⟩
  rw [walkSlotIn_eq fields rootFields positive short short,
    walkSlotIn_eq fields rootFields positive short short, bitsOf_inj.mpr same]

/-- A node that leads back to itself still uses up the address. -/
def loopStore : CapStore :=
  { ctes := fun slot => if slot = 4096 then { cap := .cnode 4096 1 0 0 } else {} }

theorem walkSlotIn_resolves_loop :
    loopStore.walkSlotIn 64 (.cnode 4096 1 0 0) 0#64 64 =
      reportedOutcome (loopStore.resolveAddressBits (.cnode 4096 1 0 0) (bitsOf 64 0)) := by
  refine (walkSlotIn_resolves (fun slot => ?_) ?_ (by decide) (by decide) 0#64).1
  · unfold loopStore
    by_cases here : slot = 4096
    · simp [here, Cap.NodeFields]
    · simp [here, Cap.NodeFields]
  · simp [Cap.NodeFields]

/-- With too few bits for the node, a guard that does not match is not what the walk reports. -/
theorem walkSlotIn_short_guard :
    CapStore.resolveAddressBits {} (.cnode 4096 1 0 2) (bitsOf 1 0) =
        .error (.guardMismatch 1 3) ∧
      CapStore.walkSlotIn {} 64 (.cnode 4096 1 0 2) 0#64 1 = .error (.failed .depthMismatch) := by
  constructor
  · unfold CapStore.resolveAddressBits
    simp [bitsOf]
  · rfl

end Walk

end Rel4
