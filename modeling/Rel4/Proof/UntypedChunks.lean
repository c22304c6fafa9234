import Mathlib.Data.Nat.Bitwise
import Mathlib.Data.Nat.Log
import Rel4.Kernel.UntypedChunks

/-! The blocks cut from a chunk of free memory tile it. -/

namespace Rel4

section Tiles

variable {first last addr : Nat} {blocks : List (Nat × Nat)}

/-- Blocks that follow each other without a gap, from one address up to another. -/
inductive Tiles : Nat → List (Nat × Nat) → Nat → Prop
  | nil (addr : Nat) : Tiles addr [] addr
  | cons (first bits : Nat) {rest : List (Nat × Nat)} {last : Nat} (tiles : Tiles (first + 2 ^ bits) rest last) :
      Tiles first ((first, bits) :: rest) last

section

variable (tiles : Tiles first blocks last)
include tiles

theorem Tiles.mem_ge : ∀ block ∈ blocks, first ≤ block.1 := by
  induction tiles with
  | nil => nofun
  | cons first bits tiles ih =>
    intro block member
    rcases List.mem_cons.mp member with rfl | later
    · exact le_rfl
    · exact le_trans (Nat.le_add_right first _) (ih block later)

/-- Each block ends before the next one begins. -/
theorem Tiles.pairwise :
    blocks.Pairwise fun lower upper => lower.1 + 2 ^ lower.2 ≤ upper.1 := by
  induction tiles with
  | nil => exact .nil
  | cons first bits tiles ih => exact .cons tiles.mem_ge ih

theorem Tiles.le : first ≤ last := by
  induction tiles with
  | nil => exact le_rfl
  | cons first bits tiles ih => exact le_trans (Nat.le_add_right first _) ih

/-- Together they cover what lies between the two addresses, and nothing else. -/
theorem Tiles.covers :
    (∃ block ∈ blocks, block.1 ≤ addr ∧ addr < block.1 + 2 ^ block.2) ↔ first ≤ addr ∧ addr < last := by
  induction tiles with
  | nil => simp
  | cons first bits tiles ih =>
    have behind := tiles.le
    have positive := Nat.two_pow_pos bits
    simp only [List.mem_cons, exists_eq_or_imp, ih]
    omega

end

end Tiles

section Align

variable {w k : Nat}

theorem two_pow_dvd_iff_testBit : 2 ^ k ∣ w ↔ ∀ i < k, w.testBit i = false := by
  rw [Nat.dvd_iff_mod_eq_zero]
  constructor
  · intro zero i below
    have bit : (w % 2 ^ k).testBit i = false := by rw [zero, Nat.zero_testBit]
    simpa [Nat.testBit_mod_two_pow, below] using bit
  · intro clear
    refine Nat.eq_of_testBit_eq fun i => ?_
    rw [Nat.testBit_mod_two_pow, Nat.zero_testBit]
    by_cases below : i < k
    · simp [clear i below]
    · simp [below]

/-- A word is a multiple of just those powers of two that its trailing zeros allow. -/
theorem le_trailingZeros_iff (nonzero : w ≠ 0) (small : w < 2 ^ 64) : k ≤ trailingZeros w ↔ 2 ^ k ∣ w := by
  unfold trailingZeros
  cases found : (List.range 64).find? w.testBit with
  | none =>
    -- Some bit of a word that is not zero is set.
    obtain ⟨i, set⟩ := Nat.exists_testBit_of_ne_zero nonzero
    have below : i < 64 := Nat.lt_of_not_le fun above => by
      rw [Nat.testBit_lt_two_pow (lt_of_lt_of_le small (Nat.pow_le_pow_right (by decide) above))] at set
      cases set
    exact absurd set (List.find?_eq_none.mp found i (List.mem_range.mpr below))
  | some i =>
    obtain ⟨set, before⟩ := List.find?_range_eq_some.mp found
    rw [two_pow_dvd_iff_testBit, Option.getD_some]
    constructor
    · intro below j smaller
      simpa using before.2 j (lt_of_lt_of_le smaller below)
    · intro clear
      refine Nat.le_of_not_lt fun above => ?_
      rw [clear i above] at set
      cases set

end Align

namespace UntypedChunks

variable {chunks : UntypedChunks}

/-- A block fits the rest, its size divides its address, and it is no larger than a block may be. -/
theorem nextBits_fits (small : chunks.stop < 2 ^ 64) (inside : chunks.cursor < chunks.stop) :
    chunks.cursor + 2 ^ chunks.nextBits ≤ chunks.stop ∧ 2 ^ chunks.nextBits ∣ chunks.cursor ∧
      chunks.nextBits ≤ maxUntypedBits := by
  refine ⟨?_, ?_, min_le_right _ _⟩
  · have bySize : chunks.nextBits ≤ Nat.log2 (chunks.stop - chunks.cursor) :=
      le_trans (min_le_left _ _) (min_le_left _ _)
    have fits : 2 ^ chunks.nextBits ≤ chunks.stop - chunks.cursor :=
      (Nat.le_log2 (by omega)).mp bySize
    omega
  · by_cases zero : chunks.cursor = 0
    · rw [zero]
      exact Nat.dvd_zero _
    · rw [← le_trailingZeros_iff zero (lt_trans inside small)]
      have byAlign : chunks.nextBits ≤ if chunks.cursor = 0 then maxUntypedBits else trailingZeros chunks.cursor :=
        le_trans (min_le_left _ _) (min_le_right _ _)
      rwa [if_neg zero] at byAlign

/-- As long as the address is aligned, only a rest below the smallest size is dropped. -/
theorem nextBits_large (small : chunks.stop < 2 ^ 64) (aligned : 2 ^ minUntypedBits ∣ chunks.cursor)
    (room : chunks.cursor + 2 ^ minUntypedBits ≤ chunks.stop) : minUntypedBits ≤ chunks.nextBits := by
  have positive := Nat.two_pow_pos minUntypedBits
  refine le_min (le_min ((Nat.le_log2 (by omega)).mpr (by omega)) ?_) (by decide)
  split
  · decide
  · rename_i nonzero
    exact (le_trailingZeros_iff nonzero (by omega)).mpr aligned

/-- The blocks of a rest that starts at an aligned address tile all of it but less than the smallest size. -/
theorem blocks_tile (chunks : UntypedChunks) (small : chunks.stop < 2 ^ 64)
    (aligned : 2 ^ minUntypedBits ∣ chunks.cursor) (ordered : chunks.cursor ≤ chunks.stop) :
    (∀ block ∈ chunks.blocks, minUntypedBits ≤ block.2 ∧ block.2 ≤ maxUntypedBits ∧ 2 ^ block.2 ∣ block.1) ∧
      ∃ last ≤ chunks.stop, chunks.stop < last + 2 ^ minUntypedBits ∧
        Tiles chunks.cursor chunks.blocks last := by
  -- The induction follows the iterator, and the alignment of the cursor is what it keeps.
  induction chunks using UntypedChunks.blocks.induct with
  | case1 chunks rest is =>
    have done : chunks.blocks = [] := by rw [blocks]; split <;> simp_all
    rw [done]
    refine ⟨nofun, chunks.cursor, ordered, Nat.lt_of_not_le fun room => ?_, .nil _⟩
    have large := nextBits_large small aligned room
    have positive := Nat.two_pow_pos minUntypedBits
    unfold next at is
    rw [if_neg (by omega)] at is
    dsimp only at is
    rw [if_neg (Nat.not_lt.mpr large)] at is
    cases is
  | case2 chunks block rest is shrinks ih =>
    have more : chunks.blocks = block :: rest.blocks := by rw [blocks]; split <;> simp_all
    obtain ⟨inside, large, rfl, rfl⟩ := next_eq_some is
    obtain ⟨fits, divides, bounded⟩ := nextBits_fits small inside
    have next : 2 ^ minUntypedBits ∣ chunks.cursor + 2 ^ chunks.nextBits :=
      Nat.dvd_add aligned (Nat.pow_dvd_pow 2 large)
    obtain ⟨sizes, last, bound, short, tiles⟩ := ih small next fits
    rw [more]
    refine ⟨fun block member => ?_, last, bound, short, .cons _ _ tiles⟩
    rcases List.mem_cons.mp member with rfl | later
    · exact ⟨large, bounded, divides⟩
    · exact sizes block later

end UntypedChunks

/-- A chunk with an aligned start is cut into aligned blocks that tile all of it but less than sixteen bytes. -/
theorem untyped_blocks_tile (range : FreeRange) (aligned : 16 ∣ range.startKva)
    (fits : range.startKva + range.size < 2 ^ 64) :
    let blocks := (UntypedChunks.new range).blocks
    (∀ block ∈ blocks, 4 ≤ block.2 ∧ block.2 ≤ 38 ∧ 2 ^ block.2 ∣ block.1) ∧
      blocks.Pairwise (fun lower upper => lower.1 + 2 ^ lower.2 ≤ upper.1) ∧
      ∃ last ≤ range.startKva + range.size, range.startKva + range.size < last + 16 ∧
        ∀ addr, (∃ block ∈ blocks, block.1 ≤ addr ∧ addr < block.1 + 2 ^ block.2) ↔
          range.startKva ≤ addr ∧ addr < last := by
  obtain ⟨sizes, last, bound, short, tiles⟩ :=
    (UntypedChunks.new range).blocks_tile fits aligned (Nat.le_add_right _ _)
  exact ⟨sizes, tiles.pairwise, last, bound, short, fun _ => tiles.covers⟩

/-- A page and a half, from an address that only allows small blocks at first. -/
theorem untyped_blocks_tile_sample :
    ∃ last ≤ 0x1010 + 0x1808, 0x1010 + 0x1808 < last + 16 ∧
      ∀ addr, (∃ block ∈ (UntypedChunks.new ⟨0x1010, 0x1808⟩).blocks,
          block.1 ≤ addr ∧ addr < block.1 + 2 ^ block.2) ↔ 0x1010 ≤ addr ∧ addr < last :=
  (untyped_blocks_tile ⟨0x1010, 0x1808⟩ (by decide) (by decide)).2.2

end Rel4
