import Mathlib.Order.Defs.LinearOrder
import Rel4.Kernel.Cap

/-! Free memory is cut into blocks whose size is a power of two and divides their address. -/

namespace Rel4

/-- A chunk of free memory that still has to be cut. -/
structure FreeRange where
  startKva : Nat
  size : Nat

/-- Zeros below the lowest bit of a word that is set. -/
def trailingZeros (w : Nat) : Nat := ((List.range 64).find? w.testBit).getD 64

/-- The rest of a chunk: where the next block starts, and where the chunk ends. -/
structure UntypedChunks where
  cursor : Nat
  stop : Nat

namespace UntypedChunks

def new (range : FreeRange) : UntypedChunks where
  cursor := range.startKva
  stop := range.startKva + range.size

/-- The size of the next block: the rest bounds it, the alignment of its address, and the largest size there is. -/
def nextBits (chunks : UntypedChunks) : Nat :=
  let maxBySize := Nat.log2 (chunks.stop - chunks.cursor)
  let maxByAlign := if chunks.cursor = 0 then maxUntypedBits else trailingZeros chunks.cursor
  min (min maxBySize maxByAlign) maxUntypedBits

/-- The next block, by its address and its size, and what is left behind it. -/
def next (chunks : UntypedChunks) : Option (Nat × Nat) × UntypedChunks :=
  if chunks.stop ≤ chunks.cursor then (none, chunks)
  else
    let bits := chunks.nextBits
    -- A rest that is too small is dropped.
    if bits < minUntypedBits then (none, { chunks with cursor := chunks.stop })
    else (some (chunks.cursor, bits), { chunks with cursor := chunks.cursor + 2 ^ bits })

/-- What a turn of the iterator does, if it yields a block. -/
theorem next_eq_some {chunks rest : UntypedChunks} {block : Nat × Nat} (is : chunks.next = (some block, rest)) :
    chunks.cursor < chunks.stop ∧ minUntypedBits ≤ chunks.nextBits ∧ block = (chunks.cursor, chunks.nextBits) ∧
      rest = { chunks with cursor := chunks.cursor + 2 ^ chunks.nextBits } := by
  unfold next at is
  split at is
  · cases is
  · rename_i inside
    dsimp only at is
    split at is
    · cases is
    · rename_i large
      cases is
      exact ⟨Nat.lt_of_not_le inside, Nat.le_of_not_lt large, rfl, rfl⟩

/-- A block leaves less of the chunk. -/
theorem next_shrinks {chunks rest : UntypedChunks} {block : Nat × Nat} (is : chunks.next = (some block, rest)) :
    rest.stop - rest.cursor < chunks.stop - chunks.cursor := by
  obtain ⟨inside, -, -, rfl⟩ := next_eq_some is
  have positive := Nat.two_pow_pos chunks.nextBits
  dsimp only
  omega

/-- All blocks of a chunk, in the order the iterator yields them. -/
def blocks (chunks : UntypedChunks) : List (Nat × Nat) :=
  match is : chunks.next with
  | (none, _) => []
  | (some block, rest) =>
    have := next_shrinks is
    block :: blocks rest
termination_by chunks.stop - chunks.cursor

end UntypedChunks

end Rel4
