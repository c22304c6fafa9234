import Rel4.Kernel.Cspace

/-! The walk through capability nodes on machine words, with its errors and its checked arithmetic. -/

namespace Rel4

/-- Why a walk finds no slot. -/
inductive LookupError
  | guardMismatch
  | depthMismatch
deriving DecidableEq

/-- A slot, and the bits of the pointer that were not used to reach it. -/
structure LookupResult where
  slot : Slot
  bitsRemaining : Nat
deriving DecidableEq

/-- How a walk stops without a slot; a walk that is cut short is told apart from a failed one. -/
inductive LookupStop
  | failed (error : LookupError)
  | panicked (text : String)
  | unfinished
deriving DecidableEq

/-- A shift to the right; the width of the word is too far. -/
def checkedShr (word : BitVec 64) (bits : Nat) : Except LookupStop (BitVec 64) :=
  if bits < 64 then .ok (word >>> bits) else .error (.panicked "attempt to shift right with overflow")

/-- The word with the given number of low bits set. -/
def checkedMask (bits : Nat) : Except LookupStop (BitVec 64) :=
  if bits < 64 then .ok ((1#64 <<< bits) - 1#64)
  else .error (.panicked "attempt to shift left with overflow")

/-- The mask of a guard; there is nothing to shift for an empty one. -/
def guardMask (guardBits : Nat) : Except LookupStop (BitVec 64) :=
  if guardBits = 0 then .ok 0#64 else checkedMask guardBits

/--
One level of the walk at a node: the slot its bits name, and the bits left below it.

The widths come from six-bit fields, so their sum fits the word it is computed in.
-/
def lookupLevel (ptr : Addr) (radix guard guardBits : Nat) (cptr : BitVec 64) (depthLimit : Nat) :
    Except LookupStop LookupResult := do
  let total := radix + guardBits
  if depthLimit < total then throw (.failed .depthMismatch)
  let cptrTop ← checkedShr cptr (depthLimit - total)
  let guardMask ← guardMask guardBits
  let above ← checkedShr cptrTop radix
  if above &&& guardMask ≠ BitVec.ofNat 64 guard &&& guardMask then throw (.failed .guardMismatch)
  let radixMask ← checkedMask radix
  let index := (cptrTop &&& radixMask).toNat
  if 2 ^ radix ≤ index then throw (.panicked "cptr index is masked to the CNode's radix")
  return ⟨slotAt ptr index, depthLimit - total⟩

/-- Walk from an explicit node, for at most the given number of iterations. -/
def CapStore.walkSlotIn (cs : CapStore) :
    Nat → Cap → BitVec 64 → Nat → Except LookupStop LookupResult
  | 0, _, _, _ => .error .unfinished
  | iterations + 1, .cnode ptr radix guard guardBits, cptr, depthLimit => do
    if ptr = 0 then throw (.failed .depthMismatch)
    let found ← lookupLevel ptr radix guard guardBits cptr depthLimit
    if found.bitsRemaining = 0 then return found
    match (cs.ctes found.slot).cap with
    | .cnode ptr' radix' guard' guardBits' =>
      let rest ← checkedMask found.bitsRemaining
      cs.walkSlotIn iterations (.cnode ptr' radix' guard' guardBits') (cptr &&& rest)
        found.bitsRemaining
    | _ => return found
  | _ + 1, _, _, _ => .error (.failed .depthMismatch)

end Rel4
