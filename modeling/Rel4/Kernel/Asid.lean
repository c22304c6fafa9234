import Rel4.Kernel.Vspace

/-! Address-space identifiers: pools of them, and the root table each one stands for. -/

namespace Rel4

/-- Identifiers in a pool. -/
def asidPoolSize : Nat := 2 ^ 9
/-- Identifiers the hardware distinguishes. -/
def asidTableLen : Nat := 2 ^ 16
/-- Pools that cover them. -/
def asidPoolCount : Nat := asidTableLen / asidPoolSize

/-- Why an identifier could not be taken from a pool. -/
inductive AsidPoolAssignError
  | missingPool
  | wrongPool
  | full
deriving DecidableEq

namespace AsidTable

variable (st : AsidTable)

/-- The root an identifier stands for, or zero. -/
def lookup (asid : Nat) : Addr :=
  if asidTableLen ≤ asid ∨ asid = 0 then 0 else st.roots asid

/-- Forget every root of a pool. -/
def clearPoolEntries (pool : Nat) : AsidTable :=
  { st with roots := fun asid => if asid / asidPoolSize = pool then 0 else st.roots asid }

/-- The first identifier of the first pool that is not handed out. -/
def nextFreePoolBase : Option Nat :=
  ((List.range asidPoolCount).find? fun pool => !st.poolActive pool).map (· * asidPoolSize)

/-- Hand out a pool. -/
def publishPool (base : Nat) (poolPtr : Addr) : Option AsidTable :=
  let pool := base / asidPoolSize
  if asidPoolCount ≤ pool ∨ base ≠ pool * asidPoolSize ∨ poolPtr = 0 ∨ st.poolActive pool then none
  else
    let cleared := st.clearPoolEntries pool
    some { cleared with
      poolPtr := Function.update cleared.poolPtr pool poolPtr
      poolActive := Function.update cleared.poolActive pool true }

/-- The first free identifier of a pool; zero is never one. -/
def nextFreeFromPool (base : Nat) (poolPtr : Addr) : Except AsidPoolAssignError Nat :=
  let pool := base / asidPoolSize
  if asidPoolCount ≤ pool ∨ base ≠ pool * asidPoolSize ∨ !st.poolActive pool then
    .error .missingPool
  else if st.poolPtr pool ≠ poolPtr then .error .wrongPool
  else
    let candidates := (List.range asidPoolSize).map (pool * asidPoolSize + ·)
    match candidates.find? fun asid => asid ≠ 0 ∧ st.roots asid = 0 with
    | some asid => .ok asid
    | none => .error .full

/-- Let an identifier of a pool stand for a root. -/
def publishPoolAssignment (base : Nat) (poolPtr : Addr) (asid : Nat) (root : Addr) :
    Option AsidTable :=
  let pool := base / asidPoolSize
  if asidPoolCount ≤ pool ∨ base ≠ pool * asidPoolSize ∨ root = 0 ∨ asid = 0 ∨
      asid / asidPoolSize ≠ pool ∨ !st.poolActive pool ∨ st.poolPtr pool ≠ poolPtr ∨
      st.roots asid ≠ 0 then none
  else some { st with roots := Function.update st.roots asid root }

/-- Take a pool back, with every identifier in it. -/
def deletePool (base : Nat) (poolPtr : Addr) : AsidTable :=
  let pool := base / asidPoolSize
  if asidPoolCount ≤ pool ∨ base ≠ pool * asidPoolSize ∨ !st.poolActive pool ∨
      st.poolPtr pool ≠ poolPtr then st
  else
    let cleared := st.clearPoolEntries pool
    { cleared with
      poolPtr := Function.update cleared.poolPtr pool 0
      poolActive := Function.update cleared.poolActive pool false }

/-- Take an identifier back from the root it stands for. -/
def delete (asid : Nat) (root : Addr) : AsidTable :=
  if asid = 0 ∨ asidTableLen ≤ asid ∨ root = 0 ∨ st.roots asid ≠ root then st
  else { st with roots := Function.update st.roots asid 0 }

end AsidTable

end Rel4
