import Rel4.Kernel.ThreadInvoke

/-! Invocations of capability nodes: copy, mint, move, mutate, rotate, delete and revoke. -/

namespace Rel4

/-- The slot the first two message registers name below the invoked node. -/
def cnodeDestination (uc : Addr) (root : Cap) (length : Word) : Kern Slot := do
  if length < 2 then raise .truncatedMessage
  resolveSlot root (← getMr uc 0) ((← getMr uc 1) % 2 ^ 8)

/-- The source and destination slots of a copy or a move. -/
def cnodeSource (thread uc : Addr) (dest : Slot) (length : Word) : Kern Slot := do
  if length < 4 then raise .truncatedMessage
  requireExtraCaps uc 1
  let (root, _) ← lookupExtraCapSlot thread 0
  if !((← get).cap dest).isNull then raise .deleteFirst
  resolveSlot root (← getMr uc 2) ((← getMr uc 3) % 2 ^ 8)

/-- Delete the descendants of a slot. -/
def cnodeOpRevoke (uc : Addr) (root : Cap) (length : Word) : Kern Unit := do
  cteRevoke (← cnodeDestination uc root length)

/-- Delete the capability in a slot. -/
def cnodeOpDelete (uc : Addr) (root : Cap) (length : Word) : Kern Unit := do
  let slot ← cnodeDestination uc root length
  resetCnodeWorkUnits
  deleteSlot slot

/-- Copy a capability with fewer rights, and on a mint with a badge or a guard. -/
def cnodeOpCopyOrMint (thread uc : Addr) (root : Cap) (length : Word) (isMint : Bool) :
    Kern Unit := do
  let dest ← cnodeDestination uc root length
  let src ← cnodeSource thread uc dest length
  let srcCap := (← get).cap src
  if srcCap.isNull then raise .failedLookup
  if length < (if isMint then 6 else 5) then raise .truncatedMessage
  let masked := srcCap.maskRights (.ofWord (← readMr uc 4))
  let data ← readMr uc 5
  let newCap ← deriveCapForCopy src (if isMint then masked.updateData false data else masked)
  if newCap.isNull then raise .illegalOperation
  cteInsert src newCap dest

/-- Move a capability, on a mutate with a new guard. -/
def cnodeOpMoveOrMutate (thread uc : Addr) (root : Cap) (length : Word) (isMutate : Bool) :
    Kern Unit := do
  let dest ← cnodeDestination uc root length
  let src ← cnodeSource thread uc dest length
  let srcCap := (← get).cap src
  if srcCap.isNull then raise .failedLookup
  if isMutate && length < 5 then raise .truncatedMessage
  let data ← readMr uc 4
  let moved := if isMutate then srcCap.updateData true data else srcCap
  if moved.isNull then raise .illegalOperation
  cnodeMoveSlot src dest moved

/-- Cancel the blocked senders of one badge; this takes every right to the endpoint. -/
def cnodeOpCancelBadgedSends (uc : Addr) (root : Cap) (length : Word) : Kern Unit := do
  let slot ← cnodeDestination uc root length
  let s ← get
  match s.cap slot with
  | .endpoint ep badge true true true true =>
    if badge ≠ 0 ∧ ep ≠ 0 then
      set { s with threads := s.threads.cancelBadgedSends s.env ep badge }
  | _ => raise .illegalOperation

/-- What a rotation names: its source, its pivot and its destination, and new data for the first two. -/
def rotateOperands (thread uc : Addr) (root : Cap) (length : Word) :
    Kern (Slot × Slot × Slot × Word × Word) := do
  let dest ← cnodeDestination uc root length
  if length < 8 then raise .truncatedMessage
  requireExtraCaps uc 2
  let pivotData ← getMr uc 2
  let srcData ← readMr uc 5
  let (srcRoot, _) ← lookupExtraCapSlot thread 1
  let (pivotRoot, _) ← lookupExtraCapSlot thread 0
  let src ← resolveSlot srcRoot (← readMr uc 6) ((← readMr uc 7) % 2 ^ 8)
  let pivot ← resolveSlot pivotRoot (← getMr uc 3) ((← readMr uc 4) % 2 ^ 8)
  return (src, pivot, dest, srcData, pivotData)

/-- Move one capability on to a second slot and another into its place. -/
def cnodeOpRotate (thread uc : Addr) (root : Cap) (length : Word) : Kern Unit := do
  let (src, pivot, dest, srcData, pivotData) ← rotateOperands thread uc root length
  if pivot = src ∨ pivot = dest then raise .illegalOperation
  let s ← get
  if src ≠ dest ∧ s.cap dest ≠ .null then raise .deleteFirst
  if (s.cap src).isNull then raise .failedLookup
  if (s.cap pivot).isNull then raise .failedLookup
  let newSrcCap := (s.cap src).updateData true srcData
  let newPivotCap := (s.cap pivot).updateData true pivotData
  if newSrcCap.isNull || newPivotCap.isNull then raise .illegalOperation
  if src = dest then
    cnodeSwapSlots newSrcCap src newPivotCap pivot
  else
    cnodeMoveSlot pivot dest newPivotCap
    cnodeMoveSlot src pivot newSrcCap

/-- Keep the reply capability of the last caller for later. -/
def cnodeOpSaveCaller (uc : Addr) (root : Cap) (length : Word) : Kern Unit := do
  let dest ← cnodeDestination uc root length
  let s ← get
  if !(s.caps.ctes dest).isEmpty then raise .deleteFirst
  match s.threads.current with
  | none => pure ()
  | some cur =>
    let src := tcbSlot cur tcbCaller
    match s.cap src with
    | .null => pure ()
    | .reply tcb canGrant isMaster =>
      if !isMaster then cnodeMoveSlot src dest (.reply tcb canGrant isMaster)
    | _ => crash "caller capability must be null or reply"

/-- Invocations of a capability node. -/
def handleCnode (thread uc : Addr) (root : Cap) (label length : Word) : Kern Unit := do
  match InvocationLabel.ofRaw label with
  | some .cnodeRevoke => cnodeOpRevoke uc root length
  | some .cnodeDelete => cnodeOpDelete uc root length
  | some .cnodeCopy => cnodeOpCopyOrMint thread uc root length false
  | some .cnodeMint => cnodeOpCopyOrMint thread uc root length true
  | some .cnodeMove => cnodeOpMoveOrMutate thread uc root length false
  | some .cnodeMutate => cnodeOpMoveOrMutate thread uc root length true
  | some .cnodeCancelBadgedSends => cnodeOpCancelBadgedSends uc root length
  | some .cnodeRotate => cnodeOpRotate thread uc root length
  | some .cnodeSaveCaller => cnodeOpSaveCaller uc root length
  | _ => raise .illegalOperation

end Rel4
