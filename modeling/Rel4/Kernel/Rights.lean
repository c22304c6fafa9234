import Rel4.Kernel.Untyped

/-! Deriving capabilities: masking rights, setting badges and guards, and what a copy may carry. -/

namespace Rel4

/-- The rights an invocation asks for, unpacked from a word. -/
structure CapRights where
  write : Bool
  read : Bool
  grant : Bool
  grantReply : Bool

/-- Unpack a word of rights. -/
def CapRights.ofWord (w : Word) : CapRights :=
  { write := w.testBit 0, read := w.testBit 1, grant := w.testBit 2, grantReply := w.testBit 3 }

/-- Mask the rights of a frame; writing without reading is not possible. -/
def maskFrameVmRights (rights : VmRights) (mask : CapRights) : VmRights :=
  match rights with
  | .readOnly => if mask.read then .readOnly else .kernelOnly
  | .readWrite =>
    if mask.read && mask.write then .readWrite else if mask.read then .readOnly else .kernelOnly
  | .kernelOnly => .kernelOnly

/-- Whether user space may read a frame. -/
def VmRights.allowRead : VmRights → Bool
  | .readOnly | .readWrite => true
  | .kernelOnly => false

/-- Whether user space may write a frame. -/
def VmRights.allowWrite : VmRights → Bool
  | .readWrite => true
  | _ => false

namespace Cap

/-- Mask the rights of a capability. -/
def maskRights (mask : CapRights) : Cap → Cap
  | endpoint ptr badge send receive grant grantReply =>
    endpoint ptr badge (send && mask.write) (receive && mask.read) (grant && mask.grant)
      (grantReply && mask.grantReply)
  | notification ptr badge send receive =>
    notification ptr badge (send && mask.write) (receive && mask.read)
  | reply tcb grant isMaster => reply tcb (grant && mask.grant) isMaster
  | frame base size rights dev addr asid =>
    frame base size (maskFrameVmRights rights mask) dev addr asid
  | cap => cap

/--
Set the badge of an endpoint or notification, or the guard of a node.

A badge is set at most once, and never on a capability that is moved.
-/
def updateData (preserve : Bool) (data : Word) : Cap → Cap
  | endpoint ptr badge send receive grant grantReply =>
    if preserve || badge ≠ 0 then null else endpoint ptr data send receive grant grantReply
  | notification ptr badge send receive =>
    if preserve || badge ≠ 0 then null else notification ptr data send receive
  | cnode ptr radix _ _ =>
    let guardSize := data % 2 ^ 6
    if wordBits < guardSize + radix then null
    else cnode ptr radix (data / 2 ^ 6 % 2 ^ guardSize) guardSize
  | cap => cap

end Cap

/-- What a copy of a capability may carry; the answer is null if it may not be copied. -/
def deriveCapForCopy (slot : Slot) (cap : Cap) : Kern Cap := do
  match cap with
  | .zombie .. | .irqControl | .ioPortControl | .reply .. => return .null
  | .untyped .. => if (← get).caps.mdbHasChildren slot then raise .revokeFirst else return cap
  | .frame base size rights dev .. => return .frame base size rights dev 0 0
  | .pageTable _ isMapped .. => if isMapped then return cap else raise .illegalOperation
  | _ => return cap

end Rel4
