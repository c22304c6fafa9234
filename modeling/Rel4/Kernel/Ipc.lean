import Rel4.Kernel.CnodeInvoke

/-! Message passing: rendezvous of senders and receivers, capability transfer, faults and replies. -/

namespace Rel4

/-- Words a message can hold. -/
def msgMaxLength : Nat := 120
/-- Extra capabilities a message can name. -/
def msgMaxExtraCaps : Nat := 3
/-- Message registers that are machine registers. -/
def nMsgRegisters : Nat := 4
/-- Where a buffer names its extra capabilities or holds the badges of unwrapped ones. -/
def capsOrBadges : Nat := 122
/-- Where a buffer names the node for a received capability. -/
def receiveCNode : Nat := 125
/-- Where a buffer names the slot in that node. -/
def receiveIndex : Nat := 126
/-- Where a buffer names the depth of that slot. -/
def receiveDepth : Nat := 127

/-- No extra capabilities. -/
def noExtraCaps : List (Option Slot) := List.replicate msgMaxExtraCaps none

/-- Resolve a capability pointer to a slot in a thread's space. -/
def KState.lookupSlotInTcb (s : KState) (tcb : Addr) (cptr : Word) : Option Slot :=
  s.caps.lookupSlotExact (s.cspaceCap tcb) cptr wordBits

/-- The empty slot a receiver named for an incoming capability. -/
def KState.getReceiveSlot (s : KState) (receiver : Addr) : Option Slot := do
  let buffer ← s.ipcBuffer receiver
  let rawDepth := s.bufferWord buffer receiveDepth
  let depth := if rawDepth = 0 then wordBits else rawDepth % 2 ^ 32
  let rootSlot ← s.lookupSlotInTcb receiver (s.bufferWord buffer receiveCNode)
  if wordBits < depth then none
  else
    let slot ← s.caps.lookupSlotExact (s.cap rootSlot) (s.bufferWord buffer receiveIndex) depth
    if (s.caps.ctes slot).isEmpty then some slot else none

/-- Resolve the extra capabilities a sender names, or report the pointer that failed. -/
def KState.snapshotExtraCapSlots (s : KState) (sender : Addr) (info : MessageInfo)
    (canGrant : Bool) : Except Word (List (Option Slot)) :=
  match canGrant, s.ipcBuffer sender with
  | true, some buffer =>
    let requested := min info.extraCaps msgMaxExtraCaps
    let resolve (i : Nat) : Except Word (Option Slot) :=
      let cptr := s.bufferWord buffer (capsOrBadges + i)
      match s.lookupSlotInTcb sender cptr with
      | some slot => .ok (some slot)
      | none => .error cptr
    ((List.range requested).mapM resolve).map (· ++ List.replicate (msgMaxExtraCaps - requested) none)
  | _, _ => .ok noExtraCaps

/-- What has come over so far: which capabilities were unwrapped, and how many were consumed. -/
structure CapTransfer where
  capsUnwrapped : Word := 0
  extraCaps : Nat := 0

/--
Transfer the named capabilities one after the other.

A capability to the endpoint of the message is unwrapped into its badge; at most one other is
inserted, into the slot the receiver named.
-/
def transferCapsFrom (buffer : Addr) (endpoint : Option Addr) :
    Nat → List (Option Slot) → Option Slot → CapTransfer → Kern CapTransfer
  | _, [], _, done => return done
  | _, none :: _, _, done => return done
  | i, some src :: rest, dest, done => do
    let srcCap := (← get).cap src
    if srcCap.isNull then return done
    let unwrapped := match srcCap, endpoint with
      | .endpoint ptr badge .., some ep => if ptr = ep ∧ ptr ≠ 0 then some badge else none
      | _, _ => none
    match unwrapped, dest with
    | some badge, dest =>
      setBufferWord buffer (capsOrBadges + i) badge
      transferCapsFrom buffer endpoint (i + 1) rest dest
        { capsUnwrapped := done.capsUnwrapped ||| 2 ^ i, extraCaps := i + 1 }
    | none, none => return done
    | none, some dest =>
      match ← attempt (deriveCapForCopy src srcCap) with
      | .error _ => return done
      | .ok derived =>
        if derived.isNull then return done
        if !((← get).caps.ctes dest).isEmpty then return done
        cteInsert src derived dest
        transferCapsFrom buffer endpoint (i + 1) rest none { done with extraCaps := i + 1 }

/-- Transfer the extra capabilities of a message. -/
def transferCaps (receiver : Addr) (info : MessageInfo) (endpoint : Option Addr) (canGrant : Bool)
    (extraCapSlots : List (Option Slot)) : Kern CapTransfer := do
  let s ← get
  let requested := min info.extraCaps msgMaxExtraCaps
  match canGrant, s.ipcBuffer receiver with
  | true, some buffer =>
    transferCapsFrom buffer endpoint 0 (extraCapSlots.take requested) (s.getReceiveSlot receiver) {}
  | _, _ => return {}

/-- Copy words of one buffer to another. -/
def copyBufferWords (src dst : Addr) (start count : Nat) : Kern Unit := do
  let s ← get
  if src ≠ dst ∧ start + count ≤ ipcBufferWords then
    setBufferWords dst start ((List.range count).map fun i => s.bufferWord src (start + i))

/-- Deliver a message: its words, the badge, the extra capabilities and the message info. -/
def transferMessage (sender receiver : Addr) (info : MessageInfo) (badge : Word)
    (endpoint : Option Addr) (canGrant : Bool) (extraCapSlots : List (Option Slot)) :
    Kern Unit := do
  let s ← get
  let length := min info.length msgMaxLength
  let mrs := (List.range (min length nMsgRegisters)).map
    ((s.threads.tcbs sender).context.mr s.env.arch)
  modifyContext receiver fun arch context => (context.setCapReg arch badge).setMrs arch mrs length
  let s ← get
  let transferred := match s.ipcBuffer sender, s.ipcBuffer receiver with
    | some _, some _ => length
    | _, _ => min length nMsgRegisters
  match s.ipcBuffer sender, s.ipcBuffer receiver with
  | some src, some dst =>
    if nMsgRegisters < length then
      copyBufferWords src dst (1 + nMsgRegisters) (length - nMsgRegisters)
  | _, _ => pure ()
  let caps ← transferCaps receiver info endpoint canGrant extraCapSlots
  let infoOut : MessageInfo :=
    { label := info.label, capsUnwrapped := caps.capsUnwrapped, extraCaps := caps.extraCaps,
      length := transferred }
  modifyContext receiver fun arch context => context.setMsgInfo arch infoOut.toWord

/-- Deliver a fault message. -/
def writeFaultIpcMessage (receiver : Addr) (badge label len : Word) (mrs : List Word) :
    Kern Unit := do
  let info : MessageInfo := { label, capsUnwrapped := 0, extraCaps := 0, length := len }
  modifyContext receiver fun arch context =>
    ((context.setCapReg arch badge).setMsgInfo arch info.toWord).setMrs arch mrs len
  match (← get).ipcBuffer receiver with
  | some buffer =>
    if nMsgRegisters < min len mrs.length then
      setBufferWords buffer (1 + nMsgRegisters) ((mrs.take len).drop nMsgRegisters)
  | none => pure ()

/-- Deliver the fault message a queued sender recorded. -/
def transferFaultMessage (sender receiver : Addr) (badge : Word) : Kern Unit := do
  let t := (← get).threads.tcbs sender
  writeFaultIpcMessage receiver badge t.faultLabel (min t.faultLen msgMaxLength) t.faultMrs

/-- Block a thread on an endpoint as a sender. -/
def blockSender (ep cur : Addr) (isCall : Bool) (badge : Word) (canGrant canGrantReply : Bool)
    (extraCapSlots : List (Option Slot)) : Kern Unit := do
  modifyThreads (·.dequeue cur)
  modifyTcb cur (·.setBlockedSender ep isCall badge canGrant canGrantReply extraCapSlots)
  modifyThreads (·.epEnqueueWaiter ep cur .sending)

/-- Block a thread on an endpoint as a receiver. -/
def blockReceiver (ep cur : Addr) (canGrant : Bool) : Kern Unit := do
  modifyThreads (·.dequeue cur)
  modifyTcb cur (·.setBlockedReceiver ep canGrant)
  modifyThreads (·.epEnqueueWaiter ep cur .receiving)

/-- Stop a thread that cannot be given a reply capability for its fault. -/
def stopFaulted (tcb : Addr) : Kern Unit :=
  modifyTcb tcb fun t => { t with state := .inactive, waitingOn := none }

/-- Let a caller wait for its reply. -/
def parkCallSender (sender receiver : Addr) (canGrant : Bool) : Kern Unit := do
  if ← setupCallerCap sender receiver canGrant then
    modifyTcb sender (·.finishCallSenderAfterRendezvous true)
  else if ((← get).threads.tcbs sender).senderIsFault then stopFaulted sender
  else modifyTcb sender Tcb.deactivateQueuedCallSender

/-- Write words of zero where a message would start in a buffer. -/
def clearBufferMrs (tcb : Addr) : Kern Unit := do
  match (← get).ipcBuffer tcb with
  | some buffer => setBufferWords buffer 1 (List.replicate nMsgRegisters 0)
  | none => pure ()

/-- Answer with a badge and no message. -/
def writeBadgeReply (uc buffered : Addr) (badge : Word) : Kern Unit := do
  modifyContext uc fun arch context =>
    ((context.setCapReg arch badge).setMsgInfo arch 0).clearMrs arch
  clearBufferMrs buffered

/-- Answer with nothing at all. -/
def writeEmptyReply (uc : Addr) : Kern Unit := do
  modifyContext uc fun arch context => ((context.setCapReg arch 0).setMsgInfo arch 0).clearMrs arch
  match (← get).threads.current with
  | some cur => clearBufferMrs cur
  | none => pure ()

/-- Collect the latched badge of a thread's bound notification. -/
def consumeBoundNotification (cur uc : Addr) : Kern Bool := do
  let s ← get
  match (s.threads.tcbs cur).boundNotification.bind s.threads.consumeActive with
  | some (badge, threads) =>
    set { s with threads }
    writeBadgeReply uc cur badge
    return true
  | none => return false

/-- Take the message of a queued sender. -/
def completeReceiveFromSender (cur sender ep : Addr) (receiverCanGrant : Bool) : Kern Unit := do
  let s ← get
  let t := s.threads.tcbs sender
  if t.senderIsFault then transferFaultMessage sender cur t.senderBadge
  else
    transferMessage sender cur (.ofWord (t.context.msgInfo s.env.arch)) t.senderBadge (some ep)
      t.senderCanGrant t.senderExtraCapSlots
  if t.senderIsCall then
    if t.senderCanGrant || t.senderCanGrantReply then parkCallSender sender cur receiverCanGrant
    else modifyTcb sender Tcb.deactivateQueuedCallSender
  else
    modifyTcb sender Tcb.wakeQueuedSender
    modifyThreads (·.enqueue s.env sender)

end Rel4
