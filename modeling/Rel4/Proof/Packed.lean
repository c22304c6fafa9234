import Rel4.Kernel.Packed
import Rel4.Kernel.Trap

/-!
Packed words lose nothing.

A packed capability is compared with the capability that its getters spell out: a constructor gives the one with its
arguments, and a setter changes just its own field of it.
-/

namespace Rel4

open Lib

section Pointers

/-- A pointer into one of the windows of the kernel. -/
def InWindow (p : Nat) : Prop := pptrBase ≤ p ∧ p < 2 ^ 64

variable {p : Nat}

theorem signExtend39_user (low : p < 2 ^ 38) : signExtend39 p = p := by
  have clear : p &&& (1 <<< 38) = 0 := by
    refine Nat.eq_of_testBit_eq fun i => ?_
    rw [Nat.testBit_and, Nat.one_shiftLeft, Nat.testBit_two_pow, Nat.zero_testBit]
    by_cases sign : 38 = i
    · subst sign
      simp [Nat.testBit_lt_two_pow low]
    · simp [sign]
  rw [signExtend39, if_neg (not_not.mpr clear)]

/-- The bits of a kernel pointer above its sign are all set. -/
theorem signExtend39_kernel (window : InWindow p) : signExtend39 (p % 549755813888) = p := by
  change signExtend39 (p % 2 ^ 39) = p
  have high : 0xFFFFFFC000000000 ≤ p := window.1
  have word : p < 2 ^ 64 := window.2
  have split : p = 33554431 <<< 39 + p % 2 ^ 39 := by
    rw [Nat.shiftLeft_eq]
    omega
  have low : p % 2 ^ 39 < 2 ^ 39 := Nat.mod_lt _ (by decide)
  have sign : p % 2 ^ 39 &&& (1 <<< 38) ≠ 0 := by
    intro clear
    have bit : (p % 2 ^ 39 &&& (1 <<< 38)).testBit 38 = true := by
      rw [Nat.testBit_and, Nat.one_shiftLeft, Nat.testBit_two_pow_self, Bool.and_true,
        Nat.testBit_eq_decide_div_mod_eq]
      have : p % 2 ^ 39 / 2 ^ 38 % 2 = 1 := by omega
      rw [this]
      rfl
    rw [clear] at bit
    simp at bit
  have mask : 0xFFFFFF8000000000 = 33554431 <<< 39 := by decide
  rw [signExtend39, if_pos sign, mask, Nat.or_comm, ← Nat.shiftLeft_add_eq_or_of_lt low, ← split]

/-- The low bits of an aligned pointer need not be stored. -/
theorem signExtend39_shift1 (window : InWindow p) (aligned : 2 ∣ p) :
    signExtend39 ((getField p 0 39 >>> 1 % 274877906944) <<< 1) = p := by
  have stored : (getField p 0 39 >>> 1 % 274877906944) <<< 1 = p % 549755813888 := by
    rw [getField_eq, Nat.shiftLeft_eq, Nat.shiftRight_eq_div_pow]
    omega
  rw [stored, signExtend39_kernel window]

theorem signExtend39_shift2 (window : InWindow p) (aligned : 4 ∣ p) :
    signExtend39 ((getField p 0 39 >>> 2 % 137438953472) <<< 2) = p := by
  have stored : (getField p 0 39 >>> 2 % 137438953472) <<< 2 = p % 549755813888 := by
    rw [getField_eq, Nat.shiftLeft_eq, Nat.shiftRight_eq_div_pow]
    omega
  rw [stored, signExtend39_kernel window]

end Pointers

@[simp] theorem VmRights.ofRaw_raw (rights : VmRights) :
    VmRights.ofRaw (rights.raw % 4) = some rights := by
  cases rights <;> rfl

@[simp] theorem FrameSize.ofRaw_raw (size : FrameSize) :
    FrameSize.ofRaw (size.raw % 4) = some size := by
  cases size <;> rfl

@[simp] theorem toNat_field (b : Bool) : (b.toNat % 2 == 1) = b := by
  cases b <;> rfl

/-- A value that a setter of a capability of this kind may be given. -/
def CapSetter.Fits : CapSetter → Cap → Prop
  | .untypedFreeIndex v, .untyped .. => v < 2 ^ 39
  | .zombieNumber number, .zombie _ type _ => type.bits < 64 ∧ number < 2 ^ (type.bits + 1)
  | .frameMappedAsid asid, .frame .. => asid < 2 ^ 16
  | .frameMappedAddr addr, .frame .. => addr < Arch.userTop .riscv64
  | .frameVmRights _, .frame .. => True
  | .pageTableMapping asid addr, .pageTable .. => asid < 2 ^ 16 ∧ addr < Arch.userTop .riscv64
  | .clearPageTableMapping, .pageTable .. | .clearPageTableIsMapped, .pageTable .. => True
  | .endpointBadge badge, .endpoint .. | .notificationBadge badge, .notification .. =>
    badge < 2 ^ 64
  | .replyCanGrant _, .reply .. => True
  | .clearEndpointSend, .endpoint .. | .clearEndpointReceive, .endpoint .. => True
  | .clearEndpointGrant, .endpoint .. | .clearEndpointGrantReply, .endpoint .. => True
  | .clearNotificationSend, .notification .. | .clearNotificationReceive, .notification .. => True
  | _, _ => False

/-- What a setter is for: one field of the capability changes, and nothing else. -/
def CapSetter.apply : CapSetter → Cap → Cap
  | .untypedFreeIndex v, .untyped ptr bits _ device => .untyped ptr bits v device
  | .zombieNumber number, .zombie ptr type _ => .zombie ptr type number
  | .frameMappedAsid asid, .frame base size rights device addr _ =>
    .frame base size rights device addr asid
  | .frameMappedAddr addr, .frame base size rights device _ asid =>
    .frame base size rights device addr asid
  | .frameVmRights rights, .frame base size _ device addr asid =>
    .frame base size rights device addr asid
  | .pageTableMapping asid addr, .pageTable base _ _ _ => .pageTable base true addr asid
  | .clearPageTableMapping, .pageTable base _ _ _ => .pageTable base false 0 0
  | .clearPageTableIsMapped, .pageTable base _ addr asid => .pageTable base false addr asid
  | .endpointBadge badge, .endpoint ptr _ s r g gr => .endpoint ptr badge s r g gr
  | .notificationBadge badge, .notification ptr _ s r => .notification ptr badge s r
  | .replyCanGrant canGrant, .reply tcb _ master => .reply tcb canGrant master
  | .clearEndpointSend, .endpoint ptr badge _ r g gr => .endpoint ptr badge false r g gr
  | .clearEndpointReceive, .endpoint ptr badge s _ g gr => .endpoint ptr badge s false g gr
  | .clearEndpointGrant, .endpoint ptr badge s r _ gr => .endpoint ptr badge s r false gr
  | .clearEndpointGrantReply, .endpoint ptr badge s r g _ => .endpoint ptr badge s r g false
  | .clearNotificationSend, .notification ptr badge _ r => .notification ptr badge false r
  | .clearNotificationReceive, .notification ptr badge s _ => .notification ptr badge s false
  | _, cap => cap

/-- The tag of the kind that a setter is for. -/
def CapSetter.tag : CapSetter → Nat
  | .untypedFreeIndex _ => 2
  | .zombieNumber _ => 18
  | .frameMappedAsid _ | .frameMappedAddr _ | .frameVmRights _ => 1
  | .pageTableMapping _ _ | .clearPageTableMapping | .clearPageTableIsMapped => 3
  | .endpointBadge _ | .clearEndpointSend | .clearEndpointReceive => 4
  | .clearEndpointGrant | .clearEndpointGrantReply => 4
  | .notificationBadge _ | .clearNotificationSend | .clearNotificationReceive => 6
  | .replyCanGrant _ => 8

namespace PackedCap

variable {raw : PackedCap} {op : CapSetter} {c : Cap}

theorem tagRaw_of_fits (holds : raw.decode = some c) (fits : op.Fits c) : raw.tagRaw = op.tag := by
  unfold decode at holds
  split at holds
  case h_2 tag =>
    obtain ⟨size, -, rights, -, ⟨⟩⟩ : ∃ size, _ ∧ ∃ rights, _ ∧ _ := by
      simpa [Option.bind_eq_some_iff] using holds
    cases op <;> first | exact tag | exact fits.elim
  all_goals cases holds <;> cases op <;> first | assumption | exact fits.elim

/-- No setter reaches the tag. -/
theorem tagRaw_set : (raw.set op).tagRaw = raw.tagRaw := by
  cases op <;> first
    | rfl
    | simp (disch := decide) only [tagRaw, set, set0, set1, clear0, getField_or,
      getField_setField_other,
        getField_clearField_other, getField_putField_other, Nat.or_zero]

/-- A setter changes its own field and keeps all the others. -/
theorem decode_set (raw : PackedCap) (c : Cap) (op : CapSetter) (holds : raw.decode = some c)
    (fits : op.Fits c) : (raw.set op).decode = some (op.apply c) := by
  have tag := tagRaw_of_fits holds fits
  rw [tagRaw] at tag
  cases op with
  | zombieNumber number =>
    have bits : (if raw.zombieIsTcb then ZombieType.tcb else .cnode raw.zombieType).bits =
        raw.zombieBits := by
      rw [zombieBits]
      split <;> rfl
    simp only [decode, tagRaw, tag, CapSetter.tag, Option.some.injEq] at holds
    subst holds
    simp only [CapSetter.Fits, bits] at fits
    have fit : 0 + (raw.zombieBits + 1) ≤ 64 := by omega
    have same : (raw.set1 0 (raw.zombieBits + 1) number).zombieBits = raw.zombieBits := rfl
    simp only [decode, tagRaw, CapSetter.apply, set, zombiePtr, zombieNumber, same]
    simp only [set1, tag, CapSetter.tag, getField_setField fit, clearField_setField fit,
      Nat.mod_eq_of_lt fits.2]
    rfl
  | frameMappedAsid | frameMappedAddr | frameVmRights =>
    obtain ⟨size, isSize, rights, isRights, ⟨⟩⟩ : ∃ size, _ ∧ ∃ rights, _ ∧ _ := by
      simpa [decode, tag, CapSetter.tag, Option.bind_eq_some_iff] using holds
    simp only [CapSetter.Fits, Arch.userTop] at fits
    simp (disch := omega) [decode, tag, CapSetter.tag, CapSetter.apply, set, Nat.mod_eq_of_lt,
      signExtend39_user, isSize, isRights]
  | _ =>
    simp only [decode, tagRaw, tag, CapSetter.tag, Option.some.injEq] at holds
    subst holds
    simp only [CapSetter.Fits, Arch.userTop] at fits
    simp (disch := omega) [decode, tag, CapSetter.tag, CapSetter.apply, set, Nat.mod_eq_of_lt,
      signExtend39_user]

end PackedCap

/-- The constructor of each kind. -/
def Cap.pack : Cap → PackedCap
  | .null => .null
  | .frame base size rights device _ _ => .newFrame base size.raw rights.raw device
  | .untyped ptr bits freeIndex device => .newUntyped ptr bits freeIndex device
  | .pageTable base _ _ _ => .newPageTable base
  | .endpoint ptr .. => .newEndpoint ptr
  | .notification ptr .. => .newNotification ptr
  | .reply tcb canGrant master => .newReply tcb canGrant master
  | .cnode ptr radix guard guardSize => .newCNode ptr radix guard guardSize
  | .asidControl => .newAsidControl
  | .thread ptr => .newThread ptr
  | .asidPool base ptr => .newAsidPool base ptr
  | .irqControl => .newIrqControl
  | .irqHandler irq => .newIrqHandler irq
  | .zombie ptr (.cnode radix) number => .newCNodeZombie number radix ptr
  | .zombie ptr .tcb number => .newTcbZombie number ptr
  | .domain => .newDomain
  | .ioPortControl => .newIoPortControl
  | .ioPort first last => .newIoPort first last

/-- Arguments in range, and for the fields that a constructor does not take the values that it gives them. -/
def Cap.Fresh : Cap → Prop
  | .frame base _ _ _ addr asid => InWindow base ∧ addr = 0 ∧ asid = 0
  | .untyped ptr bits freeIndex _ => InWindow ptr ∧ bits < 2 ^ 6 ∧ freeIndex < 2 ^ 39
  | .pageTable base mapped addr asid => InWindow base ∧ mapped = false ∧ addr = 0 ∧ asid = 0
  | .endpoint ptr badge s r g gr =>
    InWindow ptr ∧ badge = 0 ∧ s = true ∧ r = true ∧ g = true ∧ gr = true
  | .notification ptr badge s r => InWindow ptr ∧ badge = 0 ∧ s = true ∧ r = true
  | .reply tcb _ _ => tcb < 2 ^ 64
  | .cnode ptr radix guard guardSize =>
    InWindow ptr ∧ 2 ∣ ptr ∧ radix < 2 ^ 6 ∧ guard < 2 ^ 64 ∧ guardSize < 2 ^ 6
  | .thread ptr => InWindow ptr
  | .asidPool base ptr => base < 2 ^ 16 ∧ InWindow ptr ∧ 4 ∣ ptr
  | .irqHandler irq => irq < 2 ^ 12
  | .zombie ptr type number =>
    InWindow ptr ∧ 2 ^ (type.bits + 1) ∣ ptr ∧ type.bits < 2 ^ 6 ∧ number < 2 ^ (type.bits + 1)
  | .ioPort first last => first < 2 ^ 16 ∧ last < 2 ^ 16
  | .null | .asidControl | .irqControl | .domain | .ioPortControl => True

namespace PackedCap

@[simp] theorem getField_tcbType : getField 64 0 7 = 64 ∧ getField 64 59 5 = 0 := by
  simp [getField]

/-- The fields of every kind stay below its tag. -/
theorem tagRaw_pack (c : Cap) : c.pack.tagRaw = c.tagRaw := by
  unfold Cap.pack
  split <;> simp (disch := omega) [Cap.tagRaw]

/-- The getters give back what the constructor was given. -/
theorem decode_pack {c : Cap} (fresh : c.Fresh) : c.pack.decode = some c := by
  cases c with
  | zombie ptr type number =>
    obtain ⟨window, aligned, small, count⟩ := fresh
    have word := window.2
    have pointer : clearField ptr 0 (type.bits + 1) = ptr :=
      clearField_of_dvd (by omega) word aligned
    -- A thread has the one type that is no radix.
    cases type with
    | tcb =>
      have few : number < 32 := count
      simp only [ZombieType.bits, tcbCNodeRadix] at pointer
      simp (disch := omega) [decode, Cap.pack, tcbCNodeRadix, pointer, few]
    | cnode radix =>
      have narrow : radix % 128 = radix := Nat.mod_eq_of_lt (Nat.lt_trans small (by decide))
      have notTcb : radix ≠ 64 := Nat.ne_of_lt small
      simp only [ZombieType.bits] at pointer count small
      simp (disch := omega) [decode, Cap.pack, narrow, notTcb, pointer, Nat.mod_eq_of_lt count]
  | cnode ptr radix guard guardSize =>
    obtain ⟨window, aligned, small, -, size⟩ := fresh
    simp (disch := first | omega | assumption)
      [decode, Cap.pack, Nat.mod_eq_of_lt, signExtend39_shift1]
  | asidPool base ptr =>
    obtain ⟨small, window, aligned⟩ := fresh
    simp (disch := first | omega | assumption)
      [decode, Cap.pack, Nat.mod_eq_of_lt, signExtend39_shift2]
  | _ =>
    simp only [Cap.Fresh] at fresh
    simp (disch := first | omega | exact fresh.1 | assumption)
      [decode, Cap.pack, Nat.mod_eq_of_lt, fresh,
      signExtend39_kernel, signExtend39_user]

end PackedCap

section Nodes

/-- The link of a tree node: none, or an aligned slot. -/
def IsLink (next : Nat) : Prop := next = 0 ∨ InWindow next ∧ 4 ∣ next

def MdbSetter.Fits : MdbSetter → MdbFields → Prop
  | .prev v, _ => v < 2 ^ 64
  | .next v, _ => IsLink v
  | .revocable _, _ | .firstBadged _, _ => True

def MdbSetter.apply : MdbSetter → MdbFields → MdbFields
  | .prev v, m => { m with prev := v }
  | .next v, m => { m with next := v }
  | .revocable v, m => { m with revocable := v }
  | .firstBadged v, m => { m with firstBadged := v }

theorem signExtend39_link {next : Nat} (link : IsLink next) :
    signExtend39 ((next >>> 2 % 137438953472) <<< 2) = next := by
  rcases link with rfl | ⟨window, aligned⟩
  · rfl
  · have stored : (next >>> 2 % 137438953472) <<< 2 = next % 549755813888 := by
      rw [Nat.shiftLeft_eq, Nat.shiftRight_eq_div_pow]
      omega
    rw [stored, signExtend39_kernel window]

theorem PackedMdb.decode_new {m : MdbFields} (link : IsLink m.next) :
    (PackedMdb.new m.prev m.next m.revocable m.firstBadged).decode = m := by
  simp (disch := omega) [new, decode, signExtend39_link link]

theorem PackedMdb.decode_set (m : PackedMdb) (fields : MdbFields) (op : MdbSetter)
    (holds : m.decode = fields) (fits : op.Fits fields) : (m.set op).decode = op.apply fields := by
  subst holds
  cases op with
  | next v => simp (disch := omega) [set, decode, MdbSetter.apply, signExtend39_link fits]
  | _ => simp (disch := omega) [set, decode, MdbSetter.apply]

end Nodes

section Notifications

def NtfnSetter.Fits : NtfnSetter → Notification → Prop
  | .state _, _ => True
  | .badge b, _ => b < 2 ^ 64
  | .boundTcb tcb, _ | .head tcb, _ | .tail tcb, _ => ∀ p ∈ tcb, InWindow p

def NtfnSetter.apply : NtfnSetter → Notification → Notification
  | .state s, n => { n with state := s }
  | .badge b, n => { n with badge := b }
  | .boundTcb tcb, n => { n with boundTcb := tcb }
  | .head tcb, n => { n with ends := { n.ends with head := tcb } }
  | .tail tcb, n => { n with ends := { n.ends with tail := tcb } }

variable {tcb : Option Addr}

theorem InWindow.low_ne_zero {p : Nat} (window : InWindow p) : p % 549755813888 ≠ 0 := by
  have high : 0xFFFFFFC000000000 ≤ p := window.1
  have word : p < 2 ^ 64 := window.2
  omega

theorem InWindow.ne_zero {p : Nat} (window : InWindow p) : p ≠ 0 := by
  rintro rfl
  exact window.low_ne_zero rfl

theorem fromKva_kvaOrZero (window : ∀ p ∈ tcb, InWindow p) : fromKva (kvaOrZero tcb) = tcb := by
  cases tcb with
  | none => rfl
  | some p => exact if_neg (window p rfl).ne_zero

/-- The tail is cut to 39 bits, which are not all zero for a thread. -/
theorem stored_tail (window : ∀ p ∈ tcb, InWindow p) : (if kvaOrZero tcb % 2 ^ 39 = 0 then none
    else fromKva (signExtend39 (kvaOrZero tcb % 2 ^ 39))) = tcb := by
  cases tcb with
  | none => rfl
  | some p =>
    have inside : InWindow p := window p rfl
    change (if p % 549755813888 = 0 then none else fromKva (signExtend39 (p % 549755813888))) =
      some p
    rw [if_neg inside.low_ne_zero, signExtend39_kernel inside]
    exact if_neg inside.ne_zero

theorem PackedNotification.decode_set (n : PackedNotification) (ntfn : Notification)
    (op : NtfnSetter)
    (holds : n.decode = ntfn) (fits : op.Fits ntfn) : (n.set op).decode = op.apply ntfn := by
  subst holds
  cases op with
  | state state =>
    simp (disch := omega) only [set, decode, NtfnSetter.apply, getField_setField,
      getField_setField_other]
    cases state <;> rfl
  | badge badge => rfl
  | boundTcb tcb | head tcb =>
    simp only [set, decode, NtfnSetter.apply, fromKva_kvaOrZero fits]
    rfl
  | tail tcb =>
    simp (disch := omega) only [set, decode, NtfnSetter.apply, getField_setField,
      getField_setField_other]
    rw [stored_tail fits]

end Notifications

theorem PackedNotification.decode_empty : ({} : PackedNotification).decode = {} := by
  simp only [decode, getField_zero]
  rfl

theorem PackedCap.tagRaw_foldl (ops : List CapSetter) :
    ∀ raw : PackedCap, (ops.foldl PackedCap.set raw).tagRaw = raw.tagRaw := by
  induction ops with
  | nil => exact fun _ => rfl
  | cons op ops ih => exact fun raw => (ih (raw.set op)).trans tagRaw_set

/-- Whatever sequence of setters a packed value goes through, its getters follow the plain value, in which each setter changes
one field; the tag of a capability stays as its constructor made it. -/
theorem packed_words_lossless :
    (∀ (c : Cap) (ops : List CapSetter), c.Fresh → FitAlong CapSetter.Fits CapSetter.apply ops c →
      (ops.foldl PackedCap.set c.pack).decode = some (ops.foldl (fun c op => op.apply c) c) ∧
        (ops.foldl PackedCap.set c.pack).tagRaw = c.tagRaw) ∧
    (∀ (m : MdbFields) (ops : List MdbSetter), m.prev < 2 ^ 64 → IsLink m.next →
      FitAlong MdbSetter.Fits MdbSetter.apply ops m →
      (ops.foldl PackedMdb.set (.new m.prev m.next m.revocable m.firstBadged)).decode =
        ops.foldl (fun m op => op.apply m) m) ∧
    (∀ ops : List NtfnSetter, FitAlong NtfnSetter.Fits NtfnSetter.apply ops {} →
      (ops.foldl PackedNotification.set {}).decode = ops.foldl (fun n op => op.apply n) {}) := by
  refine ⟨fun c ops fresh fits =>
    ⟨?_, (PackedCap.tagRaw_foldl ops _).trans (PackedCap.tagRaw_pack c)⟩,
    fun m ops _ link fits => ?_, fun ops fits => ?_⟩
  · exact foldl_holds PackedCap.decode_set ops _ c (PackedCap.decode_pack fresh) fits
  · exact foldl_holds PackedMdb.decode_set ops _ m (PackedMdb.decode_new link) fits
  · exact foldl_holds PackedNotification.decode_set ops _ _ PackedNotification.decode_empty fits

/-- A page table is mapped at the highest page below the limit, and its words say so. -/
theorem packed_words_lossless_table :
    (Cap.pageTable 0xFFFFFFC080000000 false 0 0).Fresh ∧
      ((Cap.pageTable 0xFFFFFFC080000000 false 0 0).pack.set (.pageTableMapping 0xFFFF
        (2 ^ 38 - 2 ^ 12))).decode =
        some (.pageTable 0xFFFFFFC080000000 true (2 ^ 38 - 2 ^ 12) 0xFFFF) := by
  have fresh : (Cap.pageTable 0xFFFFFFC080000000 false 0 0).Fresh :=
    ⟨⟨by decide, by decide⟩, rfl, rfl, rfl⟩
  exact ⟨fresh, (packed_words_lossless.1 _ [.pageTableMapping 0xFFFF (2 ^ 38 - 2 ^ 12)] fresh
    ⟨⟨by decide, by decide⟩, trivial⟩).1⟩

end Rel4
