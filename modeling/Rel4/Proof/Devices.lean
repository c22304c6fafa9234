import Rel4.Host.Devices
import Rel4.Lib.Program
import Rel4.Proof.UntypedChunks

/-!
Device pages come from just the physical addresses that were asked for.

The regions of the host are compared with the blocks of the kernel: the cursor of each region is the
address that the kernel carves next, and the regions share out the device memory that was not handed
out.
-/

namespace Rel4.Host

open Function (update_of_ne update_self)
open Lib

section Kernel

theorem alignUp_of_dvd {v b : Nat} (aligned : 2 ^ b ∣ v) : alignUp v b = v := by
  have positive := Nat.two_pow_pos b
  have rest : (v + (2 ^ b - 1)) % 2 ^ b = 2 ^ b - 1 := by
    rw [Nat.add_mod, Nat.mod_eq_zero_of_dvd aligned, Nat.zero_add, Nat.mod_mod, Nat.mod_eq_of_lt (by omega)]
  rw [alignUp, alignDown, rest]
  omega

/-- A region stands for a block: its cursor is the free pointer of the kernel. -/
structure RootNode.BackedBy (node : RootNode) (region : DeviceRegion) (base bits index : Nat) : Prop where
  block : node.caps region.slot = .untyped (paddrToPptr base) bits index true
  aligned : 2 ^ bits ∣ base
  large : 12 ≤ bits
  bounded : bits ≤ maxUntypedBits
  cursor : base + (if node.hasChildren region.slot then index else 0) * 2 ^ minUntypedBits = region.cursorPa
  top : base + 2 ^ bits = region.topPa
  page : devicePage ∣ region.cursorPa
  word : region.topPa < 2 ^ 64

def RootNode.Backs (node : RootNode) (region : DeviceRegion) : Prop := ∃ base bits index, node.BackedBy region base bits index

variable {node node' : RootNode} {region : DeviceRegion} {type : ObjectType} {userSize b dest : Nat}

/-- What fits behind the cursor is no larger than the block. -/
theorem RootNode.BackedBy.smaller {base bits index : Nat} (backed : node.BackedBy region base bits index)
    (fits : region.cursorPa + 2 ^ b ≤ region.topPa) : b ≤ bits := by
  refine (Nat.pow_le_pow_iff_right (by decide : 1 < 2)).mp ?_
  have := backed.cursor
  have := backed.top
  omega

theorem RootNode.Backs.of_same (backs : node.Backs region) (caps : node'.caps region.slot = node.caps region.slot)
    (children : node'.hasChildren region.slot = node.hasChildren region.slot) : node'.Backs region := by
  obtain ⟨base, bits, index, backed⟩ := backs
  exact ⟨base, bits, index, { backed with block := caps.trans backed.block, cursor := children ▸ backed.cursor }⟩

/-- A block that nothing was carved from stands for all of its memory. -/
theorem RootNode.Backs.fresh {slot base bits : Nat} (block : node.caps slot = .untyped (paddrToPptr base) bits 0 true)
    (aligned : 2 ^ bits ∣ base) (large : 12 ≤ bits) (bounded : bits ≤ maxUntypedBits) (word : base + 2 ^ bits < 2 ^ 64) :
    node.Backs ⟨slot, base, base + 2 ^ bits⟩ :=
  ⟨base, bits, 0, block, aligned, large, bounded, by simp, rfl, (Nat.pow_dvd_pow 2 large).trans aligned, word⟩

theorem RootNode.carve_block {slot : Nat} {block object : Cap} (apart : slot ≠ dest) :
    (node.carve slot block dest object).caps slot = block ∧ (node.carve slot block dest object).hasChildren slot = true := by
  simp only [RootNode.carve, update_of_ne apart, update_self, and_self]

theorem RootNode.carve_other {slot other : Nat} {block object : Cap} (notBlock : other ≠ slot) (notDest : other ≠ dest) :
    (node.carve slot block dest object).caps other = node.caps other ∧
      (node.carve slot block dest object).hasChildren other = node.hasChildren other := by
  simp only [RootNode.carve, update_of_ne notDest, update_of_ne notBlock, and_self]

/-- The objects that the host makes of device memory, with their sizes. -/
def DeviceObject (type : ObjectType) (userSize b : Nat) : Prop :=
  type = .untyped ∧ userSize = b ∨ type = .frame .page4K ∧ userSize = 0 ∧ b = 12

/-- An object whose size divides the cursor is carved at the cursor. -/
theorem RootNode.retype_carves (backs : node.Backs region) (empty : node.caps dest = .null) (kind : DeviceObject type userSize b)
    (page : 12 ≤ b) (aligned : 2 ^ b ∣ region.cursorPa) (fits : region.cursorPa + 2 ^ b ≤ region.topPa) :
    ∃ node', node.retype region.slot type userSize dest = .ok node' ∧
      node'.Backs { region with cursorPa := region.cursorPa + 2 ^ b } ∧
      node'.caps dest = type.createCap (paddrToPptr region.cursorPa) userSize true ∧
      ∀ slot, slot ≠ region.slot → slot ≠ dest →
        node'.caps slot = node.caps slot ∧ node'.hasChildren slot = node.hasChildren slot := by
  obtain ⟨base, bits, index, backed⟩ := backs
  have apart : region.slot ≠ dest := by
    rintro same
    rw [← same, backed.block] at empty
    cases empty
  -- The object is no larger than the block, so its size divides the base as well.
  have smaller : b ≤ bits := backed.smaller fits
  have size : type.sizeBits userSize = b := by
    rcases kind with ⟨rfl, rfl⟩ | ⟨rfl, rfl, rfl⟩ <;> rfl
  generalize used_eq : (if node.hasChildren region.slot then index else 0) * 2 ^ minUntypedBits = used at *
  have cursor := used_eq ▸ backed.cursor
  have start : alignUp used b = used := by
    refine alignUp_of_dvd ((Nat.dvd_add_right ((Nat.pow_dvd_pow 2 smaller).trans backed.aligned)).mp ?_)
    rwa [cursor]
  have units : 2 ^ minUntypedBits ∣ used + 2 ^ b := by
    refine Nat.dvd_add ?_ (Nat.pow_dvd_pow 2 (le_trans (by decide) page))
    exact ⟨_, by rw [← used_eq, Nat.mul_comm]⟩
  have width : userSize ≤ b := by
    rcases kind with ⟨rfl, rfl⟩ | ⟨rfl, rfl, rfl⟩ <;> omega
  have bound := backed.bounded
  have limit : maxUntypedBits < wordBits := by decide
  have least : minUntypedBits ≤ 12 := by decide
  have top := backed.top
  refine ⟨node.carve region.slot (.untyped (paddrToPptr base) bits ((used + 2 ^ b) / 2 ^ minUntypedBits) true) dest
    (type.createCap (paddrToPptr base + used) userSize true), ?_, ?_⟩
  · unfold RootNode.retype
    rw [backed.block]
    dsimp only
    rw [size, used_eq, start, if_neg (by omega), if_neg, if_neg (by simp [empty]), if_neg (by omega), if_neg]
    · rcases kind with ⟨rfl, rfl⟩ | ⟨rfl, rfl, rfl⟩ <;> simp [ObjectType.deviceRetypeAllowed]
    · rcases kind with ⟨rfl, rfl⟩ | ⟨rfl, rfl, rfl⟩ <;> simp
      omega
  · refine ⟨⟨base, bits, (used + 2 ^ b) / 2 ^ minUntypedBits, {
        block := (RootNode.carve_block apart).1
        aligned := backed.aligned
        large := backed.large
        bounded := bound
        cursor := ?_
        top := top
        page := Nat.dvd_add backed.page (Nat.pow_dvd_pow 2 page)
        word := backed.word }⟩, ?_, fun slot => RootNode.carve_other⟩
    · rw [(RootNode.carve_block apart).2, if_pos rfl, Nat.div_mul_cancel units, ← Nat.add_assoc, cursor]
    · have address : paddrToPptr base + used = paddrToPptr region.cursorPa := by
        rw [← cursor]
        exact Nat.add_right_comm ..
      rw [address]
      exact update_self ..

end Kernel

/-- What can still be carved from a region. -/
def DeviceRegion.has (region : DeviceRegion) (a : Nat) : Bool := region.cursorPa ≤ a && a < region.topPa

theorem DeviceRegion.has_iff {region : DeviceRegion} {a : Nat} :
    region.has a = true ↔ region.cursorPa ≤ a ∧ a < region.topPa := by
  simp [DeviceRegion.has]

/-- The capability to a page of device memory. -/
def deviceFrame (pa : Nat) : Cap := .newFrame (paddrToPptr pa) .page4K .readWrite true

/-- The pages that were handed out stay where they are. -/
def RootNode.KeepsFrames (node node' : RootNode) : Prop :=
  ∀ slot pa, node.caps slot = deviceFrame pa → node'.caps slot = deviceFrame pa

/-- The regions stand for different blocks, each free address is in one region and any other in none, and spare slots are empty. -/
structure Tracks (node : RootNode) (spare : List Nat) (regions : List DeviceRegion) (Free : Nat → Prop) : Prop where
  backed : ∀ region ∈ regions, region.slot ≠ 0 ∧ node.Backs region
  slots : (regions.map (·.slot)).Nodup
  share : ∀ a, (Free a → regions.countP (·.has a) = 1) ∧ (¬ Free a → regions.countP (·.has a) = 0)
  distinct : spare.Nodup
  blank : ∀ slot ∈ spare, slot ≠ 0 ∧ node.caps slot = .null

section Tracks

variable {node : RootNode} {spare : List Nat} {regions rest : List DeviceRegion} {region : DeviceRegion} {Free : Nat → Prop}
  {type : ObjectType} {slot userSize b : Nat}

theorem Tracks.perm {regions' : List DeviceRegion} (tracks : Tracks node spare regions Free) (same : regions.Perm regions') :
    Tracks node spare regions' Free where
  backed region member := tracks.backed region (same.mem_iff.mpr member)
  slots := (same.map _).nodup_iff.mp tracks.slots
  share a := by
    rw [← same.countP_eq]
    exact tracks.share a
  distinct := tracks.distinct
  blank := tracks.blank

theorem Tracks.congr {Free' : Nat → Prop} (tracks : Tracks node spare regions Free) (same : ∀ a, Free a ↔ Free' a) :
    Tracks node spare regions Free' :=
  { tracks with share := fun a => by simpa only [same a] using tracks.share a }

/-- Carving an object leaves the other blocks, the spare slots and the pages that were handed out. -/
theorem Tracks.carve (tracks : Tracks node (slot :: spare) (region :: rest) Free) (kind : DeviceObject type userSize b)
    (page : 12 ≤ b) (aligned : 2 ^ b ∣ region.cursorPa) (fits : region.cursorPa + 2 ^ b ≤ region.topPa) :
    ∃ node', node.retype region.slot type userSize slot = .ok node' ∧ node.KeepsFrames node' ∧
      node'.caps slot = type.createCap (paddrToPptr region.cursorPa) userSize true ∧ slot ≠ 0 ∧ slot ∉ (region :: rest).map (·.slot) ∧
      Tracks node' spare (region.after (2 ^ b) :: rest)
        fun a => Free a ∧ ¬ (region.cursorPa ≤ a ∧ a < region.cursorPa + 2 ^ b) := by
  obtain ⟨nonzero, empty⟩ := tracks.blank slot List.mem_cons_self
  obtain ⟨first, others⟩ := List.forall_mem_cons.mp tracks.backed
  obtain ⟨node', carved, backs, object, same⟩ := RootNode.retype_carves first.2 empty kind page aligned fits
  -- No block is in an empty slot or in that of a page.
  have occupied : ∀ r ∈ region :: rest, ∀ other, node.caps other = .null ∨ (∃ pa, node.caps other = deviceFrame pa) →
      other ≠ r.slot := by
    rintro r member _ isOther rfl
    obtain ⟨base, bits, index, backed⟩ := (tracks.backed r member).2
    rw [backed.block] at isOther
    rcases isOther with is | ⟨pa, is⟩ <;> cases is
  have absent : slot ∉ (region :: rest).map (·.slot) := by
    intro member
    obtain ⟨r, present, is⟩ := List.mem_map.mp member
    exact occupied r present slot (.inl empty) is.symm
  refine ⟨node', carved, ?_, object, nonzero, absent, ?_⟩
  · intro other pa is
    refine (same other (occupied region List.mem_cons_self other (.inr ⟨pa, is⟩)) ?_).1.trans is
    rintro rfl
    rw [empty] at is
    cases is
  · refine { backed := List.forall_mem_cons.mpr ⟨⟨first.1, backs⟩, fun r member => ⟨(others r member).1, ?_⟩⟩,
             slots := tracks.slots, share := fun a => ?_, distinct := (List.nodup_cons.mp tracks.distinct).2,
             blank := fun other member => ?_ }
    · have different : r.slot ≠ region.slot := fun is =>
        (List.nodup_cons.mp tracks.slots).1 (List.mem_map.mpr ⟨r, member, is⟩)
      have present := List.mem_map_of_mem (f := (·.slot)) (List.mem_cons_of_mem region member)
      obtain ⟨caps, children⟩ := same r.slot different fun is => absent (is ▸ present)
      exact (others r member).2.of_same caps children
    · have before := tracks.share a
      rw [List.countP_cons] at before ⊢
      simp only [DeviceRegion.has_iff, DeviceRegion.after] at before ⊢
      by_cases free : Free a
      · have one := before.1 free
        refine ⟨fun left => ?_, fun gone => ?_⟩
        · have outside := left.2
          split_ifs at one ⊢ <;> omega
        · have hole := not_not.mp (not_and.mp gone free)
          split_ifs at one ⊢ <;> omega
      · have zero := before.2 free
        refine ⟨fun left => absurd left.1 free, fun _ => ?_⟩
        split_ifs at zero ⊢ <;> omega
    · obtain ⟨nonzero, isNull⟩ := tracks.blank other (List.mem_cons_of_mem _ member)
      refine ⟨nonzero, (same other (occupied region List.mem_cons_self other (.inl isNull)) ?_).1.trans isNull⟩
      rintro rfl
      exact (List.nodup_cons.mp tracks.distinct).1 member

/-- A block that covers memory which no region has joins the regions. -/
theorem Tracks.push (tracks : Tracks node spare regions Free) (backs : node.Backs region) (nonzero : region.slot ≠ 0)
    (fresh : region.slot ∉ regions.map (·.slot)) (hole : ∀ a, region.has a = true → ¬ Free a) :
    Tracks node spare (region :: regions) fun a => Free a ∨ region.has a = true := by
  refine { tracks with backed := List.forall_mem_cons.mpr ⟨⟨nonzero, backs⟩, tracks.backed⟩,
                       slots := List.nodup_cons.mpr ⟨fresh, tracks.slots⟩, share := fun a => ?_ }
  have before := tracks.share a
  rw [List.countP_cons]
  by_cases inside : region.has a = true
  · simp [inside, before.2 (hole a inside)]
  · simpa [inside] using before

end Tracks

/-- The slots that can still be filled, in the order in which they are taken. -/
def DeviceHost.spareSlots (h : DeviceHost) : List Nat :=
  h.recycled ++ List.range' h.nextSlot (h.emptyEnd - h.nextSlot)

section Yields

variable {α β : Type} {prog : DeviceM α} {rest : α → DeviceM β} {P : α → DeviceHost → Prop}
  {Q : β → DeviceHost → Prop} {h : DeviceHost}

/-- The host halts as one of its two tables is full. -/
def TableFull (halt : DeviceHalt) (h : DeviceHost) : Prop :=
  halt = .outOfSlots ∧ h.spareSlots = [] ∨
    halt = .tooManyRegions ∧ maxDeviceRegions ≤ h.deviceRegions.length

/-- What a call yields, unless one of the two tables of the host is full. -/
abbrev Yields (prog : DeviceM α) (P : α → DeviceHost → Prop) (h : DeviceHost) : Prop :=
  wp prog P TableFull h

theorem Yields.bind (first : Yields prog P h) (next : ∀ a h', P a h' → Yields (rest a) Q h') :
    Yields (prog >>= rest) Q h :=
  (wp_bind prog rest).mpr (wp_mono first next fun _ _ => id)

theorem Yields.mono {P' : α → DeviceHost → Prop} (yields : Yields prog P h)
    (weaker : ∀ a h', P a h' → P' a h') : Yields prog P' h :=
  wp_mono yields weaker fun _ _ => id

end Yields

namespace DeviceHost

/-- The host and the kernel agree on the device memory that is free. -/
def Agrees (h : DeviceHost) (Free : Nat → Prop) : Prop :=
  Tracks h.node h.spareSlots h.deviceRegions Free

variable {h : DeviceHost} {Free : Nat → Prop} {region : DeviceRegion} {type : ObjectType}
  {i userSize b paddr : Nat}

/-- A slot is the first of the spare ones, and nothing else changes. -/
theorem allocSlot_yields :
    Yields allocSlot (fun slot h' => h.spareSlots = slot :: h'.spareSlots ∧
      h'.deviceRegions = h.deviceRegions ∧ h'.node = h.node) h := by
  simp only [allocSlot, wp_bind, wp_get]
  cases is : h.recycled with
  | cons slot rest => exact ⟨by simp only [spareSlots, is, List.cons_append], rfl, rfl⟩
  | nil =>
    simp only [wp_ite, wp_throw, wp_pure, wp_bind, wp_set]
    refine ⟨fun full => .inl ⟨rfl, ?_⟩, fun room => ⟨?_, trivial, trivial⟩⟩
    · simp [spareSlots, is, full]
    · have length : h.emptyEnd - h.nextSlot = h.emptyEnd - (h.nextSlot + 1) + 1 := by omega
      simp only [spareSlots, is, List.nil_append]
      rw [length, List.range'_succ]

/-- The region at a position, and the others. -/
theorem perm_cons (here : h.deviceRegions[i]? = some region) :
    ∃ rest, h.deviceRegions.Perm (region :: rest) ∧
      ∀ f, (h.deviceRegions.modify i f).Perm (f region :: rest) := by
  obtain ⟨small, rfl⟩ := List.getElem?_eq_some_iff.mp here
  refine ⟨h.deviceRegions.take i ++ h.deviceRegions.drop (i + 1), ?_, fun f => ?_⟩
  · refine List.Perm.trans (.of_eq ?_) List.perm_middle
    rw [← List.drop_eq_getElem_cons small, List.take_append_drop]
  · rw [List.modify_eq_take_cons_drop small]
    exact List.perm_middle

theorem region_eq (here : h.deviceRegions[i]? = some region) : h.region i = region := by
  rw [DeviceHost.region, List.getD_eq_getElem?_getD, here, Option.getD_some]

/-- The block that is split off starts at the cursor, ends by the address and is a page at least. -/
theorem largestAlignedChunkBits_yields {cursor : Nat} (page : devicePage ∣ cursor)
    (target : devicePage ∣ paddr) (behind : cursor < paddr) (word : paddr < 2 ^ 64) :
    Yields (largestAlignedChunkBits cursor (paddr - cursor)) (fun bits h' => h' = h ∧ 12 ≤ bits ∧
      2 ^ bits ∣ cursor ∧ cursor + 2 ^ bits ≤ paddr) h := by
  have room : 2 ^ 12 ≤ paddr - cursor := Nat.le_of_dvd (by omega) (Nat.dvd_sub target page)
  have bySize : 12 ≤ Nat.log2 (paddr - cursor) := (Nat.le_log2 (by omega)).mpr room
  generalize align : (if cursor = 0 then 63 else trailingZeros cursor) = byAlign
  have large : 12 ≤ byAlign ∧ ∀ bits ≤ byAlign, 2 ^ bits ∣ cursor := by
    rw [← align]
    split
    · rename_i zero
      exact ⟨by decide, fun _ _ => zero ▸ Nat.dvd_zero _⟩
    · rename_i nonzero
      have divides {bits} := le_trailingZeros_iff (k := bits) nonzero (by omega)
      exact ⟨divides.mpr page, fun bits => divides.mp⟩
  simp only [largestAlignedChunkBits, align, wp_bind, wp_ite, wp_throw, wp_pure]
  have enough := le_min bySize large.1
  refine ⟨fun short => absurd enough (by omega), fun _ => ⟨trivial, enough, ?_, ?_⟩⟩
  · exact large.2 _ (min_le_right _ _)
  · have fits := (Nat.le_log2 (by omega)).mp (min_le_left (Nat.log2 (paddr - cursor)) byAlign)
    omega

/-- A region that a page can be taken from. -/
structure RoomFor (region : DeviceRegion) (paddr : Nat) : Prop where
  target : devicePage ∣ paddr
  reached : region.cursorPa ≤ paddr
  fits : paddr + devicePage ≤ region.topPa

theorem modify_concat {new : DeviceRegion} {f : DeviceRegion → DeviceRegion} :
    ∀ {regions : List DeviceRegion} {i : Nat}, i < regions.length →
      (regions ++ [new]).modify i f = regions.modify i f ++ [new]
  | _ :: _, 0, _ => rfl
  | r :: _, _ + 1, small => congrArg (r :: ·) (modify_concat (Nat.lt_of_succ_lt_succ small))

/-- What a call for an object at the cursor of a region comes to. -/
theorem Agrees.retypeOneFrom {rest : List DeviceRegion} (agrees : h.Agrees Free)
    (perm : h.deviceRegions.Perm (region :: rest)) (kind : DeviceObject type userSize b)
    (page : 12 ≤ b) (aligned : 2 ^ b ∣ region.cursorPa)
    (fits : region.cursorPa + 2 ^ b ≤ region.topPa) :
    Yields (retypeOneFrom region.slot type userSize) (fun slot h' =>
      h'.deviceRegions = h.deviceRegions ∧ h.node.KeepsFrames h'.node ∧
      h'.node.caps slot = type.createCap (paddrToPptr region.cursorPa) userSize true ∧
      slot ≠ 0 ∧ slot ∉ (region :: rest).map (·.slot) ∧
      Tracks h'.node h'.spareSlots (region.after (2 ^ b) :: rest)
        fun a => Free a ∧ ¬ (region.cursorPa ≤ a ∧ a < region.cursorPa + 2 ^ b)) h := by
  refine allocSlot_yields.bind fun slot h₁ out => ?_
  obtain ⟨spare, regions, node⟩ := out
  have tracks := agrees.perm perm
  rw [spare] at tracks
  obtain ⟨node', carved, rest⟩ := tracks.carve kind page aligned fits
  simp only [wp_bind, wp_get, node, carved]
  exact ⟨regions, rest⟩

/-- A round keeps the free memory and brings the cursor closer. -/
theorem Agrees.skipRound (agrees : h.Agrees Free) (here : h.deviceRegions[i]? = some region)
    (room : RoomFor region paddr) (behind : region.cursorPa < paddr) :
    Yields (skipRound i paddr) (fun _ h' => h'.Agrees Free ∧ h.node.KeepsFrames h'.node ∧
      ∃ size, h'.deviceRegions[i]? = some (region.after size) ∧ 0 < size ∧
        region.cursorPa + size ≤ paddr) h := by
  obtain ⟨-, base, blockBits, index, backed⟩ := agrees.backed region (List.mem_of_getElem? here)
  have inside := room.fits
  have word := backed.word
  obtain ⟨rest, perm, modified⟩ := perm_cons here
  simp only [Host.skipRound, wp_bind, wp_get, region_eq here]
  refine wp_mono (largestAlignedChunkBits_yields backed.page room.target behind (by omega))
    (fun bits h₀ split => ?_) fun _ _ => id
  obtain ⟨rfl, large, aligned, fits⟩ := split
  refine wp_mono (agrees.retypeOneFrom perm (.inl ⟨rfl, rfl⟩) large aligned (by omega))
    (fun slot h₁ out => ?_) fun _ _ => id
  obtain ⟨regions, keeps, object, nonzero, fresh, tracks⟩ := out
  simp only [addDeviceRegion, wp_bind, wp_get, wp_ite, wp_throw, wp_set, wp_modify]
  refine ⟨fun full => .inr ⟨rfl, full⟩, fun _ => ?_⟩
  have smaller : bits ≤ blockBits := backed.smaller (by omega)
  -- The new region takes over what the old one lost.
  have pushed := tracks.push
    (.fresh object aligned large (le_trans smaller backed.bounded) (by omega)) nonzero fresh
    fun a has free => free.2 (DeviceRegion.has_iff.mp has)
  have small : i < h₁.deviceRegions.length := by
    rw [regions]
    exact (List.getElem?_eq_some_iff.mp here).1
  refine ⟨(pushed.perm ?_).congr fun a => ?_, keeps, 2 ^ bits, ?_, Nat.two_pow_pos bits, fits⟩
  · dsimp only [advance]
    rw [modify_concat small, regions]
    exact ((modified (·.after (2 ^ bits))).cons _).symm.trans (List.perm_append_singleton _ _).symm
  · rw [DeviceRegion.has_iff]
    constructor
    · rintro (⟨free, -⟩ | has)
      · exact free
      · -- What was split off was free in the old region.
        by_contra gone
        have none := List.countP_eq_zero.mp ((agrees.share a).2 gone) region
          (List.mem_of_getElem? here)
        refine none (DeviceRegion.has_iff.mpr ⟨has.1, lt_of_lt_of_le has.2 ?_⟩)
        dsimp only
        omega
    · intro free
      by_cases hole : region.cursorPa ≤ a ∧ a < region.cursorPa + 2 ^ bits
      · exact .inr hole
      · exact .inl ⟨free, hole⟩
  · rw [advance, List.getElem?_modify, List.getElem?_append_left small, regions, here]
    simp [DeviceRegion.after]

/-- The loop ends with the cursor at the address. -/
theorem Agrees.skipTo (rounds : Nat) : ∀ {h : DeviceHost} {region : DeviceRegion}, h.Agrees Free →
    h.deviceRegions[i]? = some region → RoomFor region paddr → paddr - region.cursorPa ≤ rounds →
    Yields (skipTo i paddr rounds) (fun _ h' => h'.Agrees Free ∧ h.node.KeepsFrames h'.node ∧
      h'.deviceRegions[i]? = some { region with cursorPa := paddr }) h := by
  -- Each round moves the cursor by at least one.
  induction rounds with
  | zero =>
    intro h region agrees here room enough
    have arrived : region.cursorPa = paddr := le_antisymm room.reached (by omega)
    exact ⟨agrees, fun _ _ is => is, by rw [here, ← arrived]⟩
  | succ rounds ih =>
    intro h region agrees here room enough
    simp only [Host.skipTo, wp_bind, wp_get, wp_ite, wp_pure, region_eq here]
    refine ⟨fun behind => ?_, fun arrived => ?_⟩
    · refine wp_mono (agrees.skipRound here room behind) (fun _ h₁ out => ?_) fun _ _ => id
      obtain ⟨agrees₁, keeps, size, here₁, moved, below⟩ := out
      have closer : paddr - (region.after size).cursorPa ≤ rounds := by
        simp only [DeviceRegion.after]
        omega
      refine (ih agrees₁ here₁ ⟨room.target, below, room.fits⟩ closer).mono fun _ h₂ out => ?_
      exact ⟨out.1, fun slot pa is => out.2.1 slot pa (keeps slot pa is), out.2.2⟩
    · have arrived : region.cursorPa = paddr := le_antisymm room.reached (by omega)
      exact ⟨agrees, fun _ _ is => is, by rw [here, ← arrived]⟩

/-- The search ends with what it started with or with a region that suits, and with nothing larger than any that suits. -/
theorem foldl_smaller (regions : List DeviceRegion) : ∀ (k : Nat) (best : Option Nat × Nat),
    let out := (regions.zipIdx k).foldl (smaller paddr) best
    (out = best ∨ ∃ (i : Nat) (region : DeviceRegion), regions[i]? = some region ∧ region.Suits paddr ∧ out.1 = some (k + i)) ∧
      out.2 ≤ best.2 ∧ ∀ region ∈ regions, region.Suits paddr → out.2 ≤ region.topPa - region.cursorPa := by
  induction regions with
  | nil => exact fun k best => ⟨.inl rfl, le_rfl, by simp⟩
  | cons r regions ih =>
    intro k best
    rw [List.zipIdx_cons, List.foldl_cons]
    obtain ⟨found, least, all⟩ := ih (k + 1) (smaller paddr best (r, k))
    have turn : smaller paddr best (r, k) = best ∧ (r.Suits paddr → best.2 ≤ r.topPa - r.cursorPa) ∨
        r.Suits paddr ∧ smaller paddr best (r, k) = (some k, r.topPa - r.cursorPa) ∧ r.topPa - r.cursorPa < best.2 := by
      unfold smaller
      dsimp only
      split
      · rename_i taken
        exact .inr ⟨taken.1, rfl, taken.2⟩
      · rename_i left
        exact .inl ⟨rfl, fun suits => Nat.le_of_not_lt fun less => left ⟨suits, less⟩⟩
    have later : ∀ {o : Option Nat}, (∃ (i : Nat) (region : DeviceRegion), regions[i]? = some region ∧ region.Suits paddr ∧
        o = some (k + 1 + i)) →
        ∃ (i : Nat) (region : DeviceRegion), (r :: regions)[i]? = some region ∧ region.Suits paddr ∧ o = some (k + i) := by
      rintro o ⟨i, region, here, suits, is⟩
      exact ⟨i + 1, region, here, suits, by rw [is, Nat.add_right_comm, Nat.add_assoc]⟩
    rcases turn with ⟨same, large⟩ | ⟨suits, taken, less⟩
    · rw [same] at found least all ⊢
      exact ⟨found.imp_right later, least, List.forall_mem_cons.mpr ⟨fun suits => le_trans least (large suits), all⟩⟩
    · rw [taken] at found least all ⊢
      refine ⟨.inr ?_, le_trans least (le_of_lt less), List.forall_mem_cons.mpr ⟨fun _ => least, all⟩⟩
      rcases found with same | found
      · exact ⟨0, r, rfl, suits, by rw [same]; rfl⟩
      · exact later found

/-- A free page is found in a region that has room for it. -/
theorem Agrees.find (agrees : h.Agrees Free) (target : devicePage ∣ paddr) (free : Free paddr) :
    ∃ i region, h.findDeviceRegion paddr = some i ∧ h.deviceRegions[i]? = some region ∧ RoomFor region paddr := by
  have room : ∀ region ∈ h.deviceRegions, region.cursorPa ≤ paddr → paddr < region.topPa →
      RoomFor region paddr ∧ region.topPa < 2 ^ 64 - 1 := by
    intro region member reached below
    obtain ⟨-, base, bits, index, backed⟩ := agrees.backed region member
    have last : devicePage ∣ region.topPa := by
      rw [← backed.top]
      have pages : devicePage ∣ 2 ^ bits := Nat.pow_dvd_pow 2 backed.large
      exact Nat.dvd_add (pages.trans backed.aligned) pages
    have word := backed.word
    unfold devicePage at target last
    exact ⟨⟨target, reached, by unfold devicePage; omega⟩, by omega⟩
  have one := (agrees.share paddr).1 free
  obtain ⟨region, member, has⟩ := List.countP_pos_iff.mp (one ▸ Nat.one_pos)
  rw [DeviceRegion.has_iff] at has
  obtain ⟨fits, word⟩ := room region member has.1 has.2
  have suits : region.Suits paddr := ⟨(agrees.backed region member).1, has.1, le_trans (min_le_left _ _) fits.fits⟩
  obtain ⟨found, -, least⟩ := foldl_smaller h.deviceRegions 0 (none, 2 ^ 64 - 1)
  have small := least region member suits
  rcases found with same | ⟨i, chosen, here, fit, is⟩
  · rw [same] at small
    dsimp only at small
    omega
  · rw [Nat.zero_add] at is
    refine ⟨i, chosen, is, here, (room chosen (List.mem_of_getElem? here) fit.2.1 ?_).1⟩
    have edge := fit.2.2
    have room := fits.fits
    unfold devicePage at edge room
    omega

/-- One request hands out just the page that it names. -/
theorem Agrees.retypeDevice4kAt (agrees : h.Agrees Free) (target : devicePage ∣ paddr)
    (free : Free paddr) :
    Yields (retypeDevice4kAt paddr) (fun frame h' => h'.node.caps frame = deviceFrame paddr ∧
      h.node.KeepsFrames h'.node ∧
      h'.Agrees fun a => Free a ∧ ¬ (paddr ≤ a ∧ a < paddr + devicePage)) h := by
  obtain ⟨i, region, found, here, room⟩ := agrees.find target free
  have page : ¬ paddr % devicePage ≠ 0 := not_not.mpr (Nat.mod_eq_zero_of_dvd target)
  simp only [Host.retypeDevice4kAt, page, if_false, wp_bind, wp_pure, wp_get, found, wp_modify]
  refine wp_mono (Agrees.skipTo paddr agrees here room (Nat.sub_le _ _)) (fun _ h₁ out => ?_)
    fun _ _ => id
  obtain ⟨agrees₁, keeps, here₁⟩ := out
  obtain ⟨rest, perm, modified⟩ := perm_cons here₁
  rw [region_eq here₁]
  refine (agrees₁.retypeOneFrom perm (.inr ⟨rfl, rfl, rfl⟩) le_rfl target room.fits).mono
    fun frame h₂ out => ?_
  obtain ⟨regions, kept, object, -, -, tracks⟩ := out
  refine ⟨object, fun slot pa is => kept slot pa (keeps slot pa is), tracks.perm ?_⟩
  dsimp only [advance]
  rw [regions]
  exact (modified (·.after (2 ^ 12))).symm

/-- Requests for pages that are free and differ. -/
theorem Agrees.retypeAll (paddrs : List Nat) : ∀ {h : DeviceHost} {Free : Nat → Prop},
    h.Agrees Free → paddrs.Nodup → (∀ paddr ∈ paddrs, devicePage ∣ paddr ∧ Free paddr) →
    Yields (retypeAll paddrs) (fun frames h' =>
      List.Forall₂ (fun paddr frame => h'.node.caps frame = deviceFrame paddr) paddrs frames ∧
      h.node.KeepsFrames h'.node ∧
      h'.Agrees fun a => Free a ∧ ∀ paddr ∈ paddrs, ¬ (paddr ≤ a ∧ a < paddr + devicePage)) h := by
  induction paddrs with
  | nil => exact fun agrees _ _ => ⟨.nil, fun _ _ is => is, agrees.congr fun a => by simp⟩
  | cons paddr rest ih =>
    intro h Free agrees distinct pages
    obtain ⟨first, distinct⟩ := List.nodup_cons.mp distinct
    obtain ⟨target, free⟩ := pages paddr List.mem_cons_self
    refine (agrees.retypeDevice4kAt target free).bind fun frame h₁ out => ?_
    obtain ⟨object, keeps, agrees₁⟩ := out
    refine (ih agrees₁ distinct fun other member => ?_).bind fun frames h₂ out => ?_
    · obtain ⟨page, free⟩ := pages other (List.mem_cons_of_mem _ member)
      refine ⟨page, free, fun inside => first ?_⟩
      -- Two pages that share an address are one.
      unfold devicePage at *
      obtain rfl : paddr = other := by omega
      exact member
    · obtain ⟨objects, kept, agrees₂⟩ := out
      refine ⟨.cons (kept frame paddr object) objects,
        fun slot pa is => kept slot pa (keeps slot pa is), agrees₂.congr fun a => ?_⟩
      simp only [List.forall_mem_cons, and_assoc]

end DeviceHost

section Boot

def UntypedDesc.has (desc : UntypedDesc) (a : Nat) : Bool := desc.paddr ≤ a && a < desc.paddr + 2 ^ desc.sizeBits

/-- Device memory that pages can be taken from; a block below a page is left out. -/
def UntypedDesc.offers (desc : UntypedDesc) (a : Nat) : Bool := desc.isDevice && 12 ≤ desc.sizeBits && desc.has a

/-- The start of the host: disjoint device blocks, aligned to their sizes as the kernel cuts them, and empty slots. -/
structure Booted (first : Nat) (descs : List UntypedDesc) (h : DeviceHost) : Prop where
  recorded : h.deviceRegions = bootRegions first descs
  nonzero : first ≠ 0
  caps : ∀ (k : Nat) (desc : UntypedDesc), descs[k]? = some desc →
    h.node.caps (first + k) = .untyped (paddrToPptr desc.paddr) desc.sizeBits 0 desc.isDevice
  blocks : ∀ desc ∈ descs, 2 ^ desc.sizeBits ∣ desc.paddr ∧ desc.sizeBits ≤ maxUntypedBits ∧
    desc.paddr + 2 ^ desc.sizeBits < 2 ^ 64
  disjoint : ∀ a, descs.countP (fun desc => desc.isDevice && desc.has a) ≤ 1
  distinct : h.spareSlots.Nodup
  blank : ∀ slot ∈ h.spareSlots, slot ≠ 0 ∧ h.node.caps slot = .null

/-- The regions of a boot list, by its entries. -/
theorem bootRegions_spec (descs : List UntypedDesc) : ∀ first : Nat,
    (∀ desc ∈ descs, desc.paddr + 2 ^ desc.sizeBits < 2 ^ 64) →
      (∀ r ∈ bootRegions first descs, ∃ (k : Nat) (desc : UntypedDesc), descs[k]? = some desc ∧ desc.isDevice = true ∧
        12 ≤ desc.sizeBits ∧ r = ⟨first + k, desc.paddr, desc.paddr + 2 ^ desc.sizeBits⟩) ∧
      ((bootRegions first descs).map (·.slot)).Nodup ∧
      ∀ a, (bootRegions first descs).countP (·.has a) = descs.countP (·.offers a) := by
  induction descs with
  | nil => exact fun first _ => ⟨by simp [bootRegions], by simp [bootRegions], fun a => rfl⟩
  | cons desc descs ih =>
    intro first words
    obtain ⟨word, words⟩ := List.forall_mem_cons.mp words
    obtain ⟨entries, nodup, counts⟩ := ih (first + 1) words
    have later : ∀ r ∈ bootRegions (first + 1) descs, ∃ (k : Nat) (d : UntypedDesc), (desc :: descs)[k]? = some d ∧
        d.isDevice = true ∧ 12 ≤ d.sizeBits ∧ r = ⟨first + k, d.paddr, d.paddr + 2 ^ d.sizeBits⟩ := by
      intro r member
      obtain ⟨k, d, here, device, large, rfl⟩ := entries r member
      exact ⟨k + 1, d, here, device, large, by rw [Nat.add_right_comm, Nat.add_assoc]⟩
    unfold bootRegions
    rw [Nat.min_eq_left (by omega)]
    split
    · rename_i recorded
      refine ⟨List.forall_mem_cons.mpr ⟨⟨0, desc, rfl, recorded.1, recorded.2, rfl⟩, later⟩,
        List.nodup_cons.mpr ⟨fun member => ?_, nodup⟩, fun a => ?_⟩
      · obtain ⟨r, present, is⟩ := List.mem_map.mp member
        obtain ⟨k, d, -, -, -, rfl⟩ := entries r present
        dsimp only at is
        omega
      · rw [List.countP_cons, List.countP_cons, counts]
        simp [UntypedDesc.offers, recorded.1, recorded.2, UntypedDesc.has, DeviceRegion.has]
    · rename_i other
      refine ⟨later, nodup, fun a => ?_⟩
      have none : ¬ desc.offers a = true := by
        simp only [UntypedDesc.offers, Bool.and_eq_true, decide_eq_true_eq]
        exact fun both => other both.1
      rw [counts, List.countP_cons, if_neg none, Nat.add_zero]

theorem Booted.agrees {first : Nat} {descs : List UntypedDesc} {h : DeviceHost} (booted : Booted first descs h) :
    h.Agrees fun a => ∃ desc ∈ descs, desc.offers a = true := by
  obtain ⟨entries, nodup, counts⟩ := bootRegions_spec descs first fun desc member => (booted.blocks desc member).2.2
  rw [← booted.recorded] at entries nodup counts
  refine { backed := fun r member => ?_, slots := nodup, share := fun a => ?_, distinct := booted.distinct,
           blank := booted.blank }
  · obtain ⟨k, desc, here, device, large, rfl⟩ := entries r member
    obtain ⟨aligned, bounded, word⟩ := booted.blocks desc (List.mem_of_getElem? here)
    have nonzero := booted.nonzero
    exact ⟨by dsimp only; omega, .fresh (device ▸ booted.caps k desc here) aligned large bounded word⟩
  · have few : descs.countP (·.offers a) ≤ descs.countP fun desc => desc.isDevice && desc.has a :=
      List.countP_mono_left fun desc _ offers => by
        simp only [UntypedDesc.offers, Bool.and_eq_true] at offers ⊢
        exact ⟨offers.1.1, offers.2⟩
    rw [counts]
    refine ⟨fun free => le_antisymm (le_trans few (booted.disjoint a)) (List.countP_pos_iff.mpr free), fun gone => ?_⟩
    exact List.countP_eq_zero.mpr fun desc member offers => gone ⟨desc, member, offers⟩

end Boot

/-- Whatever pages of the device blocks are asked for, in any order, each request hands out the page
with that physical address unless a table of the host is full; the regions stay disjoint, each with
its cursor at the free pointer of its block, and make up the memory that was not handed out.

Device memory is that of the blocks of a page at least: smaller blocks are in no region. -/
theorem device_pages_exact {first : Nat} {descs : List UntypedDesc} {h : DeviceHost}
    (booted : Booted first descs h) (paddrs : List Nat) (distinct : paddrs.Nodup)
    (pages : ∀ paddr ∈ paddrs, devicePage ∣ paddr ∧ ∃ desc ∈ descs, desc.offers paddr = true) :
    Yields (retypeAll paddrs) (fun frames h' =>
      List.Forall₂ (fun paddr frame => h'.node.caps frame = deviceFrame paddr) paddrs frames ∧
      Tracks h'.node h'.spareSlots h'.deviceRegions fun a =>
        (∃ desc ∈ descs, desc.offers a = true) ∧
          ∀ paddr ∈ paddrs, ¬ (paddr ≤ a ∧ a < paddr + devicePage)) h :=
  (booted.agrees.retypeAll paddrs distinct pages).mono fun _ _ out => ⟨out.1, out.2.2⟩

/-- A block of sixteen pages in slot 20. -/
def sampleDevices : DeviceHost where
  nextSlot := 30
  emptyEnd := 40
  recycled := []
  deviceRegions := bootRegions 20 [⟨0x10000000, 16, true⟩]
  node := {
    caps := fun slot => if slot = 20 then .untyped (paddrToPptr 0x10000000) 16 0 true else .null
    hasChildren := fun _ => false }

theorem sampleDevices_booted : Booted 20 [⟨0x10000000, 16, true⟩] sampleDevices where
  recorded := rfl
  nonzero := by decide
  caps k desc here := by
    obtain ⟨small, rfl⟩ := List.getElem?_eq_some_iff.mp here
    obtain rfl : k = 0 := Nat.lt_one_iff.mp small
    rfl
  blocks := by decide
  disjoint a := List.countP_le_length
  distinct := by decide
  blank := by decide

/-- Page three and then page one: the first request splits off two blocks, and the second is served
from one of them. -/
theorem device_pages_exact_sample :
    ∃ frames h', retypeAll [0x10003000, 0x10001000] sampleDevices = .ok frames h' ∧
      List.Forall₂ (fun paddr frame => h'.node.caps frame = deviceFrame paddr)
        [0x10003000, 0x10001000] frames := by
  have offered : ∀ paddr ∈ [0x10003000, 0x10001000], devicePage ∣ paddr ∧
      ∃ desc ∈ [⟨0x10000000, 16, true⟩], UntypedDesc.offers desc paddr = true := by
    simp [devicePage, UntypedDesc.offers, UntypedDesc.has]
  -- The run is looked at for any such host, so that nothing is computed twice.
  have exact' {h : DeviceHost} (booted : Booted 20 [⟨0x10000000, 16, true⟩] h) {frames h'}
      (run : retypeAll [0x10003000, 0x10001000] h = .ok frames h') :=
    (ok_of_wp (device_pages_exact booted _ (by decide) offered) run).1
  have served : ((retypeAll [0x10003000, 0x10001000]).run' sampleDevices).isSome = true := by
    decide +kernel
  obtain ⟨h', run⟩ := ok_of_run' (Option.some_get served).symm
  exact ⟨_, h', run, exact' sampleDevices_booted run⟩

end Rel4.Host
