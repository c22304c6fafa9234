import Rel4.Kernel.Vspace

/-! The walk of the memory management unit, and what one written entry does to it. -/

namespace Rel4

/-- What the memory management unit makes of an entry. -/
inductive Decoded
  | fault
  | table (pa : Nat)
  | leaf (pa : Nat)

/--
Decode an entry of a level.

On RISC-V a leaf is an entry that may be read or executed, and writing without reading is reserved.
On x86-64 the last level has only leaves, and the first none.
-/
def Pte.decode (arch : Arch) (level : Nat) (e : Pte) : Decoded :=
  match arch with
  | .riscv64 =>
    if !e.valid || (!e.read && e.write) then .fault
    else if e.read || e.exec then .leaf e.pa
    else .table e.pa
  | .x8664 =>
    if !e.valid then .fault
    else if level = 0 then .leaf e.pa
    else if e.pageSize then if level ≤ 2 then .leaf e.pa else .fault
    else .table e.pa

namespace Vm

variable {arch : Arch} {vm : Vm} {va va' level table : Nat}

/-- The address behind a leaf, which must be aligned for its level. -/
def leafAddress (va level pa : Nat) : Option Nat :=
  if pa % 2 ^ coverageBits level = 0 then some (pa + va % 2 ^ coverageBits level) else none

/-- The physical address of a virtual one, below a table of some level. -/
def translate (arch : Arch) (vm : Vm) (va : Nat) : Nat → Nat → Option Nat
  | 0, table =>
    match (vm.tables table (ptIndex va 0)).decode arch 0 with
    | .leaf pa => leafAddress va 0 pa
    | _ => none
  | level + 1, table =>
    match (vm.tables table (ptIndex va (level + 1))).decode arch (level + 1) with
    | .leaf pa => leafAddress va (level + 1) pa
    | .table pa => vm.translate arch va level pa
    | .fault => none

/-- The tables a walk looks at, with their levels, starting from one of them. -/
inductive Consults (arch : Arch) (vm : Vm) (va : Nat) (level table : Nat) : Nat → Nat → Prop
  | start : Consults arch vm va level table level table
  | next {l pa t : Nat} (above : Consults arch vm va level table (l + 1) t)
      (link : (vm.tables t (ptIndex va (l + 1))).decode arch (l + 1) = .table pa) :
      Consults arch vm va level table l pa

/--
No table below a root is reached twice by user addresses.

Two walks that meet in a table came the same way: the addresses agree above what the table covers.
-/
def NoSharing (arch : Arch) (vm : Vm) (root : Nat) : Prop :=
  ∀ va va' l l' t, va < arch.userTop → va' < arch.userTop →
    Consults arch vm va arch.rootLevel root l t → Consults arch vm va' arch.rootLevel root l' t →
    l = l' ∧ va / 2 ^ coverageBits (l + 1) = va' / 2 ^ coverageBits (l + 1)

section Entries

variable {l t : Nat} {slot : PtSlot} {e : Pte}

theorem translate_of_leaf {pa : Nat}
    (leaf : (vm.tables table (ptIndex va level)).decode arch level = .leaf pa) :
    vm.translate arch va level table = leafAddress va level pa := by
  cases level <;> simp [translate, leaf]

theorem translate_of_table {pa : Nat}
    (link : (vm.tables table (ptIndex va (level + 1))).decode arch (level + 1) = .table pa) :
    vm.translate arch va (level + 1) table = vm.translate arch va level pa := by
  simp [translate, link]

theorem translate_of_fault
    (fault : (vm.tables table (ptIndex va level)).decode arch level = .fault) :
    vm.translate arch va level table = none := by
  cases level <;> simp [translate, fault]

/-- From a table that is consulted on, the walk goes on as from the start. -/
theorem Consults.translate_eq (path : Consults arch vm va level table l t) :
    vm.translate arch va level table = vm.translate arch va l t := by
  -- The path grows at its lower end, so the induction is on how it was extended.
  induction path with
  | start => rfl
  | next above link ih => rw [ih, translate_of_table link]

/-- Which tables are consulted depends only on the bits above what the last one covers. -/
theorem Consults.congr (path : Consults arch vm va level table l t)
    (same : ∀ k, l < k → ptIndex va' k = ptIndex va k) : Consults arch vm va' level table l t := by
  induction path with
  | start => exact .start
  | next above link ih =>
    rename_i l pa t
    refine .next (ih fun k above => same k (by omega)) ?_
    -- The link above was found with an index of higher bits, which the two addresses share.
    rw [same (l + 1) (by omega)]
    exact link

@[simp] theorem setEntry_tables (i : Nat) : (vm.setEntry slot e).tables t i =
    if t = slot.table ∧ i = slot.index then e else vm.tables t i := by
  -- Another table is untouched, and in this one all entries but one.
  by_cases here : t = slot.table
  · subst here
    by_cases index : i = slot.index <;> simp [setEntry, index]
  · simp [setEntry, here]

/-- A walk that does not look at the written entry above some level takes the same way. -/
theorem Consults.setEntry (path : Consults arch vm va level table l t)
    (apart : ∀ k t', l < k → Consults arch vm va level table k t' →
      ¬ (t' = slot.table ∧ ptIndex va k = slot.index)) :
    Consults arch (vm.setEntry slot e) va level table l t := by
  -- A link in front of a path: the path is rebuilt from its first table on.
  induction path with
  | start => exact .start
  | next above link ih =>
    rename_i l pa t
    refine .next (ih fun k t' deeper => apart k t' (by omega)) ?_
    -- This entry is above the level in question, so it is not the one that was written.
    rw [setEntry_tables, if_neg (apart (l + 1) t (by omega) above)]
    exact link

/-- A walk that never looks at the written entry ends where it did. -/
theorem translate_setEntry_of_apart (apart : ∀ k t', Consults arch vm va level table k t' →
      ¬ (t' = slot.table ∧ ptIndex va k = slot.index)) :
    (vm.setEntry slot e).translate arch va level table = vm.translate arch va level table := by
  -- From every table that is consulted on the two walks agree, by induction on its level.
  have onward : ∀ l t, Consults arch vm va level table l t →
      (vm.setEntry slot e).translate arch va l t = vm.translate arch va l t := by
    intro l
    induction l with
    | zero =>
      intro t path
      simp only [translate]
      rw [setEntry_tables, if_neg (apart 0 t path)]
    | succ l ih =>
      intro t path
      simp only [translate]
      rw [setEntry_tables, if_neg (apart (l + 1) t path)]
      -- Only a table pointer leads on, and then to a table that is consulted as well.
      cases link : (vm.tables t (ptIndex va (l + 1))).decode arch (l + 1) with
      | fault => rfl
      | leaf pa => rfl
      | table pa => exact ih pa (.next path link)
  exact onward level table .start

theorem Consults.cons {pa : Nat}
    (link : (vm.tables table (ptIndex va (level + 1))).decode arch (level + 1) = .table pa)
    (path : Consults arch vm va level pa l t) : Consults arch vm va (level + 1) table l t := by
  induction path with
  | start => exact .next .start link
  | next above last ih => exact .next ih last

/-- An entry the kernel walks through is a table pointer for the hardware as well. -/
theorem decode_of_walked (valid : e.valid = true) (inner : e.isLeaf arch = false) :
    e.decode arch (level + 1) = .table e.pa := by
  -- The two machines tell leaves apart by different bits.
  cases arch with
  | riscv64 =>
    have bits : e.read = false ∧ e.write = false ∧ e.exec = false := by
      simpa [Pte.isLeaf, valid, and_assoc] using inner
    simp [Pte.decode, valid, bits]
  | x8664 =>
    have bits : e.pageSize = false := by simpa [Pte.isLeaf, valid] using inner
    simp [Pte.decode, valid, bits]

/-- The kernel's walk stops at an entry of a table that the hardware consults. -/
theorem walk_consults (va level table : Nat) :
    ∃ l, (vm.walk arch va level table).bitsLeft = coverageBits l ∧
      (vm.walk arch va level table).index = ptIndex va l ∧
      Consults arch vm va level table l (vm.walk arch va level table).table := by
  -- The walk goes down a level at a time, and the table it is in changes with it.
  induction level generalizing table with
  | zero => exact ⟨0, rfl, rfl, .start⟩
  | succ level ih =>
    unfold walk
    simp only
    split
    · exact ⟨level + 1, rfl, rfl, .start⟩
    · rename_i inner
      simp only [Bool.or_eq_true, Bool.not_eq_true', not_or, Bool.not_eq_true,
        Bool.not_eq_false] at inner
      obtain ⟨l, bits, index, path⟩ :=
        ih (vm.tables table (ptIndex va (level + 1))).pa
      exact ⟨l, bits, index, .cons (decode_of_walked inner.1 inner.2) path⟩

end Entries

section Blocks

/-- An address lies in an aligned block when it agrees with its start above the block's bits. -/
theorem div_eq_iff_in_block {bits : Nat} (aligned : va % 2 ^ bits = 0) :
    va' / 2 ^ bits = va / 2 ^ bits ↔ va ≤ va' ∧ va' < va + 2 ^ bits := by
  -- The start of the block is a multiple of its size, so division loses nothing there.
  have start : 2 ^ bits * (va / 2 ^ bits) = va :=
    Nat.mul_div_cancel' (Nat.dvd_of_mod_eq_zero aligned)
  have whole := Nat.div_add_mod va' (2 ^ bits)
  have small := Nat.mod_lt va' (Nat.two_pow_pos bits)
  constructor
  · intro same
    rw [same, start] at whole
    omega
  · rintro ⟨low, high⟩
    rw [Nat.div_eq_iff (Nat.two_pow_pos bits), Nat.mul_comm, start]
    omega

/-- Below one entry of one table, two addresses agree above the bits of the entry. -/
theorem div_eq_of_ptIndex (above : va / 2 ^ coverageBits (level + 1) =
      va' / 2 ^ coverageBits (level + 1)) (index : ptIndex va level = ptIndex va' level) :
    va / 2 ^ coverageBits level = va' / 2 ^ coverageBits level := by
  -- A table has nine bits of the address for its index.
  have split : coverageBits (level + 1) = coverageBits level + 9 := by
    unfold coverageBits
    omega
  rw [split, Nat.pow_add, ← Nat.div_div_eq_div_mul, ← Nat.div_div_eq_div_mul] at above
  unfold ptIndex at index
  omega

theorem ptIndex_of_div_eq {k : Nat} (same : va / 2 ^ coverageBits level =
    va' / 2 ^ coverageBits level) (above : level ≤ k) : ptIndex va k = ptIndex va' k := by
  obtain ⟨more, rfl⟩ := Nat.exists_eq_add_of_le above
  have split : coverageBits (level + more) = coverageBits level + 9 * more := by
    unfold coverageBits
    omega
  unfold ptIndex
  rw [split, Nat.pow_add, ← Nat.div_div_eq_div_mul, ← Nat.div_div_eq_div_mul, same]

end Blocks

section Leaves

variable {root l pa : Nat} {slot : PtSlot} {e : Pte}

/--
A leaf written where a walk stops translates what its entry covers, and nothing else.

This needs that no table is shared, or the leaf would show up at other addresses too.
-/
theorem translate_setEntry_leaf (tree : NoSharing arch vm root) (user : va < arch.userTop)
    (user' : va' < arch.userTop) (path : Consults arch vm va arch.rootLevel root l slot.table)
    (index : slot.index = ptIndex va l) (leaf : e.decode arch l = .leaf pa) :
    (vm.setEntry slot e).translate arch va' arch.rootLevel root =
      if va' / 2 ^ coverageBits l = va / 2 ^ coverageBits l then leafAddress va' l pa
      else vm.translate arch va' arch.rootLevel root := by
  split
  · -- The walk of such an address meets the entry, having met no other entry of its table.
    rename_i same
    have path' : Consults arch vm va' arch.rootLevel root l slot.table :=
      path.congr fun k deeper => ptIndex_of_div_eq same (Nat.le_of_lt deeper)
    have kept : Consults arch (vm.setEntry slot e) va' arch.rootLevel root l slot.table := by
      refine path'.setEntry fun k t above meets here => ?_
      rw [here.1] at meets
      have level := (tree va' va' k l slot.table user' user' meets path').1
      omega
    rw [kept.translate_eq]
    apply translate_of_leaf
    rw [setEntry_tables, index, if_pos ⟨rfl, ptIndex_of_div_eq same (Nat.le_refl l)⟩]
    exact leaf
  · -- Every other walk that meets the entry would agree with the address above its bits.
    rename_i different
    refine translate_setEntry_of_apart fun k t meets here => different ?_
    rw [here.1] at meets
    obtain ⟨rfl, above⟩ := tree va' va k l slot.table user' user meets path
    exact div_eq_of_ptIndex above (here.2.trans index)

end Leaves

section Links

variable {slot : PtSlot} {e : Pte} {pa : Nat}

/-- An entry that is not valid ends a walk at any level. -/
theorem decode_of_invalid (invalid : e.valid = false) (l : Nat) : e.decode arch l = .fault := by
  cases arch <;> simp [Pte.decode, invalid]

/-- A table without valid entries translates nothing, not even once it is linked below itself. -/
theorem translate_linked_none (link : ∀ l, e.decode .riscv64 l = .table pa)
    (empty : ∀ i, i < 2 ^ 9 → (vm.tables pa i).valid = false) (level : Nat) :
    (vm.setEntry slot e).translate .riscv64 va level pa = none := by
  -- Every entry of the table is invalid but perhaps the one written, which leads back to it.
  have decoded (l : Nat) :
      ((vm.setEntry slot e).tables pa (ptIndex va l)).decode .riscv64 l = .fault ∨
        ((vm.setEntry slot e).tables pa (ptIndex va l)).decode .riscv64 l = .table pa := by
    rw [setEntry_tables]
    split
    · exact .inr (link l)
    · exact .inl (decode_of_invalid (empty _ (Nat.mod_lt _ (by decide))) l)
  induction level with
  | zero => rcases decoded 0 with ends | ends <;> simp only [translate, ends]
  | succ level ih =>
    rcases decoded (level + 1) with fault | link
    · exact translate_of_fault fault
    · rw [translate_of_table link, ih]

/-- Linking such a table where nothing was valid changes no translation. -/
theorem translate_setEntry_link (link : ∀ l, e.decode .riscv64 l = .table pa)
    (empty : ∀ i, i < 2 ^ 9 → (vm.tables pa i).valid = false)
    (free : (vm.entry slot).valid = false) :
    (vm.setEntry slot e).translate .riscv64 va level table = vm.translate .riscv64 va level table := by
  induction level generalizing table with
  | zero =>
    by_cases here : table = slot.table ∧ ptIndex va 0 = slot.index
    · have before : vm.translate .riscv64 va 0 table = none := by
        rw [here.1]
        exact translate_of_fault (here.2 ▸ decode_of_invalid free 0)
      rw [before]
      simp [translate, here, link]
    · simp only [translate, setEntry_tables, if_neg here]
  | succ level ih =>
    by_cases here : table = slot.table ∧ ptIndex va (level + 1) = slot.index
    · -- The walk now enters the new table, and ends there.
      have before : vm.translate .riscv64 va (level + 1) table = none := by
        rw [here.1]
        exact translate_of_fault (here.2 ▸ decode_of_invalid free (level + 1))
      rw [before]
      simp [translate, here, link, translate_linked_none link empty]
    · simp only [translate, setEntry_tables, if_neg here, ih]

end Links

end Vm

end Rel4
