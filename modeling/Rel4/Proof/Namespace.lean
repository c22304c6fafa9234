import Mathlib.Data.Fintype.Card
import Rel4.Proof.Paths

/-! The names of the file system form a tree, whatever requests have changed it. -/

namespace Rel4.Vfs

open Lib
open Function (update update_apply update_of_ne update_self)

variable {fs fs' : Ramfs} {i j k inum parent cur n : Nat} {name : Name} {names front : List Name}
  {path : List UInt8} {kind : FileKind}

/-- An entry in use. -/
def Ramfs.Entry (fs : Ramfs) (i : Nat) : Prop := i < maxDirEntries ∧ (fs.dirents i).used = true

/-- The inodes that entries lead to from the root. -/
inductive Ramfs.Reached (fs : Ramfs) : Nat → Prop
  | root : fs.Reached rootIno
  | entry {i : Nat} (entry : fs.Entry i) (above : fs.Reached (fs.dirents i).parent) :
      fs.Reached (fs.dirents i).child

/-- A directory in use. -/
structure Ramfs.IsDir (fs : Ramfs) (inum : Nat) : Prop where
  small : inum < maxInodes
  used : (fs.inodes inum).used = true
  kind : (fs.inodes inum).kind = .directory

/-- Names that entries may have. -/
structure Name.Valid (name : Name) : Prop where
  some : name ≠ []
  plain : slash ∉ name
  notDot : name.isDot = false

/-- Entries and inodes agree, and every named inode hangs below the root by its one entry. -/
structure Ramfs.Tree (fs : Ramfs) : Prop where
  unique : ∀ i j, fs.Entry i → fs.Entry j → (fs.dirents i).parent = (fs.dirents j).parent →
    (fs.dirents i).name = (fs.dirents j).name → i = j
  single : ∀ i j, fs.Entry i → fs.Entry j → (fs.dirents i).child = (fs.dirents j).child → i = j
  small : ∀ i, fs.Entry i → (fs.dirents i).child < maxInodes
  used : ∀ i, fs.Entry i → (fs.inodes (fs.dirents i).child).used = true
  above : ∀ i, fs.Entry i → (fs.inodes (fs.dirents i).child).parent = (fs.dirents i).parent
  dir : ∀ i, fs.Entry i → fs.IsDir (fs.dirents i).parent
  name : ∀ i, fs.Entry i → (fs.dirents i).name.Valid
  reached : ∀ i, fs.Entry i → fs.Reached (fs.dirents i).child
  top : ∀ i, fs.Entry i → (fs.dirents i).child ≠ rootIno
  root : (fs.inodes rootIno).used = true →
    (fs.inodes rootIno).kind = .directory ∧ (fs.inodes rootIno).parent = rootIno

section Lookup

theorem findDirent_some (found : fs.findDirent parent name = some i) :
    fs.Entry i ∧ (fs.dirents i).parent = parent ∧ (fs.dirents i).name = name := by
  have holds := List.find?_some found
  have member := List.mem_of_find?_eq_some found
  simp only [Bool.and_eq_true, beq_iff_eq] at holds
  exact ⟨⟨List.mem_range.mp member, holds.1.1⟩, holds.1.2, holds.2⟩

theorem findDirent_none (absent : fs.findDirent parent name = none) (entry : fs.Entry i)
    (here : (fs.dirents i).parent = parent) : (fs.dirents i).name ≠ name := by
  have none := List.find?_eq_none.mp absent i (List.mem_range.mpr entry.1)
  intro same
  simp [entry.2, here, same] at none

/-- Under a name that is taken there is only the entry that takes it. -/
theorem Ramfs.Tree.findDirent (tree : fs.Tree) (entry : fs.Entry i) :
    fs.findDirent (fs.dirents i).parent (fs.dirents i).name = some i := by
  cases found : fs.findDirent (fs.dirents i).parent (fs.dirents i).name with
  | none => exact absurd rfl (findDirent_none found entry rfl)
  | some j =>
    obtain ⟨entry', parent', name'⟩ := findDirent_some found
    rw [tree.unique j i entry' entry parent' name']

theorem Ramfs.Tree.lookup (tree : fs.Tree) (entry : fs.Entry i) :
    fs.lookup (fs.dirents i).parent (fs.dirents i).name = some (fs.dirents i).child := by
  rw [Ramfs.lookup, tree.findDirent entry]
  rfl

theorem lookup_some (found : fs.lookup parent name = some n) :
    ∃ i, fs.Entry i ∧ (fs.dirents i).parent = parent ∧ (fs.dirents i).name = name ∧
      (fs.dirents i).child = n := by
  unfold Ramfs.lookup at found
  obtain ⟨i, found, same⟩ := Option.map_eq_some_iff.mp found
  obtain ⟨entry, here, named⟩ := findDirent_some found
  exact ⟨i, entry, here, named, same⟩

theorem Ramfs.Tree.lookup_iff (tree : fs.Tree) : fs.lookup parent name = some n ↔
    ∃ i, fs.Entry i ∧ (fs.dirents i).parent = parent ∧ (fs.dirents i).name = name ∧
      (fs.dirents i).child = n := by
  refine ⟨lookup_some, ?_⟩
  rintro ⟨i, entry, rfl, rfl, rfl⟩
  exact tree.lookup entry

theorem lookup_none (absent : fs.lookup parent name = none) (entry : fs.Entry i)
    (here : (fs.dirents i).parent = parent) : (fs.dirents i).name ≠ name := by
  unfold Ramfs.lookup at absent
  exact findDirent_none (Option.map_eq_none_iff.mp absent) entry here

/-- There is room for more entries than there are inodes. -/
theorem entries_outnumber : maxInodes < maxDirEntries := by
  unfold maxInodes maxDirEntries
  omega

/-- Entries only fill part of their table, because each takes an inode of its own. -/
theorem Ramfs.Tree.freeDirent (tree : fs.Tree) : ∃ k, fs.freeDirent = some k := by
  by_contra full
  have all : ∀ i < maxDirEntries, (fs.dirents i).used = true := by
    intro i small
    cases none : fs.freeDirent with
    | some k => exact absurd ⟨k, none⟩ full
    | none =>
      have := List.find?_eq_none.mp none i (List.mem_range.mpr small)
      simpa using this
  let child : Fin maxDirEntries → Fin maxInodes := fun i =>
    ⟨(fs.dirents i).child, tree.small i ⟨i.2, all i i.2⟩⟩
  have injective : Function.Injective child := fun i j same =>
    Fin.ext (tree.single i j ⟨i.2, all i i.2⟩ ⟨j.2, all j j.2⟩ (Fin.mk.inj_iff.mp same))
  have := Fintype.card_le_of_injective child injective
  rw [Fintype.card_fin, Fintype.card_fin] at this
  exact absurd this (Nat.not_le.mpr entries_outnumber)

theorem freeDirent_some (free : fs.freeDirent = some k) :
    k < maxDirEntries ∧ (fs.dirents k).used = false := by
  have holds := List.find?_some free
  have member := List.mem_of_find?_eq_some free
  exact ⟨List.mem_range.mp member, by simpa using holds⟩

theorem freeInode_some (free : fs.freeInode = some inum) :
    1 ≤ inum ∧ inum < maxInodes ∧ (fs.inodes inum).used = false := by
  have holds := List.find?_some free
  have member := List.mem_range'_1.mp (List.mem_of_find?_eq_some free)
  refine ⟨member.1, ?_, by simpa using holds⟩
  have : inum < 1 + (maxInodes - 1) := member.2
  simp only [maxInodes] at this ⊢
  omega

end Lookup

section Reaching

/-- One step up: to the parent an inode has on record. -/
def Ramfs.up (fs : Ramfs) (cur : Nat) : Nat := ((fs.inode cur).map (·.parent)).getD cur

@[simp] theorem walkName_dot : fs.walkName cur [dot] = .ok cur := if_pos rfl

@[simp] theorem walkName_dots : fs.walkName cur [dot, dot] = .ok (fs.up cur) := by
  unfold Ramfs.walkName Ramfs.up
  rw [if_neg (by decide), if_pos rfl]
  cases fs.inode cur <;> rfl

theorem Name.ne_of_isDot (plain : name.isDot = false) : name ≠ [dot] ∧ name ≠ [dot, dot] := by
  simpa [Name.isDot] using plain

theorem Name.of_isDot (isDot : name.isDot = true) : name = [dot] ∨ name = [dot, dot] := by
  simpa [Name.isDot] using isDot

theorem walkName_plain (plain : name.isDot = false) :
    fs.walkName cur name = ((fs.lookup cur name).map .ok).getD (.error .enoent) := by
  obtain ⟨notDot, notDots⟩ := Name.ne_of_isDot plain
  unfold Ramfs.walkName
  rw [if_neg notDot, if_neg notDots]
  cases fs.lookup cur name <;> rfl

/-- A step stays, goes up, or follows an entry. -/
theorem walkName_ok : fs.walkName cur name = .ok n ↔
    name = [dot] ∧ n = cur ∨ name = [dot, dot] ∧ n = fs.up cur ∨
      name.isDot = false ∧ fs.lookup cur name = some n := by
  cases isDot : name.isDot with
  | true =>
    rcases Name.of_isDot isDot with rfl | rfl
    · simp [eq_comm]
    · simp [eq_comm]
  | false =>
    obtain ⟨notDot, notDots⟩ := Name.ne_of_isDot isDot
    rw [walkName_plain isDot]
    cases fs.lookup cur name <;> simp [notDot, notDots]

theorem Ramfs.Tree.up_reached (tree : fs.Tree) (reached : fs.Reached cur) : fs.Reached (fs.up cur) := by
  unfold Ramfs.up Ramfs.inode
  split_ifs with here
  · -- One step up from the root is the root, and from any other inode the entry's directory.
    cases reached with
    | root =>
      show fs.Reached (fs.inodes rootIno).parent
      rw [(tree.root here.2).2]
      exact .root
    | @entry i entry above =>
      show fs.Reached (fs.inodes (fs.dirents i).child).parent
      rw [tree.above _ entry]
      exact above
  · exact reached

/-- Whatever a walk reaches hangs below the root. -/
theorem Ramfs.Tree.walkName_reached (tree : fs.Tree) (reached : fs.Reached cur)
    (step : fs.walkName cur name = .ok n) : fs.Reached n := by
  rcases walkName_ok.mp step with ⟨-, rfl⟩ | ⟨-, rfl⟩ | ⟨-, found⟩
  · exact reached
  · exact tree.up_reached reached
  · obtain ⟨i, entry, here, -, rfl⟩ := lookup_some found
    subst here
    exact .entry entry reached

theorem Ramfs.Tree.walkNames_reached (tree : fs.Tree) (reached : fs.Reached cur)
    (walked : fs.walkNames cur names = .ok n) : fs.Reached n := by
  induction names generalizing cur with
  | nil =>
    cases walked
    exact reached
  | cons name names ih =>
    obtain ⟨next, step, rest⟩ := walkNames_cons_ok.mp walked
    exact ih (tree.walkName_reached reached step) rest

theorem Ramfs.Tree.walk_reached (tree : fs.Tree) (walked : fs.walk path = .ok n) : fs.Reached n :=
  tree.walkNames_reached .root (walk_ok.mp walked).2

/-- Every inode below the root is at the end of some path. -/
theorem Ramfs.Tree.walk_of_reached (tree : fs.Tree) (reached : fs.Reached n) :
    ∃ path, fs.walk path = .ok n := by
  induction reached with
  | root => exact ⟨[slash], rfl⟩
  | @entry i entry above ih =>
    obtain ⟨path, walked⟩ := ih
    have valid := tree.name i entry
    refine ⟨path ++ slash :: (fs.dirents i).name, walk_ok.mpr ⟨by simp, ?_⟩⟩
    rw [components_append_slash, components_plain valid.plain valid.some, walkNames_append,
      (walk_ok.mp walked).2]
    show fs.walkNames _ [_] = _
    rw [walkNames_cons, walkName_plain valid.notDot, tree.lookup entry]
    rfl

/-- An inode below the root is the root or has an entry. -/
theorem Ramfs.Reached.cases_entry (reached : fs.Reached n) :
    n = rootIno ∨ ∃ i, fs.Entry i ∧ (fs.dirents i).child = n := by
  cases reached with
  | root => exact .inl rfl
  | entry entry above => exact .inr ⟨_, entry, rfl⟩

/-- Nothing is named unless the root is there. -/
theorem Ramfs.Tree.root_used (tree : fs.Tree) (entry : fs.Entry i) :
    (fs.inodes rootIno).used = true := by
  have general : ∀ n, fs.Reached n → n ≠ rootIno → (fs.inodes rootIno).used = true := by
    intro n reached
    induction reached with
    | root => exact fun no => absurd rfl no
    | @entry j entry above ih =>
      intro _
      by_cases top : (fs.dirents j).parent = rootIno
      · exact top ▸ (tree.dir j entry).used
      · exact ih top
  exact general _ (tree.reached i entry) (tree.top i entry)

end Reaching

section Same

/-- Two states with the same names and the same inodes behind them. -/
structure Ramfs.SameTree (fs fs' : Ramfs) : Prop where
  dirents : fs'.dirents = fs.dirents
  used : ∀ i, (fs'.inodes i).used = (fs.inodes i).used
  kind : ∀ i, (fs'.inodes i).kind = (fs.inodes i).kind
  parent : ∀ i, (fs'.inodes i).parent = (fs.inodes i).parent

theorem Ramfs.SameTree.refl (fs : Ramfs) : fs.SameTree fs :=
  ⟨rfl, fun _ => rfl, fun _ => rfl, fun _ => rfl⟩

@[simp] theorem updInode_inodes (fs : Ramfs) (inum i : Nat) (change : Inode → Inode) :
    (fs.updInode inum change).inodes i =
      if i = inum then change (fs.inodes inum) else fs.inodes i := by
  simp only [Ramfs.updInode, update_apply]

/-- Counters and data of an inode are no part of the tree. -/
theorem Ramfs.SameTree.updInode {change : Inode → Inode}
    (used : (change (fs.inodes inum)).used = (fs.inodes inum).used)
    (kind : (change (fs.inodes inum)).kind = (fs.inodes inum).kind)
    (parent : (change (fs.inodes inum)).parent = (fs.inodes inum).parent) :
    fs.SameTree (fs.updInode inum change) := by
  refine ⟨rfl, fun i => ?_, fun i => ?_, fun i => ?_⟩ <;> rw [updInode_inodes] <;>
    split_ifs with same
  · rw [same, used]
  · rfl
  · rw [same, kind]
  · rfl
  · rw [same, parent]
  · rfl

theorem Ramfs.SameTree.entry (same : fs.SameTree fs') : fs'.Entry i ↔ fs.Entry i := by
  rw [Ramfs.Entry, Ramfs.Entry, same.dirents]

theorem Ramfs.SameTree.reached (same : fs.SameTree fs') (reached : fs.Reached n) :
    fs'.Reached n := by
  induction reached with
  | root => exact .root
  | @entry i entry above ih =>
    have := Ramfs.Reached.entry (same.entry.mpr entry) (by rw [same.dirents]; exact ih)
    rwa [same.dirents] at this

theorem Ramfs.SameTree.isDir (same : fs.SameTree fs') (isDir : fs.IsDir n) : fs'.IsDir n :=
  ⟨isDir.small, (same.used n).trans isDir.used, (same.kind n).trans isDir.kind⟩

theorem Ramfs.Tree.same (tree : fs.Tree) (same : fs.SameTree fs') : fs'.Tree := by
  have entry {i} : fs'.Entry i → fs.Entry i := same.entry.mp
  refine ⟨fun i j one other => ?_, fun i j one other => ?_, fun i one => ?_, fun i one => ?_,
    fun i one => ?_, fun i one => ?_, fun i one => ?_, fun i one => ?_, fun i one => ?_, ?_⟩
  all_goals simp only [same.dirents, same.used, same.kind, same.parent]
  · exact tree.unique i j (entry one) (entry other)
  · exact tree.single i j (entry one) (entry other)
  · exact tree.small i (entry one)
  · exact tree.used i (entry one)
  · exact tree.above i (entry one)
  · exact same.isDir (tree.dir i (entry one))
  · exact tree.name i (entry one)
  · exact same.reached (tree.reached i (entry one))
  · exact tree.top i (entry one)
  · exact tree.root

theorem Ramfs.SameTree.lookup (same : fs.SameTree fs') : fs'.lookup = fs.lookup := by
  funext dir name
  simp only [Ramfs.lookup, Ramfs.findDirent, same.dirents]

theorem Ramfs.SameTree.up (same : fs.SameTree fs') : fs'.up = fs.up := by
  funext cur
  unfold Ramfs.up Ramfs.inode
  simp only [same.used]
  split_ifs
  · exact same.parent cur
  · rfl

theorem Ramfs.SameTree.walkName (same : fs.SameTree fs') : fs'.walkName = fs.walkName := by
  funext cur name
  cases isDot : name.isDot with
  | true => rcases Name.of_isDot isDot with rfl | rfl <;> simp [same.up]
  | false => rw [walkName_plain isDot, walkName_plain isDot, same.lookup]

/-- Walks lead to the same places. -/
theorem Ramfs.SameTree.walk (same : fs.SameTree fs') : fs'.walk = fs.walk := by
  funext path
  simp only [Ramfs.walk, same.walkName]

end Same

section Creating

/-- A new inode with its entry; a directory also counts for the one it lies in. -/
def Ramfs.created (fs : Ramfs) (inum k parent : Nat) (name : Name) (kind : FileKind) : Ramfs :=
  let made := fs.updInode inum fun _ =>
    { used := true, kind, nlink := if kind = .directory then 2 else 1, parent }
  let named := { made with
    dirents := Function.update made.dirents k { used := true, parent, child := inum, name } }
  if kind = .directory then
    named.updInode parent fun node => { node with nlink := min (node.nlink + 1) u16Max }
  else named

/-- What must hold for a new inode to be named. -/
structure Ramfs.Creates (fs : Ramfs) (inum k parent : Nat) (name : Name) : Prop where
  small : inum < maxInodes
  fresh : (fs.inodes inum).used = false
  slot : k < maxDirEntries
  free : (fs.dirents k).used = false
  dir : fs.IsDir parent
  reached : fs.Reached parent
  valid : name.Valid
  absent : fs.lookup parent name = none

theorem created_dirents :
    (fs.created inum k parent name kind).dirents =
      update fs.dirents k { used := true, parent, child := inum, name } := by
  unfold Ramfs.created
  split_ifs <;> rfl

theorem created_inodes (apart : inum ≠ parent) :
    (fs.created inum k parent name kind).inodes i =
      if i = inum then
        { used := true, kind, nlink := if kind = .directory then 2 else 1, parent }
      else if i = parent ∧ kind = .directory then
        { fs.inodes parent with nlink := min ((fs.inodes parent).nlink + 1) u16Max }
      else fs.inodes i := by
  unfold Ramfs.created
  by_cases isDir : kind = .directory
  · by_cases here : i = parent
    · simp [isDir, here, apart.symm]
    · simp [isDir, here]
  · simp [isDir]

namespace Ramfs.Creates

variable (creates : fs.Creates inum k parent name)
include creates

theorem apart : inum ≠ parent := by
  rintro rfl
  have := creates.dir.used
  rw [creates.fresh] at this
  cases this

theorem used_of_ne (other : i ≠ inum) :
    ((fs.created inum k parent name kind).inodes i).used = (fs.inodes i).used := by
  rw [created_inodes creates.apart, if_neg other]
  split_ifs with here
  · rw [here.1]
  · rfl

theorem kind_of_ne (other : i ≠ inum) :
    ((fs.created inum k parent name kind).inodes i).kind = (fs.inodes i).kind := by
  rw [created_inodes creates.apart, if_neg other]
  split_ifs with here
  · rw [here.1]
  · rfl

theorem parent_of_ne (other : i ≠ inum) :
    ((fs.created inum k parent name kind).inodes i).parent = (fs.inodes i).parent := by
  rw [created_inodes creates.apart, if_neg other]
  split_ifs with here
  · rw [here.1]
  · rfl

theorem entry_iff (kind : FileKind) : (fs.created inum k parent name kind).Entry j ↔ j = k ∨ fs.Entry j := by
  rw [Ramfs.Entry, created_dirents]
  by_cases here : j = k
  · subst here
    simp [creates.slot]
  · simp [here, Ramfs.Entry]

theorem ne_of_entry (entry : fs.Entry j) : j ≠ k := by
  rintro rfl
  have := entry.2
  rw [creates.free] at this
  cases this

theorem dirents_of_entry (kind : FileKind) (entry : fs.Entry j) :
    (fs.created inum k parent name kind).dirents j = fs.dirents j := by
  rw [created_dirents, update_of_ne (creates.ne_of_entry entry)]

omit creates in
theorem dirents_new : (fs.created inum k parent name kind).dirents k =
    { used := true, parent, child := inum, name } := by
  rw [created_dirents, update_self]

theorem isDir (isDir : fs.IsDir n) : (fs.created inum k parent name kind).IsDir n := by
  have other : n ≠ inum := by
    rintro rfl
    have := isDir.used
    rw [creates.fresh] at this
    cases this
  exact ⟨isDir.small, (creates.used_of_ne other).trans isDir.used,
    (creates.kind_of_ne other).trans isDir.kind⟩

theorem reached_old (reached : fs.Reached n) : (fs.created inum k parent name kind).Reached n := by
  induction reached with
  | root => exact .root
  | @entry i entry above ih =>
    have here := creates.dirents_of_entry kind entry
    have := Ramfs.Reached.entry ((creates.entry_iff kind).mpr (.inr entry)) (by rwa [here])
    rwa [here] at this

theorem root_ne (tree : fs.Tree) : inum ≠ rootIno := by
  have used : (fs.inodes rootIno).used = true := by
    rcases creates.reached.cases_entry with rfl | ⟨i, entry, -⟩
    · exact creates.dir.used
    · exact tree.root_used entry
  rintro rfl
  cases creates.fresh.symm.trans used

end Ramfs.Creates

theorem Ramfs.Tree.created (tree : fs.Tree) (creates : fs.Creates inum k parent name) :
    (fs.created inum k parent name kind).Tree := by
  -- No old entry leads to the new inode, because it was not in use.
  have notNew {j} (entry : fs.Entry j) : (fs.dirents j).child ≠ inum := by
    intro same
    have := tree.used j entry
    rw [same, creates.fresh] at this
    cases this
  have old {j} (entry : fs.Entry j) := creates.dirents_of_entry kind entry
  have new : (fs.created inum k parent name kind).dirents k =
      { used := true, parent, child := inum, name } := Ramfs.Creates.dirents_new
  have notRoot := creates.root_ne tree
  refine ⟨fun i j one other here same => ?_, fun i j one other same => ?_, fun i one => ?_,
    fun i one => ?_, fun i one => ?_, fun i one => ?_, fun i one => ?_, fun i one => ?_,
    fun i one => ?_, fun used => ?_⟩
  · rcases (creates.entry_iff kind).mp one with rfl | oldOne <;>
      rcases (creates.entry_iff kind).mp other with rfl | oldOther
    · rfl
    · rw [new, old oldOther] at here same
      exact absurd same.symm (lookup_none creates.absent oldOther here.symm)
    · rw [new, old oldOne] at here same
      exact absurd same (lookup_none creates.absent oldOne here)
    · rw [old oldOne, old oldOther] at here same
      exact tree.unique i j oldOne oldOther here same
  · rcases (creates.entry_iff kind).mp one with rfl | oldOne <;>
      rcases (creates.entry_iff kind).mp other with rfl | oldOther
    · rfl
    · rw [new, old oldOther] at same
      exact absurd same.symm (notNew oldOther)
    · rw [new, old oldOne] at same
      exact absurd same (notNew oldOne)
    · rw [old oldOne, old oldOther] at same
      exact tree.single i j oldOne oldOther same
  · rcases (creates.entry_iff kind).mp one with rfl | one
    · rw [new]
      exact creates.small
    · rw [old one]
      exact tree.small i one
  · rcases (creates.entry_iff kind).mp one with rfl | one
    · rw [new, created_inodes creates.apart, if_pos rfl]
    · rw [old one, creates.used_of_ne (notNew one)]
      exact tree.used i one
  · rcases (creates.entry_iff kind).mp one with rfl | one
    · rw [new, created_inodes creates.apart, if_pos rfl]
    · rw [old one, creates.parent_of_ne (notNew one)]
      exact tree.above i one
  · rcases (creates.entry_iff kind).mp one with rfl | one
    · rw [new]
      exact creates.isDir creates.dir
    · rw [old one]
      exact creates.isDir (tree.dir i one)
  · rcases (creates.entry_iff kind).mp one with rfl | one
    · rw [new]
      exact creates.valid
    · rw [old one]
      exact tree.name i one
  · rcases (creates.entry_iff kind).mp one with rfl | one
    · refine .entry one ?_
      rw [new]
      exact creates.reached_old creates.reached
    · rw [old one]
      exact creates.reached_old (tree.reached i one)
  · rcases (creates.entry_iff kind).mp one with rfl | one
    · rw [new]
      exact notRoot
    · rw [old one]
      exact tree.top i one
  · rw [creates.used_of_ne notRoot.symm] at used
    rw [creates.kind_of_ne notRoot.symm, creates.parent_of_ne notRoot.symm]
    exact tree.root used

theorem Ramfs.Creates.lookup (tree : fs.Tree) (creates : fs.Creates inum k parent name) (n' : Name) :
    (fs.created inum k parent name kind).lookup cur n' =
      if cur = parent ∧ n' = name then some inum else fs.lookup cur n' := by
  have new : (fs.created inum k parent name kind).dirents k =
      { used := true, parent, child := inum, name } := Ramfs.Creates.dirents_new
  ext n
  rw [(tree.created creates).lookup_iff]
  constructor
  · rintro ⟨i, entry, here, named, leads⟩
    rcases (creates.entry_iff kind).mp entry with rfl | old
    · rw [new] at here named leads
      simp only at here named leads
      rw [if_pos ⟨here.symm, named.symm⟩, leads]
    · rw [creates.dirents_of_entry kind old] at here named leads
      rw [if_neg, tree.lookup_iff.mpr ⟨i, old, here, named, leads⟩]
      rintro ⟨rfl, rfl⟩
      exact lookup_none creates.absent old here named
  · intro found
    split_ifs at found with isNew
    · cases found
      refine ⟨k, (creates.entry_iff kind).mpr (.inl rfl), ?_⟩
      rw [new]
      exact ⟨isNew.1.symm, isNew.2.symm, rfl⟩
    · obtain ⟨i, old, here, named, leads⟩ := lookup_some found
      refine ⟨i, (creates.entry_iff kind).mpr (.inr old), ?_⟩
      rw [creates.dirents_of_entry kind old]
      exact ⟨here, named, leads⟩

end Creating

section Removing

/-- The second state lacks an entry of the first, and may lack the inode behind it. -/
structure Ramfs.Removes (fs fs' : Ramfs) (i : Nat) : Prop where
  entry : fs.Entry i
  leaf : ∀ j, fs.Entry j → (fs.dirents j).parent ≠ (fs.dirents i).child
  dirents : fs'.dirents = Function.update fs.dirents i {}
  used : ∀ n, n ≠ (fs.dirents i).child → (fs'.inodes n).used = (fs.inodes n).used
  kind : ∀ n, n ≠ (fs.dirents i).child → (fs'.inodes n).kind = (fs.inodes n).kind
  parent : ∀ n, n ≠ (fs.dirents i).child → (fs'.inodes n).parent = (fs.inodes n).parent

namespace Ramfs.Removes

variable (removes : fs.Removes fs' i)
include removes

theorem entry_iff : fs'.Entry j ↔ j ≠ i ∧ fs.Entry j := by
  rw [Ramfs.Entry, removes.dirents]
  by_cases here : j = i
  · simp [here]
  · simp [here, Ramfs.Entry]

theorem dirents_of_ne (other : j ≠ i) : fs'.dirents j = fs.dirents j := by
  rw [removes.dirents, update_of_ne other]

theorem isDir (isDir : fs.IsDir n) (other : n ≠ (fs.dirents i).child) : fs'.IsDir n :=
  ⟨isDir.small, (removes.used n other).trans isDir.used, (removes.kind n other).trans isDir.kind⟩

/-- Nothing hung below the inode, so everything else still hangs below the root. -/
theorem reached_old (reached : fs.Reached n) (other : n ≠ (fs.dirents i).child) : fs'.Reached n := by
  induction reached with
  | root => exact .root
  | @entry j entry above ih =>
    have isOther : j ≠ i := by
      rintro rfl
      exact other rfl
    have here := removes.dirents_of_ne isOther
    have := Ramfs.Reached.entry (removes.entry_iff.mpr ⟨isOther, entry⟩)
      (by rw [here]; exact ih (removes.leaf j entry))
    rwa [here] at this

theorem reached_new (tree : fs.Tree) (reached : fs'.Reached n) :
    fs.Reached n ∧ n ≠ (fs.dirents i).child := by
  induction reached with
  | root => exact ⟨.root, (tree.top i removes.entry).symm⟩
  | @entry j entry above ih =>
    obtain ⟨isOther, old⟩ := removes.entry_iff.mp entry
    rw [removes.dirents_of_ne isOther] at ih ⊢
    exact ⟨.entry old ih.1, fun same => isOther (tree.single j i old removes.entry same)⟩

end Ramfs.Removes

theorem Ramfs.Tree.removed (tree : fs.Tree) (removes : fs.Removes fs' i) : fs'.Tree := by
  have old {j} (entry : fs'.Entry j) : fs.Entry j := (removes.entry_iff.mp entry).2
  have same {j} (entry : fs'.Entry j) : fs'.dirents j = fs.dirents j :=
    removes.dirents_of_ne (removes.entry_iff.mp entry).1
  have apart {j} (entry : fs'.Entry j) : (fs.dirents j).child ≠ (fs.dirents i).child := fun same =>
    (removes.entry_iff.mp entry).1 (tree.single j i (old entry) removes.entry same)
  have top := (tree.top i removes.entry).symm
  refine ⟨fun j j' one other => ?_, fun j j' one other => ?_, fun j one => ?_, fun j one => ?_,
    fun j one => ?_, fun j one => ?_, fun j one => ?_, fun j one => ?_, fun j one => ?_, ?_⟩
  · rw [same one, same other]
    exact tree.unique j j' (old one) (old other)
  · rw [same one, same other]
    exact tree.single j j' (old one) (old other)
  · rw [same one]
    exact tree.small j (old one)
  · rw [same one, removes.used _ (apart one)]
    exact tree.used j (old one)
  · rw [same one, removes.parent _ (apart one)]
    exact tree.above j (old one)
  · rw [same one]
    exact removes.isDir (tree.dir j (old one)) (removes.leaf j (old one))
  · rw [same one]
    exact tree.name j (old one)
  · rw [same one]
    exact removes.reached_old (tree.reached j (old one)) (apart one)
  · rw [same one]
    exact tree.top j (old one)
  · rw [removes.used _ top, removes.kind _ top, removes.parent _ top]
    exact tree.root

theorem Ramfs.Removes.lookup (tree : fs.Tree) (removes : fs.Removes fs' i) :
    fs'.lookup cur name =
      if fs.lookup cur name = some (fs.dirents i).child then none else fs.lookup cur name := by
  ext n
  rw [(tree.removed removes).lookup_iff]
  constructor
  · rintro ⟨j, entry, here, named, leads⟩
    obtain ⟨isOther, old⟩ := removes.entry_iff.mp entry
    rw [removes.dirents_of_ne isOther] at here named leads
    have found := tree.lookup_iff.mpr ⟨j, old, here, named, leads⟩
    rw [if_neg, found]
    rw [found, Option.some.injEq, ← leads]
    exact fun same => isOther (tree.single j i old removes.entry same)
  · intro found
    split_ifs at found with isGone
    obtain ⟨j, old, here, named, leads⟩ := lookup_some found
    have isOther : j ≠ i := by
      rintro rfl
      exact isGone (found.trans (congrArg some leads.symm))
    refine ⟨j, removes.entry_iff.mpr ⟨isOther, old⟩, ?_⟩
    rw [removes.dirents_of_ne isOther]
    exact ⟨here, named, leads⟩

end Removing

section Paths

variable {small big : Ramfs}

/-- Somewhere along the names a walk stands at an inode. -/
def Ramfs.PassesNames (fs : Ramfs) (cur : Nat) (names : List Name) (inum : Nat) : Prop :=
  ∃ front rest, names = front ++ rest ∧ fs.walkNames cur front = .ok inum

/-- Somewhere along a path a walk stands at an inode. -/
def Ramfs.Passes (fs : Ramfs) (path : List UInt8) (inum : Nat) : Prop :=
  path ≠ [] ∧ fs.PassesNames rootIno (components path) inum

theorem Ramfs.PassesNames.cons (step : fs.walkName cur name = .ok n)
    (passes : fs.PassesNames n names inum) : fs.PassesNames cur (name :: names) inum := by
  obtain ⟨front, rest, rfl, walked⟩ := passes
  exact ⟨name :: front, rest, rfl, walkNames_cons_ok.mpr ⟨n, step, walked⟩⟩

/-- The second state has one inode more below the root, and nothing below that. -/
structure Ramfs.Extends (small big : Ramfs) (inum : Nat) : Prop where
  root : rootIno ≠ inum
  tree : small.Tree
  apart : ∀ cur, small.Reached cur → cur ≠ inum
  other : ∀ cur name, small.Reached cur → big.walkName cur name ≠ .ok inum →
    small.walkName cur name = big.walkName cur name
  gone : ∀ cur name, small.Reached cur → big.walkName cur name = .ok inum →
    small.walkName cur name = .error .enoent

namespace Ramfs.Extends

variable (extends' : small.Extends big inum)
include extends'

/-- Walks that do not come to the inode are the same. -/
theorem walkNames_other (reached : small.Reached cur) (avoids : ¬ big.PassesNames cur names inum) :
    small.walkNames cur names = big.walkNames cur names := by
  induction names generalizing cur with
  | nil => rw [walkNames_nil, walkNames_nil]
  | cons name names ih =>
    have notNext : big.walkName cur name ≠ .ok inum := fun step =>
      avoids (.cons step ⟨[], names, rfl, rfl⟩)
    have same := extends'.other cur name reached notNext
    rw [walkNames_cons, walkNames_cons, same]
    cases step : big.walkName cur name with
    | error => simp only [Except.bind]
    | ok next =>
      have below := extends'.tree.walkName_reached reached (same.trans step)
      exact ih below fun passes => avoids (.cons step passes)

/-- Walks that come to the inode fail without it. -/
theorem walkNames_gone (reached : small.Reached cur) (passes : big.PassesNames cur names inum) :
    small.walkNames cur names = .error .enoent := by
  obtain ⟨front, rest, rfl, walked⟩ := passes
  induction front generalizing cur with
  | nil =>
    cases walked
    exact absurd rfl (extends'.apart _ reached)
  | cons name front ih =>
    obtain ⟨next, step, walked⟩ := walkNames_cons_ok.mp walked
    rw [List.cons_append, walkNames_cons]
    by_cases isNew : next = inum
    · rw [extends'.gone cur name reached (isNew ▸ step)]
      rfl
    · have notNext : big.walkName cur name ≠ .ok inum := by
        rw [step]
        simpa using isNew
      have same := (extends'.other cur name reached notNext).trans step
      rw [same]
      exact ih (extends'.tree.walkName_reached reached same) walked

theorem walk_other (avoids : ¬ big.Passes path inum) : small.walk path = big.walk path := by
  by_cases some : path = []
  · rw [some, walk_nil, walk_nil]
  · rw [walk_eq some, walk_eq some]
    exact extends'.walkNames_other .root fun passes => avoids ⟨some, passes⟩

theorem walk_gone (passes : big.Passes path inum) : small.walk path = .error .enoent := by
  rw [walk_eq passes.1]
  exact extends'.walkNames_gone .root passes.2

end Ramfs.Extends

/-- A path that a new entry completes, and all that this changes. -/
structure Ramfs.AddsPath (fs fs' : Ramfs) (path : List UInt8) (inum : Nat) : Prop where
  fresh : (fs.inodes inum).used = false
  used : (fs'.inodes inum).used = true
  leads : fs'.walk path = .ok inum
  keeps : ∀ path n, fs.walk path = .ok n → fs'.walk path = .ok n
  only : ∀ path, ¬ fs'.Passes path inum → fs'.walk path = fs.walk path

/-- A path that an entry no longer completes, and all that this changes. -/
structure Ramfs.RemovesPath (fs fs' : Ramfs) (path : List UInt8) (inum : Nat) : Prop where
  led : fs.walk path = .ok inum
  gone : ∀ path, fs.Passes path inum → fs'.walk path = .error .enoent
  only : ∀ path, ¬ fs.Passes path inum → fs'.walk path = fs.walk path

theorem Ramfs.Creates.extends (tree : fs.Tree) (creates : fs.Creates inum k parent name) :
    fs.Extends (fs.created inum k parent name kind) inum := by
  have root := (creates.root_ne tree).symm
  have apart (cur) (reached : fs.Reached cur) : cur ≠ inum := by
    rcases reached.cases_entry with rfl | ⟨i, entry, rfl⟩
    · exact root
    · intro same
      have used := tree.used i entry
      rw [same, creates.fresh] at used
      cases used
  have up (cur) (reached : fs.Reached cur) :
      (fs.created inum k parent name kind).up cur = fs.up cur := by
    have other := apart cur reached
    unfold Ramfs.up Ramfs.inode
    rw [creates.used_of_ne other]
    split_ifs
    · exact creates.parent_of_ne other
    · rfl
  refine ⟨root, tree, apart, fun cur n' reached notNew => ?_, fun cur n' reached step => ?_⟩
  · cases isDot : n'.isDot with
    | true => rcases Name.of_isDot isDot with rfl | rfl <;> simp [up cur reached]
    | false =>
      rw [walkName_plain isDot, creates.lookup tree] at notNew
      rw [walkName_plain isDot, walkName_plain isDot, creates.lookup tree]
      split_ifs at notNew ⊢
      · exact absurd rfl notNew
      · rfl
  · -- Only the new entry leads to the new inode.
    rcases walkName_ok.mp step with ⟨-, same⟩ | ⟨-, same⟩ | ⟨isDot, found⟩
    · exact absurd same.symm (apart cur reached)
    · rw [up cur reached] at same
      exact absurd same.symm (apart _ (tree.up_reached reached))
    · rw [creates.lookup tree] at found
      split_ifs at found with isNew
      · rw [walkName_plain isDot, isNew.1, isNew.2, creates.absent]
        rfl
      · obtain ⟨i, entry, -, -, leads⟩ := lookup_some found
        exact absurd leads (apart _ (tree.reached i entry))

/-- Once it has its entry, the path to the new inode leads there. -/
theorem Ramfs.Creates.addsPath (tree : fs.Tree) (creates : fs.Creates inum k parent name)
    (above : fs.splitParent path = some (parent, name)) :
    fs.AddsPath (fs.created inum k parent name kind) path inum := by
  have more : fs.Extends (fs.created inum k parent name kind) inum := creates.extends tree
  have someName := creates.valid.some
  obtain ⟨-, -, walked, split⟩ := splitParent_some above someName
  have keeps (path n) (walked : fs.walk path = .ok n) :
      (fs.created inum k parent name kind).walk path = .ok n := by
    rw [← more.walk_other, walked]
    intro passes
    cases (more.walk_gone passes).symm.trans walked
  refine ⟨creates.fresh, ?_, walk_ok.mpr ⟨?_, ?_⟩, keeps, fun path avoids => (more.walk_other avoids).symm⟩
  · rw [created_inodes creates.apart, if_pos rfl]
  · rintro rfl
    simp [Ramfs.splitParent] at above
  · have above := (walk_ok.mp (keeps (parentPath path) parent
      (walk_ok.mpr ⟨parentPath_ne_nil path, walked⟩))).2
    rw [split, walkNames_append_ok]
    refine ⟨parent, above, walkNames_cons_ok.mpr ⟨inum, ?_, walkNames_nil⟩⟩
    rw [walkName_plain creates.valid.notDot, creates.lookup tree, if_pos ⟨rfl, rfl⟩]
    simp only [Option.map_some, Option.getD_some]

theorem Ramfs.Removes.extends (tree : fs.Tree) (removes : fs.Removes fs' i) :
    fs'.Extends fs (fs.dirents i).child := by
  have up (cur) (reached : fs'.Reached cur) : fs'.up cur = fs.up cur := by
    have other := (removes.reached_new tree reached).2
    unfold Ramfs.up Ramfs.inode
    rw [removes.used cur other]
    split_ifs
    · exact removes.parent cur other
    · rfl
  have tree' := tree.removed removes
  have apart (cur) (reached : fs'.Reached cur) := (removes.reached_new tree reached).2
  refine ⟨(tree.top i removes.entry).symm, tree', apart, fun cur n' reached notGone => ?_,
    fun cur n' reached step => ?_⟩
  · cases isDot : n'.isDot with
    | true => rcases Name.of_isDot isDot with rfl | rfl <;> simp [up cur reached]
    | false =>
      rw [walkName_plain isDot] at notGone
      rw [walkName_plain isDot, walkName_plain isDot, removes.lookup tree, if_neg]
      intro found
      rw [found] at notGone
      exact notGone rfl
  · -- A step that stays or goes up never came from below the inode.
    rcases walkName_ok.mp step with ⟨-, same⟩ | ⟨-, same⟩ | ⟨isDot, found⟩
    · exact absurd same.symm (apart cur reached)
    · rw [← up cur reached] at same
      exact absurd same.symm (apart _ (tree'.up_reached reached))
    · rw [walkName_plain isDot, removes.lookup tree, if_pos found]
      rfl

theorem Ramfs.Removes.removesPath (tree : fs.Tree) (removes : fs.Removes fs' i)
    (led : fs.walk path = .ok (fs.dirents i).child) :
    fs.RemovesPath fs' path (fs.dirents i).child :=
  have less := removes.extends tree
  ⟨led, fun _ => less.walk_gone, fun _ => less.walk_other⟩

end Paths

end Rel4.Vfs
