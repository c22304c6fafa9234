import Rel4.Proof.Namespace

/-! What each operation on the file system does to its state. -/

namespace Rel4.Vfs

open Lib

variable {α : Type} {fs fs' : Ramfs} {i j k inum parent cur n : Nat} {name : Name} {kind : FileKind}
  {path : List UInt8} {flags : Nat}

section States

/-- The data pages of an inode. -/
def InodeData.pagesOf : InodeData → List (Fin maxDataPages)
  | .pages list => list
  | _ => []

/-- The pages in use once some are given back. -/
def Ramfs.freePages (fs : Ramfs) (pages : List (Fin maxDataPages)) : Fin maxDataPages → Bool :=
  fun p => if p ∈ pages then false else fs.pageUsed p

/-- An inode without its bytes. -/
def Ramfs.truncated (fs : Ramfs) (inum : Nat) : Ramfs :=
  { fs.updInode inum fun node => { node with size := 0, src := .pages [] } with
    pageUsed := fs.freePages (fs.inodes inum).src.pagesOf }

/-- Whether an inode can be given a reference more. -/
def Ramfs.CanRetain (fs : Ramfs) (inum : Nat) : Prop :=
  inum < maxInodes ∧ (fs.inodes inum).used = true ∧ (fs.inodes inum).refs ≠ u16Max

instance : Decidable (fs.CanRetain inum) := inferInstanceAs (Decidable (_ ∧ _))

/-- An inode with a reference more, if it can be given one. -/
def Ramfs.retained (fs : Ramfs) (inum : Nat) : Ramfs :=
  if fs.CanRetain inum then fs.updInode inum fun node => { node with refs := node.refs + 1 } else fs

/-- An inode with a reference less, if it is in use. -/
def Ramfs.released (fs : Ramfs) (inum : Nat) : Ramfs :=
  if inum < maxInodes ∧ (fs.inodes inum).used = true then
    fs.updInode inum fun node => { node with refs := node.refs - 1 }
  else fs

/-- Whether nothing holds an inode any more once it has lost one of its names. -/
def Inode.Loose (node : Inode) : Prop := node.nlink ≤ 1 ∧ node.refs = 0 ∧ node.kind ≠ .directory

instance (node : Inode) : Decidable node.Loose := inferInstanceAs (Decidable (_ ∧ _))

/-- An entry is gone, and the inode behind it if nothing else holds it. -/
def Ramfs.unlinked (fs : Ramfs) (i : Nat) : Ramfs :=
  let inum := (fs.dirents i).child
  let node := fs.inodes inum
  let cut := { fs with dirents := Function.update fs.dirents i {} }
  if node.Loose then
    { cut.updInode inum fun _ => {} with pageUsed := fs.freePages node.src.pagesOf }
  else cut.updInode inum fun node => { node with nlink := node.nlink - 1 }

end States

section Rules

variable {post : α → Ramfs → Prop} {fail : Stop → Ramfs → Prop}

/-- Giving back the bytes of an inode always succeeds. -/
theorem wp_freeInodeData {post : Unit → Ramfs → Prop} :
    wp (freeInodeData inum) post fail fs ↔
      post () { fs.updInode inum fun node => { node with src := .none, size := 0 } with
        pageUsed := fs.freePages (fs.inodes inum).src.pagesOf } := by
  unfold freeInodeData Ramfs.freePages
  cases src : (fs.inodes inum).src with
  | none => simp [src, InodeData.pagesOf, Ramfs.updInode]
  | embedded => simp [src, InodeData.pagesOf, Ramfs.updInode]
  | pages list =>
    simp only [wp_bind, wp_get, src, wp_set, wp_modifyInode]
    rfl

theorem wp_truncate {post : Unit → Ramfs → Prop} :
    wp (truncate inum) post fail fs ↔ post () (fs.truncated inum) := by
  unfold truncate
  simp [wp_freeInodeData, Ramfs.truncated, Ramfs.updInode]

theorem wp_retain {post : Bool → Ramfs → Prop} :
    wp (retain inum) post fail fs ↔ post (decide (fs.CanRetain inum)) (fs.retained inum) := by
  unfold retain Ramfs.retained
  simp only [wp_bind, wp_get]
  by_cases can : fs.CanRetain inum
  · have := can
    unfold Ramfs.CanRetain at this
    simp [this, can]
  · have := can
    unfold Ramfs.CanRetain at this
    simp [this, can]

theorem wp_release {post : Bool → Ramfs → Prop} :
    wp (release inum) post fail fs ↔
      post (decide (inum < maxInodes ∧ (fs.inodes inum).used = true)) (fs.released inum) := by
  unfold release Ramfs.released
  simp only [wp_bind, wp_get]
  by_cases can : inum < maxInodes ∧ (fs.inodes inum).used = true <;> simp [can]

/-- A reference that is given back at once leaves no trace. -/
theorem released_retained (can : fs.CanRetain inum) : (fs.retained inum).released inum = fs := by
  unfold Ramfs.retained
  rw [if_pos can]
  unfold Ramfs.released
  rw [if_pos (by simpa using ⟨can.1, can.2.1⟩)]
  refine Ramfs.ext (funext fun n => ?_) rfl rfl rfl
  simp only [updInode_inodes]
  split_ifs with here
  · rw [here]
    rfl
  · rfl

end Rules

section Specs

/-- The operation failed with an error and did nothing. -/
def Ramfs.Refused (fs : Ramfs) (stop : Stop) (fs' : Ramfs) : Prop := fs' = fs ∧ ∃ e, stop = .errno e

/-- Why a file cannot be made. -/
def Ramfs.CannotCreate (fs : Ramfs) (parent : Nat) (name : Name) : Prop :=
  name.length = 0 ∨ nameMax < name.length ∨ fs.lookup parent name ≠ none ∨ ¬ fs.IsDir parent ∨
    fs.freeInode = none

theorem inode_some {node : Inode} (found : fs.inode n = some node) :
    n < maxInodes ∧ (fs.inodes n).used = true ∧ node = fs.inodes n := by
  unfold Ramfs.inode at found
  split_ifs at found with here
  exact ⟨here.1, here.2, (Option.some.inj found).symm⟩

theorem inode_none (absent : fs.inode n = none) : ¬ fs.IsDir n := by
  unfold Ramfs.inode at absent
  split_ifs at absent with here
  exact fun isDir => here ⟨isDir.small, isDir.used⟩

theorem wp_allocInode {post : Nat → Ramfs → Prop} {fail : Stop → Ramfs → Prop}
    (free : fs.freeInode = some inum) :
    wp (allocInode kind parent) post fail fs ↔
      post inum (fs.updInode inum fun _ =>
        { used := true, kind, nlink := if kind = .directory then 2 else 1, parent }) := by
  unfold allocInode
  simp only [wp_bind, wp_get, free, wp_set, wp_pure]

theorem wp_allocInode_none {post : Nat → Ramfs → Prop} {fail : Stop → Ramfs → Prop}
    (full : fs.freeInode = none) :
    wp (allocInode kind parent) post fail fs ↔ fail (.errno .enospc) fs := by
  unfold allocInode
  simp only [wp_bind, wp_get, full, wp_err]

theorem wp_addDirent {post : Unit → Ramfs → Prop} {fail : Stop → Ramfs → Prop}
    (free : fs.freeDirent = some k) :
    wp (addDirent parent inum name) post fail fs ↔
      post () { fs with
        dirents := Function.update fs.dirents k { used := true, parent, child := inum, name } } := by
  unfold addDirent
  simp only [wp_bind, wp_get, free, wp_set]

theorem updInode_freeDirent (change : Inode → Inode) :
    (fs.updInode inum change).freeDirent = fs.freeDirent := rfl

theorem createFile_spec (tree : fs.Tree) (reached : fs.Reached parent) (plain : slash ∉ name)
    (notDot : name.isDot = false) :
    wp (createFile parent name kind)
      (fun inum fs' => ∃ k, fs.freeInode = some inum ∧ fs.Creates inum k parent name ∧
        fs' = fs.created inum k parent name kind)
      (fun stop fs' => fs.Refused stop fs' ∧ fs.CannotCreate parent name) fs := by
  unfold createFile
  simp only [wp_bind, wp_ite, wp_err, wp_get, wp_pure, wp_modifyInode]
  refine ⟨fun bad => ⟨⟨rfl, _, rfl⟩, bad.imp_right .inl⟩, fun fits => ⟨fun taken => ?_, fun absent => ?_⟩⟩
  · refine ⟨⟨rfl, _, rfl⟩, .inr (.inr (.inl fun none => ?_))⟩
    simp [none] at taken
  rw [wp_orErr]
  refine ⟨fun node found => ⟨fun notDir => ?_, fun isDir => ?_⟩, fun none => ?_⟩
  · obtain ⟨-, -, rfl⟩ := inode_some found
    exact ⟨⟨rfl, _, rfl⟩, .inr (.inr (.inr (.inl fun isDir => notDir isDir.kind)))⟩
  · obtain ⟨small, used, rfl⟩ := inode_some found
    rw [not_not] at isDir
    cases free : fs.freeInode with
    | none =>
      rw [wp_allocInode_none free]
      exact ⟨⟨rfl, _, rfl⟩, .inr (.inr (.inr (.inr free)))⟩
    | some inum =>
      -- The inode comes first; there is always a slot for its entry.
      have fresh := freeInode_some free
      obtain ⟨k, slot⟩ := tree.freeDirent
      have room := freeDirent_some slot
      have creates : fs.Creates inum k parent name := by
        refine ⟨fresh.2.1, fresh.2.2, room.1, room.2, ⟨small, used, isDir⟩, reached,
          ⟨?_, plain, notDot⟩, by simpa using absent⟩
        rintro rfl
        exact fits (.inl rfl)
      rw [wp_allocInode free, wp_addDirent ((updInode_freeDirent _).trans slot)]
      refine ⟨fun directory => ⟨k, rfl, creates, ?_⟩, fun other => ⟨k, rfl, creates, ?_⟩⟩
      · simp only [Ramfs.created, if_pos directory]
      · simp only [Ramfs.created, if_neg other]
  · exact ⟨⟨rfl, _, rfl⟩, .inr (.inr (.inr (.inl (inode_none none))))⟩

/-- Where a walk fails, the last name of the path is one that an entry may have. -/
theorem splitParent_named {e : Errno} (failed : fs.walk path = .error e)
    (above : fs.splitParent path = some (parent, name)) : name ≠ [] ∧ name.isDot = false := by
  have some : path ≠ [] := by
    rintro rfl
    simp [Ramfs.splitParent] at above
  rw [walk_eq some] at failed
  have named : name ≠ [] := by
    rintro rfl
    by_cases trimmed : path.rdropWhile (· == slash) = []
    · have slashes : ∀ byte ∈ path, byte = slash := by
        intro byte member
        have whole : path.rdropWhile (· == slash) ++ path.rtakeWhile (· == slash) = path :=
          List.rdropWhile_append_rtakeWhile ..
        rw [← whole, trimmed, List.nil_append] at member
        simpa using List.mem_rtakeWhile_imp member
      rw [components_slashes slashes, walkNames_nil] at failed
      cases failed
    · rw [splitParent_eq trimmed] at above
      cases walked : fs.walk (parentPath path) with
      | error => simp [walked] at above
      | ok dir =>
        simp only [walked, Option.some.injEq, Prod.mk.injEq] at above
        exact lastName_ne_nil trimmed above.2
  refine ⟨named, ?_⟩
  -- A walk to a directory may always stay there or go up.
  cases isDot : name.isDot with
  | false => rfl
  | true =>
    rw [walkNames_split above named] at failed
    rcases Name.of_isDot isDot with rfl | rfl <;> simp at failed

theorem Ramfs.Tree.splitParent_reached (tree : fs.Tree) (named : name ≠ [])
    (above : fs.splitParent path = some (parent, name)) : fs.Reached parent :=
  tree.walkNames_reached .root (splitParent_some above named).2.2.1

/-- A new inode at the end of a path that led nowhere before. -/
structure Ramfs.Makes (fs : Ramfs) (path : List UInt8) (kind : FileKind) (inum : Nat) (fs' : Ramfs)
    (k parent : Nat) (name : Name) : Prop where
  missing : fs.walk path = .error .enoent
  free : fs.freeInode = some inum
  above : fs.splitParent path = some (parent, name)
  creates : fs.Creates inum k parent name
  made : fs' = fs.created inum k parent name kind

theorem Ramfs.Makes.addsPath (tree : fs.Tree) (makes : fs.Makes path kind inum fs' k parent name) :
    fs.AddsPath fs' path inum := by
  rw [makes.made]
  exact makes.creates.addsPath tree makes.above

theorem Ramfs.Makes.tree (tree : fs.Tree) (makes : fs.Makes path kind inum fs' k parent name) :
    fs'.Tree := by
  rw [makes.made]
  exact tree.created makes.creates

/-- Why nothing can be made at a path. -/
def Ramfs.CannotMake (fs : Ramfs) (path : List UInt8) : Prop :=
  (∃ n, fs.walk path = .ok n) ∨ fs.splitParent path = none ∨
    ∃ parent name, fs.splitParent path = some (parent, name) ∧ fs.CannotCreate parent name

theorem make_spec (tree : fs.Tree) {e : Errno} (missing : fs.walk path = .error e)
    (above : fs.splitParent path = some (parent, name)) :
    wp (createFile parent name kind)
      (fun inum fs' => ∃ k, fs.Makes path kind inum fs' k parent name)
      (fun stop fs' => fs.Refused stop fs' ∧ fs.CannotMake path) fs := by
  have named := splitParent_named missing above
  have plain := (splitParent_some above named.1).2.1
  refine wp_mono (createFile_spec tree (tree.splitParent_reached named.1 above) plain named.2) ?_ ?_
  · rintro inum fs' ⟨k, free, creates, made⟩
    exact ⟨k, walk_error missing ▸ missing, free, above, creates, made⟩
  · rintro stop fs' ⟨refused, why⟩
    exact ⟨refused, .inr (.inr ⟨parent, name, above, why⟩)⟩

theorem mkdir_spec (tree : fs.Tree) :
    wp (mkdir path)
      (fun inum fs' => ∃ k parent name, fs.Makes path .directory inum fs' k parent name)
      (fun stop fs' => fs.Refused stop fs' ∧ fs.CannotMake path) fs := by
  unfold mkdir
  simp only [wp_bind, wp_get]
  cases walked : fs.walk path with
  | ok n =>
    simp only [wp_err]
    exact ⟨⟨rfl, _, rfl⟩, .inl ⟨n, walked⟩⟩
  | error e =>
    simp only [wp_bind, wp_orErr, wp_ite, wp_err]
    refine ⟨?_, fun none => ⟨⟨rfl, _, rfl⟩, .inr (.inl none)⟩⟩
    rintro ⟨parent, name⟩ above
    refine ⟨fun bad => ?_, fun _ => ?_⟩
    · have named := splitParent_named walked above
      rcases bad with empty | isDot
      · exact absurd empty named.1
      · exact absurd isDot (by simp [named.2])
    · refine wp_mono (make_spec tree walked above) ?_ fun _ _ => id
      rintro inum fs' ⟨k, makes⟩
      exact ⟨k, parent, name, makes⟩

/-- A directory at the end of a path, new or not. -/
def Ramfs.Ensures (fs : Ramfs) (path : List UInt8) (inum : Nat) (fs' : Ramfs) : Prop :=
  fs' = fs ∧ fs.walk path = .ok inum ∧ fs.IsDir inum ∨
    ∃ k parent name, fs.Makes path .directory inum fs' k parent name

theorem ensureDir_spec (tree : fs.Tree) :
    wp (ensureDir path) (fs.Ensures path)
      (fun stop fs' => fs.Refused stop fs' ∧ ((∃ n, fs.walk path = .ok n ∧ ¬ fs.IsDir n) ∨
        fs.walk path = .error .enoent ∧ fs.CannotMake path)) fs := by
  unfold ensureDir
  simp only [wp_bind, wp_get]
  cases walked : fs.walk path with
  | ok n =>
    simp only [wp_bind, wp_orErr, wp_ite, wp_err, wp_pure]
    refine ⟨fun node found => ⟨fun notDir => ?_, fun isDir => ?_⟩, fun none => ?_⟩
    · obtain ⟨-, -, rfl⟩ := inode_some found
      exact ⟨⟨rfl, _, rfl⟩, .inl ⟨n, rfl, fun isDir => notDir isDir.kind⟩⟩
    · obtain ⟨small, used, rfl⟩ := inode_some found
      exact .inl ⟨rfl, walked, small, used, not_not.mp isDir⟩
    · exact ⟨⟨rfl, _, rfl⟩, .inl ⟨n, rfl, inode_none none⟩⟩
  | error e =>
    obtain rfl := walk_error walked
    dsimp only
    rw [if_pos rfl]
    refine wp_mono (mkdir_spec tree) (fun _ _ made => .inr made) ?_
    rintro stop fs' ⟨refused, why⟩
    exact ⟨refused, .inr ⟨rfl, why⟩⟩

/-- A file at the end of a new path, with its bytes in the archive. -/
def Ramfs.embedded (fs : Ramfs) (inum offset len : Nat) : Ramfs :=
  fs.updInode inum fun node => { node with size := len, src := .embedded offset len }

theorem embedFile_spec (tree : fs.Tree) (offset len : Nat) :
    wp (embedFile path offset len)
      (fun inum fs' => fs' = fs ∧ fs.walk path = .ok inum ∨
        ∃ made k parent name, fs.Makes path .file inum made k parent name ∧
          fs' = made.embedded inum offset len)
      (fun stop fs' => fs.Refused stop fs' ∧ fs.CannotMake path) fs := by
  unfold embedFile
  simp only [wp_bind, wp_get]
  cases walked : fs.walk path with
  | ok n =>
    simp only [wp_pure]
    exact .inl ⟨trivial, trivial⟩
  | error e =>
    simp only [wp_bind, wp_orErr, wp_ite, wp_err, wp_pure, wp_modifyInode]
    refine ⟨?_, fun none => ⟨⟨rfl, _, rfl⟩, .inr (.inl none)⟩⟩
    rintro ⟨parent, name⟩ above
    refine ⟨fun bad => ?_, fun _ => ⟨fun unused => ?_, fun _ => ?_⟩⟩
    · exact absurd bad (splitParent_named walked above).1
    · refine ⟨⟨rfl, _, rfl⟩, .inr (.inr ⟨parent, name, above, .inr (.inr (.inr (.inl fun isDir => ?_)))⟩)⟩
      cases unused.symm.trans isDir.used
    · refine wp_mono (make_spec tree walked above) ?_ fun _ _ => id
      rintro inum fs' ⟨k, makes⟩
      exact .inr ⟨fs', k, parent, name, makes, rfl⟩

/-- A file as an open finds it, emptied if that was asked for. -/
def Ramfs.opened (fs : Ramfs) (inum flags : Nat) : Ramfs :=
  if flags &&& oTrunc ≠ 0 ∧ (fs.inodes inum).kind = .file then fs.truncated inum else fs

/-- What an open that succeeds leaves behind. -/
inductive Ramfs.Opens (fs : Ramfs) (path : List UInt8) (flags : Nat) :
    Nat × FileKind × Nat → Ramfs → Prop
  | old {inum : Nat} (walked : fs.walk path = .ok inum) (small : inum < maxInodes)
      (used : (fs.inodes inum).used = true) :
      fs.Opens path flags
        (inum, (fs.inodes inum).kind, ((fs.opened inum flags).inodes inum).size)
        ((fs.opened inum flags).retained inum)
  | new {inum k parent : Nat} {name : Name} {made : Ramfs} (asked : flags &&& oCreat ≠ 0)
      (makes : fs.Makes path .file inum made k parent name) :
      fs.Opens path flags (inum, .file, 0) (made.retained inum)

@[simp] theorem truncated_used : ((fs.truncated inum).inodes n).used = (fs.inodes n).used := by
  simp only [Ramfs.truncated, updInode_inodes]
  split_ifs with here
  · rw [here]
  · rfl

@[simp] theorem truncated_kind : ((fs.truncated inum).inodes n).kind = (fs.inodes n).kind := by
  simp only [Ramfs.truncated, updInode_inodes]
  split_ifs with here
  · rw [here]
  · rfl

theorem opened_inode (flags : Nat) (small : inum < maxInodes) (used : (fs.inodes inum).used = true) :
    ((fs.opened inum flags).retained inum).inode inum =
      some (((fs.opened inum flags).retained inum).inodes inum) ∧
    (((fs.opened inum flags).retained inum).inodes inum).kind = (fs.inodes inum).kind ∧
    (((fs.opened inum flags).retained inum).inodes inum).size =
      ((fs.opened inum flags).inodes inum).size := by
  have sameUsed : ((fs.opened inum flags).inodes inum).used = true := by
    unfold Ramfs.opened
    split_ifs <;> simp [used]
  have sameKind : ((fs.opened inum flags).inodes inum).kind = (fs.inodes inum).kind := by
    unfold Ramfs.opened
    split_ifs <;> simp
  unfold Ramfs.inode
  rw [if_pos]
  · unfold Ramfs.retained
    split_ifs <;> simp [sameKind]
  · unfold Ramfs.retained
    split_ifs <;> simp [small, sameUsed]

theorem openPath_spec (tree : fs.Tree) :
    wp (openPath path flags) (fs.Opens path flags) fs.Refused fs := by
  unfold openPath
  simp only [wp_bind, wp_get]
  cases walked : fs.walk path with
  | ok inum =>
    simp only [wp_bind, wp_ite, wp_err, wp_orErr, wp_retain, wp_get, wp_pure, wp_truncate]
    refine ⟨fun _ => ⟨rfl, _, rfl⟩, fun _ => ⟨fun node found => ?_, fun _ => ⟨rfl, _, rfl⟩⟩⟩
    obtain ⟨small, used, rfl⟩ := inode_some found
    refine ⟨fun _ => ⟨rfl, _, rfl⟩, fun _ => ⟨fun _ => ⟨rfl, _, rfl⟩, fun _ => ?_⟩⟩
    -- The inode is still there after it has been emptied and counted.
    have after : fs.opened inum flags =
        if flags &&& oTrunc ≠ 0 ∧ (fs.inodes inum).kind = .file then fs.truncated inum else fs := rfl
    obtain ⟨there, sameKind, sameSize⟩ := opened_inode flags small used
    have old : fs.Opens path flags _ _ := .old walked small used
    rw [← sameKind, ← sameSize] at old
    refine ⟨fun trunc => ?_, fun keep => ?_⟩
    · rw [if_pos trunc] at after
      rw [after] at there old
      rw [there]
      simp only [Option.some.injEq, reduceCtorEq, IsEmpty.forall_iff, and_true]
      rintro node rfl
      exact old
    · rw [if_neg keep] at after
      rw [after] at there old
      rw [there]
      simp only [Option.some.injEq, reduceCtorEq, IsEmpty.forall_iff, and_true]
      rintro node rfl
      exact old
  | error e =>
    simp only [wp_bind, wp_ite, wp_err, wp_orErr, wp_retain, wp_pure]
    refine ⟨fun asked => ⟨?_, fun _ => ⟨rfl, _, rfl⟩⟩, fun _ => ⟨rfl, _, rfl⟩⟩
    rintro ⟨parent, name⟩ above
    refine ⟨fun _ => ⟨rfl, _, rfl⟩, fun _ => ?_⟩
    refine wp_mono (make_spec tree walked above) ?_ fun _ _ refused => refused.1
    rintro inum fs' ⟨k, makes⟩
    exact .new asked.2 makes

/-- The entry an unlink removes. -/
structure Ramfs.Unlinks (fs : Ramfs) (path : List UInt8) (flags i : Nat) : Prop where
  entry : fs.Entry i
  led : fs.walk path = .ok (fs.dirents i).child
  leaf : ∀ j, fs.Entry j → (fs.dirents j).parent ≠ (fs.dirents i).child
  kind : flags &&& atRemovedir ≠ 0 ↔ (fs.inodes (fs.dirents i).child).kind = .directory

theorem wp_removeDirent {post : Unit → Ramfs → Prop} {fail : Stop → Ramfs → Prop} :
    wp (removeDirent parent name) post fail fs ↔
      (∀ i, fs.findDirent parent name = some i →
        post () { fs with dirents := Function.update fs.dirents i {} }) ∧
      (fs.findDirent parent name = none → fail (.errno .enoent) fs) := by
  unfold removeDirent
  simp only [wp_bind, wp_get]
  cases fs.findDirent parent name <;> simp

theorem unlinkInode_spec (tree : fs.Tree) (walked : fs.walk path = .ok inum) :
    wp (unlinkInode path inum)
      (fun _ fs' => ∃ i, fs.Entry i ∧ (fs.dirents i).child = inum ∧ fs' = fs.unlinked i)
      fs.Refused fs := by
  unfold unlinkInode
  simp only [wp_bind, wp_get, wp_orErr, wp_removeDirent, wp_modifyInode, wp_ite, wp_freeInodeData,
    wp_pure]
  refine ⟨?_, fun _ => ⟨rfl, _, rfl⟩⟩
  rintro ⟨parent, name⟩ above
  refine ⟨fun i found => ?_, fun _ => ⟨rfl, _, rfl⟩⟩
  have here := findDirent_some found
  have valid := here.2.2 ▸ tree.name i here.1
  -- The walk along the whole path took the entry that is now removed.
  have leads : (fs.dirents i).child = inum := by
    have whole := (walk_ok.mp walked).2
    rw [walkNames_split above valid.some, walkName_plain valid.notDot, Ramfs.lookup, found] at whole
    simpa using whole
  subst leads
  refine ⟨fun loose => ⟨i, here.1, rfl, ?_⟩, fun held => ⟨i, here.1, rfl, ?_⟩⟩
  · have loose' : (fs.inodes (fs.dirents i).child).Loose := by
      simp only [updInode_inodes, if_true] at loose
      exact ⟨by omega, loose.2⟩
    simp only [Ramfs.unlinked, if_pos loose', updInode_inodes, if_true]
    simp only [Ramfs.updInode, Function.update_idem]
    rfl
  · have held' : ¬ (fs.inodes (fs.dirents i).child).Loose := by
      simp only [updInode_inodes, if_true] at held
      exact fun loose => held ⟨by have := loose.1; omega, loose.2⟩
    simp only [Ramfs.unlinked, if_neg held']

theorem unlink_spec (tree : fs.Tree) :
    wp (unlink path flags) (fun _ fs' => ∃ i, fs.Unlinks path flags i ∧ fs' = fs.unlinked i)
      fs.Refused fs := by
  unfold unlink
  simp only [wp_bind, wp_get]
  cases walked : fs.walk path with
  | error e =>
    simp only [wp_err]
    exact ⟨rfl, _, rfl⟩
  | ok inum =>
    have rest (leaf : ∀ j, fs.Entry j → (fs.dirents j).parent ≠ inum)
        (kind : flags &&& atRemovedir ≠ 0 ↔ (fs.inodes inum).kind = .directory) :
        wp (unlinkInode path inum)
          (fun _ fs' => ∃ i, fs.Unlinks path flags i ∧ fs' = fs.unlinked i) fs.Refused fs := by
      refine wp_mono (unlinkInode_spec tree walked) ?_ fun _ _ => id
      rintro _ fs' ⟨i, entry, rfl, made⟩
      exact ⟨i, ⟨entry, walked, leaf, kind⟩, made⟩
    simp only [wp_bind, wp_ite, wp_err, wp_orErr]
    refine ⟨fun node found => ⟨fun asked => ⟨fun _ => ⟨rfl, _, rfl⟩, fun isDir =>
      ⟨fun _ => ⟨rfl, _, rfl⟩, fun empty => rest ?_ ?_⟩⟩,
      fun asked => ⟨fun _ => ⟨rfl, _, rfl⟩, fun notDir => rest ?_ ?_⟩⟩, fun _ => ⟨rfl, _, rfl⟩⟩
    · intro j entry here
      have empty : fs.dirEmpty inum = true := by simpa using empty
      have none := List.all_eq_true.mp empty j (List.mem_range.mpr entry.1)
      simp [entry.2, here] at none
    · obtain ⟨-, -, rfl⟩ := inode_some found
      exact iff_of_true asked (not_not.mp isDir)
    · obtain ⟨-, -, rfl⟩ := inode_some found
      exact fun j entry here => notDir (here ▸ (tree.dir j entry).kind)
    · obtain ⟨-, -, rfl⟩ := inode_some found
      exact iff_of_false asked notDir

theorem Ramfs.Unlinks.removes (unlinks : fs.Unlinks path flags i) :
    fs.Removes (fs.unlinked i) i := by
  refine ⟨unlinks.entry, unlinks.leaf, ?_, fun n other => ?_, fun n other => ?_, fun n other => ?_⟩
  · unfold Ramfs.unlinked
    dsimp only
    split_ifs <;> rfl
  all_goals
    unfold Ramfs.unlinked
    dsimp only
    split_ifs <;> simp [other]

end Specs

end Rel4.Vfs
