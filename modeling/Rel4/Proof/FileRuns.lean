import Mathlib.Algebra.Order.BigOperators.Group.Finset
import Rel4.Proof.FileWrite

/-! What holds of the file system after any sequence of operations. -/

namespace Rel4.Vfs

open Lib

variable {α : Type} {rootfs : List UInt8} {part : Nat → Nat → Prop} {fs fs' start : Ramfs} {i k inum n parent : Nat} {name : Name}
  {kind : FileKind} {path : List UInt8} {flags : Nat} {p : Fin maxDataPages}

section Changes

/-- The ways in which operations change the state. Files are put in place from parts of the archive
that meet the condition. -/
inductive Ramfs.Change (part : Nat → Nat → Prop) (fs : Ramfs) : Ramfs → Prop
  | counted (inum refs : Nat) : fs.Change part (fs.updInode inum fun node => { node with refs })
  | created {inum k parent : Nat} {name : Name} {kind : FileKind}
      (creates : fs.Creates inum k parent name) : fs.Change part (fs.created inum k parent name kind)
  | embedded {inum offset len : Nat} (file : (fs.inodes inum).kind = .file)
      (empty : (fs.inodes inum).src = .none) (fits : part offset len) :
      fs.Change part (fs.embedded inum offset len)
  | unlinked {path : List UInt8} {flags i : Nat} (unlinks : fs.Unlinks path flags i) :
      fs.Change part (fs.unlinked i)
  | truncated {inum : Nat} (small : inum < maxInodes) (used : (fs.inodes inum).used = true) :
      fs.Change part (fs.truncated inum)
  | wrote {fs' : Ramfs} {inum size : Nat} {new : List (Fin maxDataPages)} (small : inum < maxInodes)
      (used : (fs.inodes inum).used = true)
      (writes : fs.Writes fs' inum size (fs.inodes inum).src.pagesOf new) : fs.Change part fs'

/-- Changes, one after the other. -/
abbrev Ramfs.Moves (part : Nat → Nat → Prop) : Ramfs → Ramfs → Prop :=
  Relation.ReflTransGen (Ramfs.Change part)

theorem Ramfs.Change.moves (change : fs.Change part fs') : fs.Moves part fs' := .single change

theorem retained_moves (fs : Ramfs) (inum : Nat) : fs.Moves part (fs.retained inum) := by
  unfold Ramfs.retained
  split_ifs
  · exact (Ramfs.Change.counted inum ((fs.inodes inum).refs + 1)).moves
  · exact .refl

/-- The changes that only put something new in place. -/
inductive Ramfs.Build (part : Nat → Nat → Prop) (fs : Ramfs) : Ramfs → Prop
  | created {inum k parent : Nat} {name : Name} {kind : FileKind}
      (creates : fs.Creates inum k parent name) : fs.Build part (fs.created inum k parent name kind)
  | embedded {inum offset len : Nat} (file : (fs.inodes inum).kind = .file)
      (empty : (fs.inodes inum).src = .none) (fits : part offset len) :
      fs.Build part (fs.embedded inum offset len)

abbrev Ramfs.Builds (part : Nat → Nat → Prop) : Ramfs → Ramfs → Prop :=
  Relation.ReflTransGen (Ramfs.Build part)

theorem Ramfs.Builds.moves (builds : fs.Builds part fs') : fs.Moves part fs' := by
  induction builds with
  | refl => exact .refl
  | tail _ build ih =>
    cases build with
    | created creates => exact ih.tail (.created creates)
    | embedded file empty fits => exact ih.tail (.embedded file empty fits)

theorem Ramfs.Makes.builds (makes : fs.Makes path kind inum fs' k parent name) : fs.Builds part fs' := by
  rw [makes.made]
  exact .single (.created makes.creates)

theorem Ramfs.Makes.moves (makes : fs.Makes path kind inum fs' k parent name) : fs.Moves part fs' :=
  makes.builds.moves

theorem Ramfs.Opens.moves {answer : Nat × FileKind × Nat} (opens : fs.Opens path flags answer fs') :
    fs.Moves part fs' := by
  cases opens with
  | @old inum walked small used =>
    refine .trans ?_ (retained_moves _ inum)
    unfold Ramfs.opened
    split_ifs
    · exact (Ramfs.Change.truncated small used).moves
    · exact .refl
  | new asked makes => exact makes.moves.trans (retained_moves _ _)

end Changes

section Operations

/-- The operations of the file system that change it. -/
inductive Op
  | embedFile (path : List UInt8) (offset len : Nat)
  | embedDir (path : List UInt8)
  | installConsole
  | openPath (path : List UInt8) (flags : Nat)
  | mkdir (path : List UInt8)
  | unlink (path : List UInt8) (flags : Nat)
  | retain (inum : Nat)
  | release (inum : Nat)
  | write (inum offset : Nat) (data : List UInt8)

def Op.run (rootfs : List UInt8) : Op → Fs Unit
  | .embedFile path offset len => do let _ ← Vfs.embedFile path offset len
  | .embedDir path => do let _ ← Vfs.embedDir path
  | .installConsole => do let _ ← Vfs.installConsole
  | .openPath path flags => do let _ ← Vfs.openPath path flags
  | .mkdir path => do let _ ← Vfs.mkdir path
  | .unlink path flags => Vfs.unlink path flags
  | .retain inum => do let _ ← Vfs.retain inum
  | .release inum => do let _ ← Vfs.release inum
  | .write inum offset data => do let _ ← Vfs.writeInode rootfs inum offset data

/-- The part of the archive that an operation names meets the condition. -/
def Op.Fits (part : Nat → Nat → Prop) : Op → Prop
  | .embedFile _ offset len => part offset len
  | _ => True

theorem Op.fits_any (op : Op) : op.Fits fun _ _ => True := by
  cases op <;> exact trivial

/-- The state after an operation, whatever it answered. -/
def opStep (rootfs : List UInt8) (fs : Ramfs) (op : Op) : Option Ramfs :=
  match op.run rootfs fs with
  | .ok _ fs' => some fs'
  | .error (.errno _) fs' => some fs'
  | .error _ _ => none

/-- The file system when the server starts: a root directory and nothing in it. -/
def Ramfs.boot (fs : Ramfs) : Ramfs := fs.reset.initRoot

/-- The states that operations lead to. -/
abbrev Reachable (rootfs : List UInt8) (fs : Ramfs) : Prop :=
  ∃ start : Ramfs, Run (opStep rootfs) (fun _ _ => True) start.boot fs

/-- A part that lies in the archive. -/
abbrev InArchive (rootfs : List UInt8) (offset len : Nat) : Prop := offset + len ≤ rootfs.length

/-- The states that operations lead to, as long as files are put in place from the archive. -/
abbrev Unpacked (rootfs : List UInt8) (fs : Ramfs) : Prop :=
  ∃ start : Ramfs, Run (opStep rootfs) (fun _ op => op.Fits (InArchive rootfs)) start.boot fs

/-- The condition holds after the operation, unless that ended for good. -/
theorem opStep_of_wp {op : Op} {holds : Ramfs → Prop}
    (guaranteed : wp (op.run rootfs) (fun _ fs' => holds fs')
      (fun stop fs' => ∀ e, stop = .errno e → holds fs') fs)
    (step : opStep rootfs fs op = some fs') : holds fs' := by
  unfold opStep at step
  split at step
  case h_1 run =>
    cases step
    exact ok_of_wp guaranteed run
  case h_2 run =>
    cases step
    exact error_of_wp guaranteed run _ rfl
  case h_3 => cases step

end Operations

section Owners

/-- The pages that an inode in use has. -/
def Ramfs.pagesAt (fs : Ramfs) (inum : Nat) : List (Fin maxDataPages) :=
  if (fs.inodes inum).used then (fs.inodes inum).src.pagesOf else []

/-- How often a page occurs in the page lists of the inodes in use. -/
def Ramfs.holders (fs : Ramfs) (p : Fin maxDataPages) : Nat :=
  ∑ inum ∈ Finset.range maxInodes, (fs.pagesAt inum).count p

/-- Every page is marked if an inode has it, and no two of them do. -/
def Ramfs.Owned (fs : Ramfs) : Prop :=
  ∀ p, fs.holders p = if fs.pageUsed p then 1 else 0

theorem count_le_holders (fs : Ramfs) (p : Fin maxDataPages) (small : inum < maxInodes) :
    (fs.pagesAt inum).count p ≤ fs.holders p :=
  Finset.single_le_sum (f := fun inum => (fs.pagesAt inum).count p) (fun _ _ => Nat.zero_le _)
    (Finset.mem_range.mpr small)

theorem Ramfs.Owned.own (owned : fs.Owned) (small : inum < maxInodes) :
    fs.OwnPages (fs.pagesAt inum) := by
  refine ⟨List.nodup_iff_count_le_one.mpr fun p => ?_, fun p member => ?_⟩
  · have le := count_le_holders fs p small
    rw [owned p] at le
    split_ifs at le <;> omega
  · have le := count_le_holders fs p small
    have some := List.count_pos_iff.mpr member
    rw [owned p] at le
    by_contra unused
    rw [if_neg unused] at le
    omega

theorem Ramfs.Owned.own_used (owned : fs.Owned) (small : inum < maxInodes)
    (used : (fs.inodes inum).used = true) : fs.OwnPages (fs.inodes inum).src.pagesOf := by
  have := owned.own small
  rwa [Ramfs.pagesAt, if_pos used] at this

/-- If only one inode has other pages than before, the count changes by what it lost and got. -/
theorem holders_change (small : inum < maxInodes)
    (others : ∀ n, n ≠ inum → fs'.pagesAt n = fs.pagesAt n) :
    fs'.holders p + (fs.pagesAt inum).count p = fs.holders p + (fs'.pagesAt inum).count p := by
  have member : inum ∈ Finset.range maxInodes := Finset.mem_range.mpr small
  unfold Ramfs.holders
  rw [← Finset.add_sum_erase _ _ member, ← Finset.add_sum_erase (Finset.range maxInodes) _ member]
  have same : ∑ n ∈ (Finset.range maxInodes).erase inum, (fs'.pagesAt n).count p =
      ∑ n ∈ (Finset.range maxInodes).erase inum, (fs.pagesAt n).count p :=
    Finset.sum_congr rfl fun n other => by rw [others n (Finset.ne_of_mem_erase other)]
  rw [same]
  omega

theorem Ramfs.Owned.same (owned : fs.Owned) (used : fs'.pageUsed = fs.pageUsed)
    (pages : ∀ n, fs'.pagesAt n = fs.pagesAt n) : fs'.Owned := by
  intro p
  rw [used, ← owned p]
  simp only [Ramfs.holders, pages]

/-- An inode may give all its pages back. -/
theorem Ramfs.Owned.freed (owned : fs.Owned) (small : inum < maxInodes)
    (others : ∀ n, n ≠ inum → fs'.pagesAt n = fs.pagesAt n) (empty : fs'.pagesAt inum = [])
    (freed : fs'.pageUsed = fs.freePages (fs.pagesAt inum)) : fs'.Owned := by
  intro p
  have change := holders_change (p := p) small others
  have le := count_le_holders fs p small
  rw [empty, owned p, List.count_nil] at change
  rw [owned p] at le
  rw [freed, Ramfs.freePages]
  by_cases member : p ∈ fs.pagesAt inum
  · have some := List.count_pos_iff.mpr member
    have none : fs'.holders p = 0 := by split_ifs at le change <;> omega
    simp [member, none]
  · rw [List.count_eq_zero_of_not_mem member] at change
    simpa [member] using change

/-- An inode may take pages that are free. -/
theorem Ramfs.Owned.taken {new : List (Fin maxDataPages)} (owned : fs.Owned) (small : inum < maxInodes)
    (others : ∀ n, n ≠ inum → fs'.pagesAt n = fs.pagesAt n) (fresh : fs.FreshPages new)
    (more : fs'.pagesAt inum = fs.pagesAt inum ++ new)
    (marked : fs'.pageUsed = fun p => decide (p ∈ new) || fs.pageUsed p) : fs'.Owned := by
  intro p
  have change := holders_change (p := p) small others
  rw [more, owned p, List.count_append] at change
  rw [marked]
  by_cases member : p ∈ new
  · have one := List.count_eq_one_of_mem fresh.nodup member
    have free := fresh.free p member
    have first : fs'.holders p = 1 := by
      rw [free, one] at change
      simp only [Bool.false_eq_true, if_false] at change
      omega
    simp [member, first]
  · rw [List.count_eq_zero_of_not_mem member] at change
    have same : fs'.holders p = if fs.pageUsed p then 1 else 0 := by omega
    simp [member, same]

/-- Changes to other fields of an inode leave its pages alone. -/
theorem pagesAt_updInode {change : Inode → Inode} (n : Nat)
    (used : (change (fs.inodes inum)).used = (fs.inodes inum).used)
    (src : (change (fs.inodes inum)).src.pagesOf = (fs.inodes inum).src.pagesOf) :
    (fs.updInode inum change).pagesAt n = fs.pagesAt n := by
  unfold Ramfs.pagesAt
  rw [updInode_inodes]
  split_ifs <;> simp_all

theorem created_pagesAt (creates : fs.Creates inum k parent name) (n : Nat) :
    (fs.created inum k parent name kind).pagesAt n = fs.pagesAt n := by
  unfold Ramfs.pagesAt
  rw [created_inodes creates.apart]
  by_cases new : n = inum
  · subst new
    simp [creates.fresh, InodeData.pagesOf]
  · rw [if_neg new]
    split_ifs <;> simp_all

theorem Ramfs.Owned.change (tree : fs.Tree) (owned : fs.Owned) (change : fs.Change part fs') :
    fs'.Owned := by
  cases change with
  | counted inum refs => exact owned.same rfl fun n => pagesAt_updInode n rfl rfl
  | created creates =>
    refine owned.same ?_ fun n => created_pagesAt creates n
    unfold Ramfs.created
    split_ifs <;> rfl
  | embedded file empty fits =>
    exact owned.same rfl fun n => pagesAt_updInode n rfl (by rw [empty]; rfl)
  | @unlinked path flags i unlinks =>
    unfold Ramfs.unlinked
    dsimp only
    split_ifs with loose
    · have used := tree.used i unlinks.entry
      refine owned.freed (tree.small i unlinks.entry) (fun n other => ?_) ?_ ?_
      · simp [Ramfs.pagesAt, other]
      · simp [Ramfs.pagesAt]
      · simp [Ramfs.pagesAt, used]
    · exact owned.same rfl fun n => pagesAt_updInode n rfl rfl
  | @truncated inum small used =>
    refine owned.freed small (fun n other => ?_) ?_ ?_
    · simp [Ramfs.pagesAt, Ramfs.truncated, other]
    · simp [Ramfs.pagesAt, Ramfs.truncated, InodeData.pagesOf]
    · simp [Ramfs.pagesAt, Ramfs.truncated, used]
  | @wrote _ inum size new small used writes =>
    refine owned.taken small (fun n other => ?_) writes.fresh ?_ writes.pageUsed
    · unfold Ramfs.pagesAt
      rw [writes.inodes, Function.update_of_ne other]
    · unfold Ramfs.pagesAt
      rw [writes.node]
      simp [used, InodeData.pagesOf]

theorem Ramfs.Writes.sameTree {size : Nat} {old new : List (Fin maxDataPages)}
    (writes : fs.Writes fs' inum size old new) : fs.SameTree fs' := by
  refine ⟨writes.dirents, fun n => ?_, fun n => ?_, fun n => ?_⟩ <;> rw [writes.inodes] <;>
    by_cases here : n = inum
  all_goals simp [here]

theorem truncated_sameTree (fs : Ramfs) (inum : Nat) : fs.SameTree (fs.truncated inum) := by
  have same : fs.SameTree (fs.updInode inum fun node => { node with size := 0, src := .pages [] }) :=
    .updInode rfl rfl rfl
  exact ⟨same.dirents, same.used, same.kind, same.parent⟩

theorem Ramfs.Tree.change (tree : fs.Tree) (change : fs.Change part fs') : fs'.Tree := by
  cases change with
  | counted inum refs => exact tree.same (.updInode rfl rfl rfl)
  | created creates => exact tree.created creates
  | embedded file empty fits => exact tree.same (.updInode rfl rfl rfl)
  | unlinked unlinks => exact tree.removed unlinks.removes
  | truncated => exact tree.same (truncated_sameTree fs _)
  | wrote small used writes => exact tree.same writes.sameTree

/-- Names and pages are in order. -/
structure Ramfs.Sound (fs : Ramfs) : Prop where
  tree : fs.Tree
  owned : fs.Owned

theorem Ramfs.Sound.moves (sound : fs.Sound) (moves : fs.Moves part fs') : fs'.Sound := by
  induction moves with
  | refl => exact sound
  | tail _ change ih => exact ⟨ih.tree.change change, ih.owned.change ih.tree change⟩

end Owners

section Runs

theorem consoleName_valid : Name.Valid consoleName := ⟨by decide, by decide, by decide⟩

theorem components_console :
    components (devPath ++ slash :: consoleName) = components devPath ++ [consoleName] := by decide

/-- The directory of the console has no entry of that name, if there was no console before. -/
theorem lookup_console {dev : Nat} (tree : fs.Tree)
    (missing : ∀ n, fs.walk (devPath ++ slash :: consoleName) ≠ .ok n)
    (ensured : fs.Ensures devPath dev fs') : fs'.lookup dev consoleName = none := by
  rcases ensured with ⟨rfl, walked, -⟩ | ⟨k, parent, name, makes⟩
  · cases found : fs'.lookup dev consoleName with
    | none => rfl
    | some n =>
      refine absurd (walk_ok.mpr ⟨by simp, ?_⟩) (missing n)
      rw [components_console, walkNames_append_ok]
      refine ⟨dev, (walk_ok.mp walked).2, walkNames_cons_ok.mpr ⟨n, ?_, walkNames_nil⟩⟩
      rw [walkName_plain consoleName_valid.notDot, found]
      rfl
  · -- A directory that is new has no entries.
    rw [makes.made, makes.creates.lookup tree, if_neg fun here => makes.creates.apart here.1]
    cases found : fs.lookup dev consoleName with
    | none => rfl
    | some n =>
      obtain ⟨i, entry, here, -⟩ := lookup_some found
      have used := (here ▸ tree.dir i entry).used
      cases makes.creates.fresh.symm.trans used

theorem Ramfs.Ensures.builds {dev : Nat} (ensured : fs.Ensures path dev fs') : fs.Builds part fs' := by
  rcases ensured with ⟨rfl, -⟩ | ⟨k, parent, name, makes⟩
  · exact .refl
  · exact makes.builds

theorem Ramfs.Ensures.moves {dev : Nat} (ensured : fs.Ensures path dev fs') : fs.Moves part fs' :=
  ensured.builds.moves

/-- The directory is there, whether or not it had to be made. -/
theorem Ramfs.Ensures.dir {dev : Nat} (tree : fs.Tree) (ensured : fs.Ensures path dev fs') :
    fs'.Tree ∧ fs'.walk path = .ok dev ∧ fs'.IsDir dev := by
  rcases ensured with ⟨rfl, walked, isDir⟩ | ⟨k, parent, name, makes⟩
  · exact ⟨tree, walked, isDir⟩
  · refine ⟨makes.tree tree, (makes.addsPath tree).leads, makes.creates.small, ?_, ?_⟩ <;>
      rw [makes.made, created_inodes makes.creates.apart, if_pos rfl]

theorem installConsole_spec (tree : fs.Tree) :
    wp installConsole
      (fun inum fs' => fs' = fs ∧ fs.walk (devPath ++ slash :: consoleName) = .ok inum ∨
        ∃ mid dev k, fs.Ensures devPath dev mid ∧ mid.Creates inum k dev consoleName ∧
          fs' = mid.created inum k dev consoleName .device)
      (fun stop fs' => (∃ e, stop = .errno e) ∧ (fs' = fs ∨ ∃ dev, fs.Ensures devPath dev fs')) fs := by
  unfold installConsole
  simp only [wp_bind, wp_get]
  cases walked : fs.walk (devPath ++ slash :: consoleName) with
  | ok inum => exact .inl ⟨rfl, rfl⟩
  | error e =>
    simp only [wp_bind]
    refine wp_mono (ensureDir_spec tree) ?_ ?_
    · intro dev mid ensured
      obtain ⟨tree', found, isDir⟩ := ensured.dir tree
      have absent : mid.lookup dev consoleName = none := by
        refine lookup_console tree (fun n there => ?_) ensured
        cases walked.symm.trans there
      have dev' : (mid.walk devPath).toOption.getD rootIno = dev := by rw [found]; rfl
      have reached := tree'.walk_reached found
      simp only [wp_bind, wp_get, wp_ite, wp_modifyInode, wp_pure, dev']
      refine ⟨fun free => ?_, fun _ => ?_⟩
      · -- The inode that is kept for the console.
        obtain ⟨k, slot⟩ := tree'.freeDirent
        have room := freeDirent_some slot
        rw [wp_addDirent ((updInode_freeDirent _).trans slot)]
        refine .inr ⟨mid, dev, k, ensured, ⟨free.1, free.2, room.1, room.2, isDir, reached,
          consoleName_valid, absent⟩, ?_⟩
        simp [Ramfs.created]
      · refine wp_mono (createFile_spec tree' reached consoleName_valid.plain consoleName_valid.notDot)
          ?_ ?_
        · rintro inum fs' ⟨k, -, creates, made⟩
          exact .inr ⟨mid, dev, k, ensured, creates, made⟩
        · rintro stop fs' ⟨⟨rfl, errno⟩, -⟩
          exact ⟨errno, .inr ⟨dev, ensured⟩⟩
    · rintro stop fs' ⟨⟨rfl, errno⟩, -⟩
      exact ⟨errno, .inl rfl⟩

/-- A write did nothing, or it did something to this inode and its pages. -/
def Ramfs.Touches (fs fs' : Ramfs) (inum : Nat) : Prop :=
  fs' = fs ∨ inum < maxInodes ∧ (fs.inodes inum).used = true ∧
    ∃ size new, fs.Writes fs' inum size (fs.inodes inum).src.pagesOf new

theorem Ramfs.Touches.moves (touches : fs.Touches fs' inum) : fs.Moves part fs' := by
  rcases touches with rfl | ⟨small, used, size, new, writes⟩
  · exact .refl
  · exact (Ramfs.Change.wrote small used writes).moves

theorem writeInode_touches_file {offset : Nat} {data : List UInt8} (small : inum < maxInodes)
    (used : (fs.inodes inum).used = true) (file : (fs.inodes inum).kind = .file)
    (own : fs.OwnPages (fs.inodes inum).src.pagesOf) :
    wp (writeInode rootfs inum offset data) (fun _ fs' => fs.Touches fs' inum)
      (fun stop fs' => ∀ e, stop = .errno e → fs.Touches fs' inum) fs := by
  have touches {fs' : Ramfs} {size : Nat} {new}
      (writes : fs.Writes fs' inum size (fs.inodes inum).src.pagesOf new) : fs.Touches fs' inum :=
    .inr ⟨small, used, size, new, writes⟩
  cases src : (fs.inodes inum).src with
  | none =>
    rw [src] at own touches
    refine wp_mono (writeInode_spec small used file (.inl ⟨src, rfl⟩) own) ?_ ?_
    · exact fun n fs' ⟨_, new, wrote⟩ => touches wrote.writes
    · exact fun stop fs' ⟨_, new, done, jammed⟩ _ _ => touches jammed.writes
  | pages ps =>
    rw [src] at own touches
    refine wp_mono (writeInode_spec small used file (.inr src) own) ?_ ?_
    · exact fun n fs' ⟨_, new, wrote⟩ => touches wrote.writes
    · exact fun stop fs' ⟨_, new, done, jammed⟩ _ _ => touches jammed.writes
  | embedded base len =>
    rw [src] at touches
    refine wp_mono (writeInode_embedded_spec small used file src) ?_ ?_
    · exact fun n fs' ⟨_, mid, old, new, copied, wrote⟩ => touches (copied.writes.trans wrote.writes)
    · rintro stop fs' (⟨-, text, rfl⟩ |
        ⟨-, ⟨new, size, q, -, -, -, writes⟩ | ⟨mid, old, new, done, copied, jammed⟩⟩)
      · exact fun e same => by cases same
      · exact fun _ _ => touches writes
      · exact fun _ _ => touches (copied.writes.trans jammed.writes)

/-- A write to a directory or a device fails, but it may already have set the place of its bytes. -/
theorem writeInode_touches_other {offset : Nat} {data : List UInt8} (small : inum < maxInodes)
    (used : (fs.inodes inum).used = true) (other : (fs.inodes inum).kind ≠ .file) :
    wp (writeInode rootfs inum offset data) (fun _ _ => False)
      (fun stop fs' => ∀ e, stop = .errno e → fs' = fs ∨
        (∀ old, (fs.inodes inum).src ≠ .pages old) ∧
        ∃ size, ((fs.inodes inum).src = .none → size = (fs.inodes inum).size) ∧
          fs.Writes fs' inum size [] []) fs := by
  unfold writeInode
  simp only [wp_bind]
  cases src : (fs.inodes inum).src with
  | none =>
    rw [wp_makeWritable_none small used src, wp_writePaged_other (by simpa using other)]
    exact fun _ _ => .inr ⟨by simp, _, fun _ => rfl, writes_updInode fs inum _ []⟩
  | pages ps =>
    rw [wp_makeWritable_pages small used src, wp_writePaged_other other]
    exact fun _ _ => .inl rfl
  | embedded base len =>
    have writes := writes_updInode fs inum 0 []
    rw [wp_makeWritable_embedded small used src]
    cases len with
    | zero =>
      simp only [copyEmbedded, wp_pure]
      rw [wp_writePaged_other (by simpa using other)]
      exact fun _ _ => .inr ⟨by simp, _, by simp, writes⟩
    | succ len =>
      simp only [copyEmbedded, wp_ite]
      refine ⟨fun _ => ?_, fun no => absurd (Nat.succ_pos len) no⟩
      split
      · simp only [wp_bind]
        rw [wp_writePaged_other (by simpa using other)]
        exact fun _ _ => .inr ⟨by simp, _, by simp, writes⟩
      · simp only [wp_throw]
        exact fun _ _ => .inr ⟨by simp, _, by simp, writes⟩

theorem writeInode_touches (owned : fs.Owned) (inum offset : Nat) (data : List UInt8) :
    wp (writeInode rootfs inum offset data) (fun _ fs' => fs.Touches fs' inum)
      (fun stop fs' => ∀ e, stop = .errno e → fs.Touches fs' inum) fs := by
  cases found : fs.inode inum with
  | none =>
    rw [writeInode_unused found]
    exact fun _ _ => .inl rfl
  | some node =>
    obtain ⟨small, used, rfl⟩ := inode_some found
    by_cases file : (fs.inodes inum).kind = .file
    · exact writeInode_touches_file small used file (owned.own_used small used)
    · refine wp_mono (writeInode_touches_other small used file) (fun _ _ no => no.elim) ?_
      intro stop fs' failed e errno
      refine (failed e errno).imp_right fun ⟨notPages, size, _, writes⟩ => ⟨small, used, size, [], ?_⟩
      have none : (fs.inodes inum).src.pagesOf = [] := by
        cases src : (fs.inodes inum).src with
        | pages old => exact absurd src (notPages old)
        | none => rfl
        | embedded => rfl
      rwa [none]

/-- No operation does anything but the changes listed. -/
theorem Op.moves (sound : fs.Sound) (op : Op) (fits : op.Fits part) :
    wp (op.run rootfs) (fun _ fs' => fs.Moves part fs')
      (fun stop fs' => ∀ e, stop = .errno e → fs.Moves part fs') fs := by
  have refused {stop fs'} (refused : fs.Refused stop fs') : ∀ e, stop = .errno e → fs.Moves part fs' := by
    rw [refused.1]
    exact fun _ _ => .refl
  cases op with
  | embedFile path offset len =>
    simp only [Op.run, wp_bind, wp_pure]
    refine wp_mono (embedFile_spec sound.tree offset len) ?_ fun _ _ no => refused no.1
    rintro inum fs' (⟨rfl, -⟩ | ⟨made, k, parent, name, makes, rfl⟩)
    · exact .refl
    · refine makes.moves.tail (.embedded ?_ ?_ fits) <;>
        rw [makes.made, created_inodes makes.creates.apart, if_pos rfl]
  | embedDir path =>
    simp only [Op.run, wp_bind, wp_pure]
    refine wp_mono (ensureDir_spec sound.tree) ?_ fun _ _ no => refused no.1
    exact fun inum fs' ensured => ensured.moves
  | installConsole =>
    simp only [Op.run, wp_bind, wp_pure]
    refine wp_mono (installConsole_spec sound.tree) ?_ ?_
    · rintro inum fs' (⟨rfl, -⟩ | ⟨mid, dev, k, ensured, creates, rfl⟩)
      · exact .refl
      · exact ensured.moves.tail (.created creates)
    · rintro stop fs' ⟨-, rfl | ⟨dev, ensured⟩⟩ _ _
      · exact .refl
      · exact ensured.moves
  | openPath path flags =>
    simp only [Op.run, wp_bind, wp_pure]
    exact wp_mono (openPath_spec sound.tree) (fun _ _ opens => opens.moves) fun _ _ => refused
  | mkdir path =>
    simp only [Op.run, wp_bind, wp_pure]
    refine wp_mono (mkdir_spec sound.tree) ?_ fun _ _ no => refused no.1
    rintro inum fs' ⟨k, parent, name, makes⟩
    exact makes.moves
  | unlink path flags =>
    simp only [Op.run]
    refine wp_mono (unlink_spec sound.tree) ?_ fun _ _ => refused
    rintro _ fs' ⟨i, unlinks, rfl⟩
    exact (Ramfs.Change.unlinked unlinks).moves
  | retain inum =>
    simp only [Op.run, wp_bind, wp_pure, wp_retain]
    exact retained_moves fs inum
  | release inum =>
    simp only [Op.run, Vfs.release, wp_bind, wp_pure, wp_get, wp_ite, wp_set]
    exact ⟨fun _ => (Ramfs.Change.counted inum _).moves, fun _ => .refl⟩
  | write inum offset data =>
    simp only [Op.run, wp_bind, wp_pure]
    exact wp_mono (writeInode_touches sound.owned inum offset data) (fun _ _ touches => touches.moves)
      fun _ _ touches e errno => (touches e errno).moves

theorem boot_sound (fs : Ramfs) : fs.boot.Sound := by
  have none (i) : ¬ fs.boot.Entry i := fun entry => Bool.false_ne_true entry.2
  refine ⟨⟨fun i _ entry => ?_, fun i _ entry => ?_, fun i entry => ?_, fun i entry => ?_,
    fun i entry => ?_, fun i entry => ?_, fun i entry => ?_, fun i entry => ?_, fun i entry => ?_,
    fun _ => ⟨rfl, rfl⟩⟩, fun p => ?_⟩
  all_goals try exact absurd entry (none i)
  have empty (n) : fs.boot.pagesAt n = [] := by
    simp only [Ramfs.pagesAt, Ramfs.boot, Ramfs.initRoot, updInode_inodes]
    split_ifs <;> rfl
  have free : fs.boot.pageUsed p = false := rfl
  simp [Ramfs.holders, empty, free]

/-- One operation keeps names and pages in order, and so does every sequence of them. -/
theorem opStep_sound {op : Op} (sound : fs.Sound) (step : opStep rootfs fs op = some fs') : fs'.Sound :=
  sound.moves (opStep_of_wp (op.moves sound op.fits_any) step)

theorem Reachable.sound (reachable : Reachable rootfs fs) : fs.Sound := by
  obtain ⟨start, run⟩ := reachable
  exact run.keeps Ramfs.Sound (boot_sound start) fun _ _ _ sound step _ => opStep_sound sound step

end Runs

section Pages

theorem Ramfs.Owned.holder (owned : fs.Owned) (marked : fs.pageUsed p = true) :
    ∃ inum < maxInodes, (fs.inodes inum).used = true ∧ p ∈ (fs.inodes inum).src.pagesOf := by
  by_contra nobody
  have none (n) (small : n < maxInodes) : p ∉ fs.pagesAt n := by
    unfold Ramfs.pagesAt
    split_ifs with used
    · exact fun member => nobody ⟨n, small, used, member⟩
    · simp
  have zero : fs.holders p = 0 := Finset.sum_eq_zero fun n member =>
    List.count_eq_zero_of_not_mem (none n (Finset.mem_range.mp member))
  rw [owned p, if_pos marked] at zero
  cases zero

/-- Two inodes that have the same page are one. -/
theorem Ramfs.Owned.alone {m : Nat} (owned : fs.Owned) (small : n < maxInodes) (small' : m < maxInodes)
    (mine : p ∈ fs.pagesAt n) (theirs : p ∈ fs.pagesAt m) : n = m := by
  by_contra apart
  have one : 1 ≤ (fs.pagesAt n).count p := List.count_pos_iff.mpr mine
  have other : 1 ≤ (fs.pagesAt m).count p := List.count_pos_iff.mpr theirs
  have both : (fs.pagesAt n).count p + (fs.pagesAt m).count p ≤ fs.holders p := by
    unfold Ramfs.holders
    rw [← Finset.add_sum_erase _ _ (Finset.mem_range.mpr small)]
    refine Nat.add_le_add_left (Finset.single_le_sum (f := fun n => (fs.pagesAt n).count p)
      (fun _ _ => Nat.zero_le _) (Finset.mem_erase.mpr ⟨Ne.symm apart, Finset.mem_range.mpr small'⟩)) _
  rw [owned p] at both
  split_ifs at both <;> omega

/-- A page is marked exactly if it occurs once among the pages of the inodes in use. No page is
shared, none is read after it was freed, and none is lost. -/
theorem pages_have_one_owner (reachable : Reachable rootfs fs) (p : Fin maxDataPages) :
    (fs.pageUsed p = true ↔ fs.holders p = 1) ∧ fs.holders p ≤ 1 ∧
    (∀ n m, n < maxInodes → m < maxInodes → p ∈ fs.pagesAt n → p ∈ fs.pagesAt m → n = m) ∧
    (∀ n < maxInodes, p ∈ fs.pagesAt n → fs.pageUsed p = true) ∧
    (fs.pageUsed p = true →
      ∃ n < maxInodes, (fs.inodes n).used = true ∧ p ∈ (fs.inodes n).src.pagesOf) := by
  have owned := reachable.sound.owned
  refine ⟨?_, ?_, fun n m small small' => owned.alone small small',
    fun n small member => (owned.own small).used p member, owned.holder⟩
  · rw [owned p]
    split_ifs with marked <;> simp [marked]
  · rw [owned p]
    split_ifs <;> omega

/-- A file that is written, and the only page it takes. -/
def writtenFile : Option Ramfs :=
  moves (opStep []) ({} : Ramfs).boot [.openPath [slash, 0x61] oCreat, .write 2 0 [1, 2, 3]]

theorem writtenFile_made : writtenFile.isSome = true := by decide +kernel

theorem pages_have_one_owner_file : ∃ fs p, Reachable [] fs ∧
    fs.pageUsed p = true ∧ fs.holders p = 1 ∧
    (∃ n < maxInodes, (fs.inodes n).used = true ∧ p ∈ (fs.inodes n).src.pagesOf) ∧
    (∀ n m, n < maxInodes → m < maxInodes → p ∈ fs.pagesAt n → p ∈ fs.pagesAt m → n = m) ∧
    ∀ p, fs.holders p ≤ 1 ∧ ∀ n < maxInodes, p ∈ fs.pagesAt n → fs.pageUsed p = true := by
  have reachable : Reachable [] (writtenFile.get writtenFile_made) :=
    ⟨{}, .of_moves .start _ (Option.some_get writtenFile_made).symm⟩
  have marked : (writtenFile.get writtenFile_made).pageUsed ⟨0, by decide⟩ = true := by
    decide +kernel
  have holds := pages_have_one_owner reachable
  obtain ⟨once, -, alone, -, owner⟩ := holds ⟨0, by decide⟩
  exact ⟨_, _, reachable, marked, once.mp marked, owner marked, alone,
    fun p => ⟨(holds p).2.1, (holds p).2.2.2.1⟩⟩

end Pages

section Names

/-- An inode in use that no entry leads to; the root needs none. -/
def Ramfs.Orphan (fs : Ramfs) (n : Nat) : Prop :=
  n < maxInodes ∧ (fs.inodes n).used = true ∧ n ≠ rootIno ∧
    ∀ i, fs.Entry i → (fs.dirents i).child ≠ n

/-- The operations that make and remove names. -/
def Op.Naming : Op → Prop
  | .embedFile .. | .embedDir _ | .openPath .. | .mkdir _ | .unlink .. => True
  | _ => False

theorem Ramfs.SameTree.passes (same : fs.SameTree fs') : fs'.Passes path n ↔ fs.Passes path n := by
  simp only [Ramfs.Passes, Ramfs.PassesNames, Ramfs.walkNames, same.walkName]

theorem Ramfs.AddsPath.same {mid : Ramfs} (adds : fs.AddsPath mid path inum)
    (same : mid.SameTree fs') : fs.AddsPath fs' path inum := by
  refine ⟨adds.fresh, (same.used inum).trans adds.used, ?_, fun path n walked => ?_, fun path avoids => ?_⟩
  · rw [same.walk]
    exact adds.leads
  · rw [same.walk]
    exact adds.keeps path n walked
  · rw [same.walk]
    exact adds.only path fun passes => avoids (same.passes.mpr passes)

theorem retained_sameTree (fs : Ramfs) (inum : Nat) : fs.SameTree (fs.retained inum) := by
  unfold Ramfs.retained
  split_ifs
  · exact .updInode rfl rfl rfl
  · exact .refl fs

/-- An operation on names that fails does nothing. -/
theorem Op.Naming.refused (tree : fs.Tree) {op : Op} (naming : op.Naming) {stop : Stop}
    (run : op.run rootfs fs = .error stop fs') : fs' = fs := by
  have refused : wp (op.run rootfs) (fun _ _ => True) (fun stop fs' => fs.Refused stop fs') fs := by
    cases op with
    | embedFile path offset len =>
      simp only [Op.run, wp_bind, wp_pure]
      exact wp_mono (embedFile_spec tree offset len) (fun _ _ _ => trivial) fun _ _ no => no.1
    | embedDir path =>
      simp only [Op.run, wp_bind, wp_pure]
      exact wp_mono (ensureDir_spec tree) (fun _ _ _ => trivial) fun _ _ no => no.1
    | openPath path flags =>
      simp only [Op.run, wp_bind, wp_pure]
      exact wp_mono (openPath_spec tree) (fun _ _ _ => trivial) fun _ _ no => no
    | mkdir path =>
      simp only [Op.run, wp_bind, wp_pure]
      exact wp_mono (mkdir_spec tree) (fun _ _ _ => trivial) fun _ _ no => no.1
    | unlink path flags =>
      exact wp_mono (unlink_spec tree) (fun _ _ _ => trivial) fun _ _ no => no
    | _ => exact naming.elim
  exact (error_of_wp refused run).1

/-- The names form a tree after every sequence of operations. What makes a name adds its path and
no other, what removes a name removes its path and no other, and what fails changes nothing. -/
theorem names_form_a_tree (reachable : Reachable rootfs fs) :
    fs.Tree ∧ (∀ i, fs.Entry i → ∃ path, fs.walk path = .ok (fs.dirents i).child) ∧
    (∀ path flags inum kind size fs', openPath path flags fs = .ok (inum, kind, size) fs' →
      (fs.walk path = .ok inum ∧ fs'.walk = fs.walk) ∨ fs.AddsPath fs' path inum) ∧
    (∀ path inum fs', mkdir path fs = .ok inum fs' → fs.AddsPath fs' path inum) ∧
    (∀ path offset len inum fs', embedFile path offset len fs = .ok inum fs' →
      (fs.walk path = .ok inum ∧ fs' = fs) ∨ fs.AddsPath fs' path inum) ∧
    (∀ path inum fs', embedDir path fs = .ok inum fs' →
      (fs.walk path = .ok inum ∧ fs' = fs) ∨ fs.AddsPath fs' path inum) ∧
    (∀ path flags fs', unlink path flags fs = .ok () fs' → ∃ inum, fs.RemovesPath fs' path inum) ∧
    (∀ (op : Op) e fs', op.Naming → op.run rootfs fs = .error (.errno e) fs' →
      fs'.walk = fs.walk ∧ ∀ n, fs'.Orphan n → fs.Orphan n) := by
  have tree := reachable.sound.tree
  refine ⟨tree, fun i entry => tree.walk_of_reached (tree.reached i entry),
    fun path flags inum kind size fs' run => ?_, fun path inum fs' run => ?_,
    fun path offset len inum fs' run => ?_, fun path inum fs' run => ?_, fun path flags fs' run => ?_,
    fun op e fs' naming run => ?_⟩
  · cases ok_of_wp (openPath_spec tree) run with
    | old walked small used =>
      refine .inl ⟨walked, ?_⟩
      rw [(retained_sameTree _ _).walk]
      unfold Ramfs.opened
      split_ifs
      · rw [(truncated_sameTree fs inum).walk]
      · rfl
    | new asked makes => exact .inr ((makes.addsPath tree).same (retained_sameTree _ _))
  · obtain ⟨k, parent, name, makes⟩ := ok_of_wp (mkdir_spec tree) run
    exact makes.addsPath tree
  · rcases ok_of_wp (embedFile_spec tree offset len) run with
      ⟨rfl, walked⟩ | ⟨made, k, parent, name, makes, rfl⟩
    · exact .inl ⟨walked, rfl⟩
    · exact .inr ((makes.addsPath tree).same (.updInode rfl rfl rfl))
  · rcases ok_of_wp (ensureDir_spec tree) run with ⟨rfl, walked, -⟩ | ⟨k, parent, name, makes⟩
    · exact .inl ⟨walked, rfl⟩
    · exact .inr (makes.addsPath tree)
  · obtain ⟨i, unlinks, rfl⟩ := ok_of_wp (unlink_spec tree) run
    exact ⟨_, unlinks.removes.removesPath tree unlinks.led⟩
  · rw [naming.refused tree run]
    exact ⟨rfl, fun _ => id⟩

/-- A directory `/a` with a file `/a/b`. -/
def oneDir : Option Ramfs :=
  moves (opStep []) ({} : Ramfs).boot
    [.mkdir [slash, 0x61], .openPath [slash, 0x61, slash, 0x62] oCreat]

theorem oneDir_made : oneDir.isSome = true := by decide +kernel

/-- There a second directory can be made and the file be removed, but the directory not. -/
theorem names_form_a_tree_dirs : ∃ fs, Reachable [] fs ∧ fs.Tree ∧
    (∃ i, fs.Entry i ∧ ∃ path, fs.walk path = .ok (fs.dirents i).child) ∧
    (∃ inum fs', mkdir [slash, 0x63] fs = .ok inum fs' ∧ fs.AddsPath fs' [slash, 0x63] inum) ∧
    (∃ fs', unlink [slash, 0x61, slash, 0x62] 0 fs = .ok () fs' ∧
      ∃ inum, fs.RemovesPath fs' [slash, 0x61, slash, 0x62] inum) ∧
    ∃ e fs', (Op.unlink [slash, 0x61] 0).run [] fs = .error (.errno e) fs' ∧
      fs'.walk = fs.walk ∧ ∀ n, fs'.Orphan n → fs.Orphan n := by
  have reachable : Reachable [] (oneDir.get oneDir_made) :=
    ⟨{}, .of_moves .start _ (Option.some_get oneDir_made).symm⟩
  have entry : (oneDir.get oneDir_made).Entry 0 :=
    ⟨by decide +kernel, by decide +kernel⟩
  have makes : wp (mkdir [slash, 0x63]) (fun _ _ => True) (fun _ _ => False)
      (oneDir.get oneDir_made) := by decide +kernel
  have removes : wp (unlink [slash, 0x61, slash, 0x62] 0) (fun _ _ => True) (fun _ _ => False)
      (oneDir.get oneDir_made) := by decide +kernel
  have refused : wp ((Op.unlink [slash, 0x61] 0).run []) (fun _ _ => False)
      (fun stop _ => stop = .errno .eisdir) (oneDir.get oneDir_made) := by decide +kernel
  obtain ⟨inum, made, makes, -⟩ := exists_ok_of_wp makes
  obtain ⟨_, left, removes, -⟩ := exists_ok_of_wp removes
  obtain ⟨stop, same, refused, rfl⟩ := exists_error_of_wp refused
  obtain ⟨tree, walks, -, mkdirs, -, -, unlinks, fails⟩ := names_form_a_tree reachable
  exact ⟨_, reachable, tree, ⟨0, entry, walks 0 entry⟩, ⟨inum, made, makes, mkdirs _ _ _ makes⟩,
    ⟨left, removes, unlinks _ _ _ removes⟩, ⟨_, same, refused, fails (.unlink _ _) _ _ trivial refused⟩⟩

end Names

end Rel4.Vfs
