import Rel4.Proof.Pipes

/-! How long an inode lives: as long as an entry names it or a reference holds it. -/

namespace Rel4.Vfs

open Lib

variable {fs fs' : Ramfs} {owners owners' : Nat → Nat} {i k n inum parent : Nat} {name : Name} {kind : FileKind}
  {part : Nat → Nat → Prop} {path : List UInt8} {flags : Nat}

section Alive

/-- An entry names the inode. -/
def Ramfs.Named (fs : Ramfs) (n : Nat) : Prop := ∃ i, fs.Entry i ∧ (fs.dirents i).child = n

/-- An entry is for a directory that lies in another one. -/
def Ramfs.isSubdir (fs : Ramfs) (dir i : Nat) : Bool :=
  (fs.dirents i).used && (fs.dirents i).parent == dir &&
    decide ((fs.inodes (fs.dirents i).child).kind = .directory)

/-- How many directories lie in a directory. -/
def Ramfs.subdirs (fs : Ramfs) (dir : Nat) : Nat :=
  (List.range maxDirEntries).countP (fs.isSubdir dir)

/-- An inode lives as long as an entry names it or a reference holds it; it has a reference for each of its
owners, and the root one more. Directories are always named, and have a link for each directory in them. -/
structure Inode.Lives (node : Inode) (root named : Prop) [Decidable root] (subdirs owners : Nat) : Prop where
  live : ¬ root → (node.used = true ↔ named ∨ node.refs ≠ 0)
  refs : node.refs = owners + if root ∧ node.used = true then 1 else 0
  blank : node.used = false → node.refs = 0
  links : node.used = true → node.kind ≠ .directory → node.nlink ≤ 1
  dirs : node.used = true → node.kind = .directory → node.nlink = 2 + subdirs
  named : node.used = true → node.kind = .directory → ¬ root → named

/-- All inodes live as long as they should, when each is held by so many owners. -/
structure Ramfs.Alive (fs : Ramfs) (owners : Nat → Nat) : Prop where
  sound : fs.Sound
  lives : ∀ n < maxInodes, (fs.inodes n).Lives (n = rootIno) (fs.Named n) (fs.subdirs n) (owners n)

/-- Nothing that lifetimes depend on is different. -/
structure Ramfs.SameLinks (fs fs' : Ramfs) : Prop extends fs.SameTree fs' where
  refs : ∀ n, (fs'.inodes n).refs = (fs.inodes n).refs
  nlink : ∀ n, (fs'.inodes n).nlink = (fs.inodes n).nlink

theorem Ramfs.SameTree.named (same : fs.SameTree fs') : fs'.Named n ↔ fs.Named n := by
  unfold Ramfs.Named
  simp only [same.entry, same.dirents]

theorem Ramfs.SameTree.subdirs (same : fs.SameTree fs') (dir : Nat) : fs'.subdirs dir = fs.subdirs dir := by
  unfold Ramfs.subdirs
  refine List.countP_congr fun i _ => ?_
  simp only [Ramfs.isSubdir, same.dirents, same.kind]

/-- Only some fields of an inode matter. -/
theorem Inode.Lives.of_same {node node' : Inode} {root named named' : Prop} [Decidable root]
    {subdirs subdirs' owner owner' : Nat} (lives : node.Lives root named subdirs owner)
    (used : node'.used = node.used) (kind : node'.kind = node.kind) (refs : node'.refs = node.refs)
    (nlink : node'.nlink = node.nlink) (names : named' ↔ named) (dirs : subdirs' = subdirs)
    (owners : owner' = owner) : node'.Lives root named' subdirs' owner' := by
  obtain ⟨live, count, blank, links, dir, name⟩ := lives
  subst dirs owners
  constructor <;> simp only [used, kind, refs, nlink, names] <;> assumption

theorem Ramfs.Alive.same (alive : fs.Alive owners) (same : fs.SameLinks fs') (sound : fs'.Sound) :
    fs'.Alive owners :=
  ⟨sound, fun n small => (alive.lives n small).of_same (same.used n) (same.kind n) (same.refs n)
    (same.nlink n) same.named (same.subdirs n) rfl⟩

theorem Ramfs.Alive.congr (alive : fs.Alive owners) (same : ∀ n < maxInodes, owners' n = owners n) :
    fs.Alive owners' :=
  ⟨alive.sound, fun n small => same n small ▸ alive.lives n small⟩

end Alive

section Counts

/-- An inode in use may be counted anew, as long as something still holds it. -/
theorem Ramfs.Alive.recount (alive : fs.Alive owners) {r : Nat} (small : inum < maxInodes)
    (used : (fs.inodes inum).used = true) (others : ∀ n, n ≠ inum → owners' n = owners n)
    (here : r = owners' inum + if inum = rootIno then 1 else 0)
    (held : inum = rootIno ∨ fs.Named inum ∨ r ≠ 0) :
    (fs.updInode inum fun node => { node with refs := r }).Alive owners' := by
  have moves : fs.Moves (fun _ _ => True) _ := (Ramfs.Change.counted inum r).moves
  have same : fs.SameTree (fs.updInode inum fun node => { node with refs := r }) := .updInode rfl rfl rfl
  obtain ⟨sound, lives⟩ := alive
  refine ⟨sound.moves moves, fun n isInode => ?_⟩
  rw [updInode_inodes]
  split_ifs with isIt
  · subst isIt
    obtain ⟨-, -, -, links, dirs, named⟩ := lives n isInode
    rw [← same.subdirs, ← same.named] at *
    exact ⟨fun other => ⟨fun _ => (held.resolve_left other), fun _ => used⟩, by simpa [used] using here,
      fun unused => absurd (unused.symm.trans used) Bool.false_ne_true, links, dirs, named⟩
  · exact (lives n isInode).of_same rfl rfl rfl rfl same.named (same.subdirs n) (others n isIt)

theorem Ramfs.Alive.retained (alive : fs.Alive owners) (can : fs.CanRetain inum)
    (others : ∀ n, n ≠ inum → owners' n = owners n) (more : owners' inum = owners inum + 1) :
    (fs.retained inum).Alive owners' := by
  unfold Ramfs.retained
  rw [if_pos can]
  refine alive.recount can.1 can.2.1 others ?_ (.inr (.inr (Nat.succ_ne_zero _)))
  rw [(alive.lives inum can.1).refs, more]
  simp only [can.2.1, and_true]
  omega

/-- A reference may be given back as long as it is not the last thing that holds an inode. -/
theorem Ramfs.Alive.released (alive : fs.Alive owners) (small : inum < maxInodes)
    (others : ∀ n, n ≠ inum → owners' n = owners n) (less : owners inum = owners' inum + 1)
    (held : inum = rootIno ∨ fs.Named inum ∨ 2 ≤ (fs.inodes inum).refs) :
    (fs.inodes inum).used = true ∧ (fs.released inum).Alive owners' := by
  have refs := (alive.lives inum small).refs
  have used : (fs.inodes inum).used = true := by
    by_contra unused
    rw [(alive.lives inum small).blank (by simpa using unused)] at refs
    omega
  refine ⟨used, ?_⟩
  unfold Ramfs.released
  rw [if_pos ⟨small, used⟩]
  simp only [used, and_true] at refs
  refine alive.recount small used others (by omega) (held.imp_right (.imp_right fun two => by omega))

/-- Inodes that nobody has are not owned. -/
theorem Ramfs.Alive.owners_unused (alive : fs.Alive owners) (small : n < maxInodes)
    (unused : (fs.inodes n).used = false) : owners n = 0 := by
  have refs := (alive.lives n small).refs
  rw [(alive.lives n small).blank unused] at refs
  omega

end Counts

section Names

theorem subdirs_le (fs : Ramfs) (dir : Nat) : fs.subdirs dir ≤ maxDirEntries := by
  have := List.countP_le_length (p := fs.isSubdir dir) (l := List.range maxDirEntries)
  rwa [List.length_range] at this

theorem created_named (creates : fs.Creates inum k parent name) :
    (fs.created inum k parent name kind).Named n ↔ n = inum ∨ fs.Named n := by
  unfold Ramfs.Named
  constructor
  · rintro ⟨j, entry, rfl⟩
    rcases (creates.entry_iff kind).mp entry with rfl | old
    · rw [Ramfs.Creates.dirents_new]
      exact .inl rfl
    · rw [creates.dirents_of_entry kind old]
      exact .inr ⟨j, old, rfl⟩
  · rintro (rfl | ⟨j, old, rfl⟩)
    · exact ⟨k, (creates.entry_iff kind).mpr (.inl rfl), by rw [Ramfs.Creates.dirents_new]⟩
    · exact ⟨j, (creates.entry_iff kind).mpr (.inr old), by rw [creates.dirents_of_entry kind old]⟩

/-- A new directory counts for the one it lies in. -/
theorem created_subdirs (tree : fs.Tree) (creates : fs.Creates inum k parent name) (dir : Nat) :
    (fs.created inum k parent name kind).subdirs dir =
      fs.subdirs dir + if dir = parent ∧ kind = .directory then 1 else 0 := by
  have others (j) (member : j ∈ List.range maxDirEntries) (other : j ≠ k) :
      (fs.created inum k parent name kind).isSubdir dir j = fs.isSubdir dir j := by
    unfold Ramfs.isSubdir
    rw [created_dirents, Function.update_of_ne other]
    cases used : (fs.dirents j).used with
    | false => rfl
    | true =>
      have old : (fs.dirents j).child ≠ inum := by
        intro same
        have := tree.used j ⟨List.mem_range.mp member, used⟩
        rw [same, creates.fresh] at this
        cases this
      rw [creates.kind_of_ne old]
  have changed := countP_change List.nodup_range (List.mem_range.mpr creates.slot) others
  have before : fs.isSubdir dir k = false := by simp [Ramfs.isSubdir, creates.free]
  have after : (fs.created inum k parent name kind).isSubdir dir k =
      decide (dir = parent ∧ kind = .directory) := by
    unfold Ramfs.isSubdir
    rw [Ramfs.Creates.dirents_new, created_inodes creates.apart, if_pos rfl]
    by_cases here : parent = dir
    · simp [here]
    · simp [here, Ne.symm here]
  rw [before, after] at changed
  simpa [Ramfs.subdirs] using changed

theorem Ramfs.Alive.created (alive : fs.Alive owners) (creates : fs.Creates inum k parent name) :
    (fs.created inum k parent name kind).Alive owners := by
  have tree := alive.sound.tree
  have moves : fs.Moves (fun _ _ => True) (fs.created inum k parent name kind) :=
    (Ramfs.Change.created creates).moves
  refine ⟨alive.sound.moves moves, fun n small => ?_⟩
  have named : (fs.created inum k parent name kind).Named n ↔ n = inum ∨ fs.Named n := created_named creates
  rw [created_subdirs tree creates, created_inodes creates.apart]
  by_cases here : n = inum
  · -- Nothing lies in a directory that is new.
    have none : fs.subdirs inum = 0 := by
      refine List.countP_eq_zero.mpr fun j member isSubdir => ?_
      simp only [Ramfs.isSubdir, Bool.and_eq_true, beq_iff_eq] at isSubdir
      have := (tree.dir j ⟨List.mem_range.mp member, isSubdir.1.1⟩).used
      rw [isSubdir.1.2, creates.fresh] at this
      cases this
    subst here
    rw [if_pos rfl, alive.owners_unused small creates.fresh, none]
    refine ⟨fun _ => by simp [named], by simp [creates.root_ne tree], by simp, fun _ notDir => ?_, fun _ isDir => ?_,
      fun _ _ _ => named.mpr (.inl rfl)⟩
    · dsimp only at notDir
      simp [notDir]
    · dsimp only at isDir
      simp [isDir, creates.apart]
  · rw [if_neg here]
    have same : (fs.created inum k parent name kind).Named n ↔ fs.Named n := named.trans (or_iff_right here)
    rw [same]
    split_ifs with isParent
    · -- The parent has one link more for a new directory.
      obtain ⟨live, refs, blank, -, dirs, names⟩ := alive.lives n small
      rw [← isParent.1]
      have isDir := isParent.1.symm ▸ creates.dir
      have count := dirs isDir.used isDir.kind
      have bound := subdirs_le fs n
      have room : maxDirEntries + 2 < u16Max := by
        unfold maxDirEntries u16Max
        omega
      have more : min ((fs.inodes n).nlink + 1) u16Max = 2 + (fs.subdirs n + 1) := by
        rw [count, Nat.add_assoc]
        exact Nat.min_eq_left (by omega)
      exact ⟨live, refs, blank, fun _ notDir => absurd isDir.kind notDir, fun _ _ => more, names⟩
    · exact alive.lives n small

/-- An entry of a file is not one of a directory. -/
theorem unlinked_subdirs (tree : fs.Tree) (unlinks : fs.Unlinks path flags i)
    (file : (fs.inodes (fs.dirents i).child).kind ≠ .directory) (dir : Nat) :
    (fs.unlinked i).subdirs dir = fs.subdirs dir := by
  have removes := unlinks.removes
  unfold Ramfs.subdirs
  refine List.countP_congr fun j member => ?_
  unfold Ramfs.isSubdir
  by_cases here : j = i
  · subst here
    rw [removes.dirents, Function.update_self]
    simp [file]
  · rw [removes.dirents_of_ne here]
    cases used : (fs.dirents j).used with
    | false => simp
    | true =>
      have other : (fs.dirents j).child ≠ (fs.dirents i).child := fun same =>
        here (tree.single j i ⟨List.mem_range.mp member, used⟩ unlinks.entry same)
      rw [removes.kind _ other]

/-- An entry of a file goes, and with it the file if nothing else holds it. -/
theorem Ramfs.Alive.unlinked (alive : fs.Alive owners) (unlinks : fs.Unlinks path flags i)
    (file : (fs.inodes (fs.dirents i).child).kind ≠ .directory) : (fs.unlinked i).Alive owners := by
  have tree := alive.sound.tree
  have moves : fs.Moves (fun _ _ => True) (fs.unlinked i) := (Ramfs.Change.unlinked unlinks).moves
  have removes := unlinks.removes
  set c := (fs.dirents i).child with child
  have small : c < maxInodes := tree.small i unlinks.entry
  have used : (fs.inodes c).used = true := tree.used i unlinks.entry
  have notRoot : c ≠ rootIno := tree.top i unlinks.entry
  have single := (alive.lives c small).links used file
  have other (n) (isOther : n ≠ c) : (fs.unlinked i).inodes n = fs.inodes n := by
    unfold Ramfs.unlinked
    dsimp only
    split_ifs <;> simp [← child, isOther]
  -- The entry was the only one of this file.
  have gone : ¬ (fs.unlinked i).Named c := by
    rintro ⟨j, entry, same⟩
    obtain ⟨isOther, old⟩ := removes.entry_iff.mp entry
    rw [removes.dirents_of_ne isOther] at same
    exact isOther (tree.single j i old unlinks.entry same)
  have named (n) (isOther : n ≠ c) : (fs.unlinked i).Named n ↔ fs.Named n := by
    constructor
    · rintro ⟨j, entry, rfl⟩
      obtain ⟨isOther, old⟩ := removes.entry_iff.mp entry
      exact ⟨j, old, by rw [removes.dirents_of_ne isOther]⟩
    · rintro ⟨j, old, rfl⟩
      have isOther' : j ≠ i := by
        rintro rfl
        exact isOther rfl
      exact ⟨j, removes.entry_iff.mpr ⟨isOther', old⟩, by rw [removes.dirents_of_ne isOther']⟩
  refine ⟨alive.sound.moves moves, fun n isInode => ?_⟩
  rw [unlinked_subdirs tree unlinks file]
  by_cases isIt : n = c
  · subst isIt
    have refs := (alive.lives c small).refs
    have here : (fs.inodes c).refs = 0 ∧ (fs.unlinked i).inodes c = {} ∨ (fs.inodes c).refs ≠ 0 ∧
        (fs.unlinked i).inodes c = { fs.inodes c with nlink := (fs.inodes c).nlink - 1 } := by
      unfold Ramfs.unlinked
      dsimp only
      rw [← child]
      split_ifs with loose
      · exact .inl ⟨loose.2.1, by simp⟩
      · exact .inr ⟨fun none => loose ⟨single, none, file⟩, by simp⟩
    rcases here with ⟨none, blank⟩ | ⟨some, kept⟩
    · rw [blank]
      rw [none] at refs
      constructor <;> simp [gone, notRoot]
      omega
    · rw [kept]
      exact ⟨fun _ => by simp [gone, used, some], refs, fun unused => by simp [used] at unused,
        fun _ _ => by dsimp only; omega, fun _ isDir => absurd isDir file, fun _ isDir => absurd isDir file⟩
  · rw [other n isIt]
    exact (alive.lives n isInode).of_same rfl rfl rfl rfl (named n isIt) rfl rfl

theorem Ramfs.Alive.build (alive : fs.Alive owners) (build : fs.Build part fs') : fs'.Alive owners := by
  cases build with
  | created creates => exact alive.created creates
  | @embedded inum offset len file empty fits =>
    have moves : fs.Moves part (fs.embedded inum offset len) := (Ramfs.Change.embedded file empty fits).moves
    refine alive.same ⟨.updInode rfl rfl rfl, fun n => ?_, fun n => ?_⟩ (alive.sound.moves moves) <;>
      simp only [Ramfs.embedded, updInode_inodes] <;> split_ifs with here <;> simp [here]

theorem Ramfs.Alive.builds (alive : fs.Alive owners) (builds : fs.Builds part fs') : fs'.Alive owners := by
  induction builds with
  | refl => exact alive
  | tail _ build ih => exact ih.build build

theorem Ramfs.Alive.touches (alive : fs.Alive owners) (touches : fs.Touches fs' inum) : fs'.Alive owners := by
  have sound : fs'.Sound := alive.sound.moves (touches.moves : fs.Moves (fun _ _ => True) fs')
  rcases touches with rfl | ⟨-, -, size, new, writes⟩
  · exact alive
  · refine alive.same ⟨writes.sameTree, fun n => ?_, fun n => ?_⟩ sound <;> rw [writes.inodes] <;>
      by_cases here : n = inum <;> simp [here]

theorem Ramfs.Alive.opened (alive : fs.Alive owners) (small : inum < maxInodes)
    (used : (fs.inodes inum).used = true) (flags : Nat) : (fs.opened inum flags).Alive owners := by
  unfold Ramfs.opened
  split_ifs
  · have moves : fs.Moves (fun _ _ => True) (fs.truncated inum) := (Ramfs.Change.truncated small used).moves
    refine alive.same ⟨truncated_sameTree fs inum, fun n => ?_, fun n => ?_⟩ (alive.sound.moves moves) <;>
      simp only [Ramfs.truncated, updInode_inodes] <;> split_ifs with here <;> simp [here]
  · exact alive

/-- The root and nothing else. -/
theorem boot_alive (fs : Ramfs) : fs.boot.Alive fun _ => 0 := by
  have node (n) : fs.boot.inodes n = if n = rootIno then
      { used := true, kind := .directory, nlink := 2, refs := 1, parent := rootIno } else {} := by
    simp only [Ramfs.boot, Ramfs.initRoot, updInode_inodes]
    split_ifs <;> rfl
  have entries (i) : ¬ fs.boot.Entry i := fun entry => absurd entry.2 Bool.false_ne_true
  have unnamed (n) : ¬ fs.boot.Named n := by
    rintro ⟨i, entry, -⟩
    exact entries i entry
  have none (n) : fs.boot.subdirs n = 0 := List.countP_eq_zero.mpr fun i _ isSubdir => by
    simp [Ramfs.isSubdir, Ramfs.boot, Ramfs.initRoot, Ramfs.updInode, Ramfs.reset] at isSubdir
  refine ⟨boot_sound fs, fun n _ => ?_⟩
  rw [node, none]
  split_ifs with isRoot <;> constructor <;> simp [isRoot, unnamed]

end Names

section Holders

variable {s s' : Server} {held held' : Nat → Nat} {file : Nat}

/-- An open file holds an inode. -/
def OpenFile.holds (n : Nat) (f : OpenFile) : Bool :=
  f.used && (f.kind == .ramFile || f.kind == .ramDir) && f.node == n

/-- How many open files hold an inode. -/
def Server.opens (s : Server) (n : Nat) : Nat := s.openCount (OpenFile.holds n)

theorem holds_outline {f f' : OpenFile} (same : f'.outline = f.outline) : f'.holds n = f.holds n := by
  unfold OpenFile.outline at same
  unfold OpenFile.holds
  cases used : f.used <;> cases used' : f'.used <;> simp_all

theorem holds_unused {f : OpenFile} (unused : f.used = false) : f.holds n = false := by
  simp [OpenFile.holds, unused]

/-- Inodes are held by open files, and by what the host has taken for itself. -/
abbrev Server.Alive (s : Server) (held : Nat → Nat) : Prop := s.fs.Alive fun n => s.opens n + held n

/-- The same inodes are held by the same files. -/
structure SameHolds (s s' : Server) : Prop where
  fs : s'.fs = s.fs
  holds : ∀ i n, (s'.files i).holds n = (s.files i).holds n

instance : Std.Refl SameHolds := ⟨fun _ => ⟨rfl, fun _ _ => rfl⟩⟩

instance : IsTrans Server SameHolds := ⟨fun _ _ _ first second =>
  ⟨second.fs.trans first.fs, fun i n => (second.holds i n).trans (first.holds i n)⟩⟩

theorem always_sameHolds {α : Type} {prog : Srv α} (always : Always SameOutline prog) : Always SameHolds prog :=
  always.mono fun _ _ same => ⟨same.fs, fun i _ => holds_outline (same.outline i)⟩

theorem Server.SameFiles.sameHolds (same : s.SameFiles s') (fs : s'.fs = s.fs) : SameHolds s s' :=
  ⟨fs, fun i _ => same.keeps (fun _ => holds_unused) i⟩

theorem SameHolds.updFile {change : OpenFile → OpenFile}
    (same : ∀ n, (change (s.files i)).holds n = (s.files i).holds n) : SameHolds s (s.updFile i change) := by
  refine ⟨rfl, fun j n => ?_⟩
  rw [updFile_files]
  split_ifs with here
  · rw [here, same n]
  · rfl

/-- A file that holds no inode may be opened. -/
theorem SameHolds.openFile {new : OpenFile} (unused : (s.files i).used = false)
    (notFile : new.kind ≠ .ramFile) (notDir : new.kind ≠ .ramDir) :
    SameHolds s (s.updFile i fun _ => new) := by
  refine .updFile fun n => ?_
  rw [holds_unused unused]
  simp [OpenFile.holds, notFile, notDir]

theorem SameHolds.alive (same : SameHolds s s') (alive : s.Alive held) : s'.Alive held := by
  unfold Server.Alive
  rw [same.fs]
  refine alive.congr fun n _ => ?_
  rw [Server.opens, openCount_congr fun i => same.holds i n]
  rfl

end Holders

section Handlers

variable {s s' : Server} {held held' : Nat → Nat} {fs' : Ramfs} {msg : Message} {reply : Reply} {file maxLen : Nat}
  {rootfs : List UInt8} {console : Console}

/-- One reference more, or less. -/
def take (held : Nat → Nat) (n : Nat) : Nat → Nat := Function.update held n (held n + 1)
def drop (held : Nat → Nat) (n : Nat) : Nat → Nat := Function.update held n (held n - 1)

/-- The references the host has for its working directories and programs, as it can tell from what it
asked for and what it was answered. -/
def heldAfter (held : Nat → Nat) (msg : Message) (reply : Reply) : Nat → Nat :=
  match VfsOp.fromRaw msg.label, decide (reply.status = statusOk) with
  | some .init, _ => if validHost msg then fun _ => 0 else held
  | some .procInit, true => take held rootIno
  | some .procFork, true => if msg.word32 2 = 0 then held else take held (msg.word32 2)
  | some .procExit, true => if msg.word32 2 = 0 then held else drop held (msg.word32 2)
  | some .chdir, true =>
    if msg.word32 2 = 0 then take held reply.first else drop (take held reply.first) (msg.word32 2)
  | some .execOpen, true => take held reply.first
  | some .execClose, true => drop held (msg.word32 2)
  | _, _ => held

/-- Requests with which the host may take or give back a reference of its own. -/
def VfsOp.forHost : VfsOp → Bool
  | .init | .procInit | .procFork | .procExit | .chdir | .execOpen | .execClose => true
  | _ => false

theorem heldAfter_other {which : VfsOp} (op : VfsOp.fromRaw msg.label = some which)
    (other : which.forHost = false) : heldAfter held msg reply = held := by
  unfold heldAfter
  rw [op]
  cases which <;> first | rfl | cases other

/-- Something keeps the inode besides one reference. -/
def Ramfs.Kept (fs : Ramfs) (n : Nat) : Prop := n = rootIno ∨ fs.Named n ∨ 2 ≤ (fs.inodes n).refs

/-- The host has a reference to give back, and it is not the last thing that keeps the inode. -/
def Server.MayRelease (s : Server) (held : Nat → Nat) (n : Nat) : Prop := 0 < held n ∧ s.fs.Kept n

/-- The inode at the end of a path can be given a reference more. -/
def Ramfs.HasRoom (fs : Ramfs) (path : Option (List UInt8)) : Prop :=
  ∀ names n, path = some names → fs.walk names = .ok n → (fs.inodes n).refs ≠ u16Max

/-- Requests after which inodes still live as long as they should: no directory is removed, nobody gives
back what they do not have or what alone keeps an inode, and no counter of references is full. -/
def Allowed (s : Server) (held : Nat → Nat) (msg : Message) : Prop :=
  validHost msg = true →
    match VfsOp.fromRaw msg.label with
    | some .procExit => msg.word32 2 ≠ 0 → s.MayRelease held (msg.word32 2)
    | some .chdir => msg.word32 2 ≠ 0 → s.MayRelease held (msg.word32 2)
    | some .execClose => s.MayRelease held (msg.word32 2)
    | some .close => ∀ f, s.fileSnapshot (msg.mrs 2) = some f → f.refs ≤ 1 →
        f.kind = .ramFile ∨ f.kind = .ramDir → s.fs.Kept f.node
    | some .open => s.fs.HasRoom (msg.path 4 (msg.mrs 3))
    | some .execOpen => s.fs.HasRoom (msg.path 3 (msg.mrs 2))
    | some .unlink => msg.word32 3 &&& atRemovedir ≠ 0 → ∀ path n, msg.path 4 (msg.mrs 2) = some path →
        s.fs.walk path = .ok n → (s.fs.inodes n).kind = .directory → s.fs.dirEmpty n = false
    | _ => True

/-- Inodes are left alive, whatever is returned; and where the host learns of its references from the answer. -/
abbrev Server.Stays {α : Type} (s : Server) (held : Nat → Nat) (prog : Srv α) : Prop :=
  wp prog (fun _ s' => s'.Alive held) (fun _ _ => True) s
abbrev Server.Serves (s : Server) (held : Nat → Nat) (msg : Message) (handler : Srv Reply) : Prop :=
  wp handler (fun reply s' => s'.Alive (heldAfter held msg reply)) (fun _ _ => True) s

/-- A request that is refused changes nothing the host knows of. -/
theorem Server.Alive.refused (alive : s.Alive held) (other : VfsOp.fromRaw msg.label ≠ some .init)
    (refused : reply.status ≠ statusOk) : s.Alive (heldAfter held msg reply) := by
  have same : heldAfter held msg reply = held := by
    unfold heldAfter
    rw [decide_eq_false refused]
    split <;> first | rfl | contradiction
  rwa [same]

theorem errCode_status (e : Errno) : (Reply.errCode e).status ≠ statusOk := by cases e <;> decide

theorem Server.Alive.taken (alive : s.Alive held) (can : s.fs.CanRetain n) :
    Server.Alive { s with fs := s.fs.retained n } (take held n) := by
  refine Ramfs.Alive.retained alive can (fun m other => ?_) ?_
  · show s.opens m + _ = s.opens m + _
    simp [take, other]
  · show s.opens n + _ = s.opens n + _ + 1
    simp [take]
    omega

/-- Giving a reference back succeeds, or the number is none of an inode. -/
theorem Server.Alive.dropped (alive : s.Alive held) (may : s.MayRelease held n) :
    (n < maxInodes → (s.fs.inodes n).used = true) ∧
      Server.Alive { s with fs := s.fs.released n } (drop held n) := by
  by_cases small : n < maxInodes
  · have others (m) (other : m ≠ n) : s.opens m + drop held n m = s.opens m + held m := by
      simp [drop, other]
    have less : s.opens n + held n = s.opens n + drop held n n + 1 := by
      have := may.1
      simp [drop]
      omega
    have released := Ramfs.Alive.released alive small others less may.2
    exact ⟨fun _ => released.1, released.2⟩
  · refine ⟨fun isSmall => absurd isSmall small, ?_⟩
    have same : s.fs.released n = s.fs := if_neg fun is => small is.1
    rw [same]
    refine Ramfs.Alive.congr alive fun m isSmall => ?_
    have other : m ≠ n := by omega
    show s.opens m + _ = _
    simp [drop, other]

/-- A reference is taken, or nothing happens. -/
theorem Server.Alive.retain (alive : s.Alive held) (n : Nat) :
    wp (onFs (retain n)) (fun got s' => s'.Alive (if got then take held n else held)) (fun _ _ => True) s := by
  rw [wp_onFs, wp_retain]
  by_cases can : s.fs.CanRetain n
  · simpa [can] using alive.taken can
  · have same : s.fs.retained n = s.fs := if_neg can
    simpa [can, same] using alive

/-- A reference is given back, or nothing happens. -/
theorem Server.Alive.release (alive : s.Alive held) (may : s.MayRelease held n) :
    wp (onFs (release n)) (fun got s' => s'.Alive (if got then drop held n else held)) (fun _ _ => True) s := by
  rw [wp_onFs, wp_release]
  by_cases can : n < maxInodes ∧ (s.fs.inodes n).used = true
  · simpa [can] using (alive.dropped may).2
  · have same : s.fs.released n = s.fs := if_neg can
    simpa [can, same] using alive

theorem handleProcInit_alive (alive : s.Alive held) (op : VfsOp.fromRaw msg.label = some .procInit) :
    s.Serves held msg (handleProcInit msg) := by
  refine wp_mono handleProcInit_spec ?_ fun _ _ => False.elim
  rintro reply s' (⟨i, j, k, can, rfl, rfl⟩ | ⟨rfl, fs, -, same⟩)
  · have counted : heldAfter held msg { status := statusOk, first := i, second := j, third := k } =
        take held rootIno := by
      simp [heldAfter, op]
    rw [counted]
    -- Files for the console hold no inode.
    have first := alive.taken can.root
    refine SameHolds.alive (trans_of SameHolds (.openFile ?_ ?_ ?_) (trans_of SameHolds
      (.openFile ?_ ?_ ?_) (.openFile ?_ ?_ ?_))) first
    all_goals simp [consoleFile, OpenFile.new, can.apart, can.first.2, can.second.2, can.third.2]
  · exact ((same.sameHolds fs).alive alive).refused (by simp [op]) (by decide)

/-- The answer tells the host whether it has other references now. -/
theorem Server.Serves.answer {prog : Srv Bool} (other : VfsOp.fromRaw msg.label ≠ some .init)
    (granted : heldAfter held msg .ok = held')
    (done : wp prog (fun got s' => s'.Alive (if got then held' else held)) (fun _ _ => True) s) :
    s.Serves held msg (do if ← prog then return .ok else return .err) := by
  simp only [Server.Serves, wp_bind, wp_ite, wp_pure]
  refine wp_mono done (fun got s' alive => ⟨fun can => ?_, fun cannot => ?_⟩) fun _ _ => id
  · simpa [granted, can] using alive
  · refine Server.Alive.refused ?_ other (by decide)
    simpa [cannot] using alive

theorem handleProcFork_alive (alive : s.Alive held) (op : VfsOp.fromRaw msg.label = some .procFork) :
    s.Serves held msg (handleProcFork msg) := by
  have notInit : VfsOp.fromRaw msg.label ≠ some .init := by simp [op]
  unfold handleProcFork
  simp only [Server.Serves, wp_ite, wp_pure]
  refine ⟨fun _ => alive.refused notInit (by decide), fun _ => ⟨fun none => ?_, fun some => ?_⟩⟩
  · simpa [heldAfter, op, Reply.ok, none] using alive
  · exact Server.Serves.answer notInit (by simp [heldAfter, op, Reply.ok, some]) (alive.retain _)

theorem handleProcExit_alive (alive : s.Alive held) (op : VfsOp.fromRaw msg.label = some .procExit)
    (allowed : Allowed s held msg) : s.Serves held msg (handleProcExit msg) := by
  have notInit : VfsOp.fromRaw msg.label ≠ some .init := by simp [op]
  unfold handleProcExit
  simp only [Server.Serves, wp_ite, wp_pure]
  refine ⟨fun _ => alive.refused notInit (by decide), fun valid => ⟨fun none => ?_, fun some => ?_⟩⟩
  · simpa [heldAfter, op, Reply.ok, none] using alive
  · simp only [Allowed, op, Bool.not_eq_true', Bool.not_eq_false] at allowed valid
    exact Server.Serves.answer notInit (by simp [heldAfter, op, Reply.ok, some]) (alive.release (allowed valid some))

theorem handleExecClose_alive (alive : s.Alive held) (op : VfsOp.fromRaw msg.label = some .execClose)
    (allowed : Allowed s held msg) : s.Serves held msg (handleExecClose msg) := by
  have notInit : VfsOp.fromRaw msg.label ≠ some .init := by simp [op]
  unfold handleExecClose
  simp only [Server.Serves, wp_ite, wp_pure]
  refine ⟨fun _ => alive.refused notInit (by decide), fun valid => ?_⟩
  simp only [Allowed, op, Bool.not_eq_true', Bool.not_eq_false] at allowed valid
  exact Server.Serves.answer notInit (by simp [heldAfter, op, Reply.ok]) (alive.release (allowed valid))

/-- An inode that was found has a file that holds it, or the reference to it is given back. -/
theorem openInode_alive {flags size : Nat} {kind : FileKind} (alive : s.Alive held) (can : s.fs.CanRetain inum) :
    wp (openInode flags inum kind size) (fun _ s' => s'.Alive held) (fun _ _ => True)
      { s with fs := s.fs.retained inum } := by
  have undone := released_retained can
  have taken := alive.taken can
  -- A file for the inode takes the place of the reference.
  have opened (fileKind : OpenKind) (ram : fileKind = .ramFile ∨ fileKind = .ramDir) (i : Nat)
      (free : Server.freeFile { s with fs := s.fs.retained inum } = some i) (readable writable : Bool) :
      Server.Alive (Server.updFile { s with fs := s.fs.retained inum } i fun _ =>
        .new fileKind inum 0 readable writable) held := by
    obtain ⟨small, unused⟩ := freeFile_some free
    refine Ramfs.Alive.congr taken fun n _ => ?_
    show Server.opens _ n + held n = s.opens n + take held inum n
    rw [Server.opens, openCount_open small (holds_unused unused)]
    have holds : (OpenFile.new fileKind inum 0 readable writable).holds n = decide (n = inum) := by
      rcases ram with rfl | rfl <;> simp [OpenFile.new, OpenFile.holds, beq_eq_decide, eq_comm]
    rw [holds]
    change s.opens n + _ + _ = _
    by_cases here : n = inum
    · subst here
      simp [take]
      omega
    · simp [take, here]
  unfold openInode openTarget
  cases kind with
  | file | directory =>
    simp only [wp_bind, wp_pure, wp_allocFile]
    refine ⟨fun i free => opened _ (by simp) i free _ _, fun _ => ?_⟩
    simp only [wp_ite, wp_bind, wp_onFs, wp_release, wp_pure, undone]
    exact ⟨fun _ => alive, fun same => absurd same (by simp)⟩
  | device =>
    simp only [wp_bind, wp_pure, wp_onFs, wp_release, wp_allocFile, undone]
    refine ⟨fun i free => ?_, fun _ => ?_⟩
    · exact SameHolds.alive (.openFile (freeFile_some free).2 (by simp [OpenFile.new]) (by simp [OpenFile.new])) alive
    · simp only [wp_ite, wp_pure]
      exact ⟨fun other => absurd rfl other, fun _ => alive⟩

/-- The state between finding an inode and counting the reference to it. -/
theorem Ramfs.Opens.split {answer : Nat × FileKind × Nat} (alive : fs.Alive owners)
    (opens : fs.Opens path flags answer fs') (room : ∀ n, fs.walk path = .ok n → (fs.inodes n).refs ≠ u16Max) :
    ∃ mid : Ramfs, mid.Alive owners ∧ mid.CanRetain answer.1 ∧ fs' = mid.retained answer.1 := by
  cases opens with
  | @old inum walked small used =>
    refine ⟨fs.opened inum flags, alive.opened small used flags, ⟨small, ?_, ?_⟩, rfl⟩
    · unfold Ramfs.opened
      split_ifs <;> simp [used]
    · have refs : ((fs.opened inum flags).inodes inum).refs = (fs.inodes inum).refs := by
        unfold Ramfs.opened
        split_ifs <;> simp [Ramfs.truncated]
      rw [refs]
      exact room inum walked
  | @new inum k parent name made asked makes =>
    obtain rfl := makes.made
    refine ⟨_, alive.created makes.creates, ⟨makes.creates.small, ?_, ?_⟩, rfl⟩ <;>
      rw [created_inodes makes.creates.apart, if_pos rfl]
    show 0 ≠ u16Max
    decide

theorem handleOpen_alive (alive : s.Alive held) (allowed : Allowed s held msg)
    (op : VfsOp.fromRaw msg.label = some .open) : s.Stays held (handleOpen msg) := by
  unfold Server.Stays handleOpen
  rw [wp_ite]
  refine ⟨fun _ => alive, fun valid => ?_⟩
  simp only [Allowed, op, Bool.not_eq_true', Bool.not_eq_false] at allowed valid
  cases given : msg.path 4 (msg.mrs 3) with
  | none => exact alive
  | some path =>
    simp only [wp_bind, wp_onFs, wp_attempt]
    refine wp_mono (openPath_spec alive.sound.tree) ?_ ?_
    · rintro ⟨inum, kind, size⟩ fs' opens
      obtain ⟨mid, aliveMid, can, rfl⟩ := opens.split alive fun n => allowed valid path n given
      have found : Server.Alive { s with fs := mid } held := aliveMid
      exact openInode_alive found can
    · rintro stop fs' ⟨rfl, e, rfl⟩
      exact alive

theorem handleExecOpen_alive (alive : s.Alive held) (allowed : Allowed s held msg)
    (op : VfsOp.fromRaw msg.label = some .execOpen) : s.Serves held msg (handleExecOpen msg) := by
  have notInit : VfsOp.fromRaw msg.label ≠ some .init := by simp [op]
  unfold handleExecOpen
  rw [Server.Serves, wp_ite]
  refine ⟨fun _ => alive.refused notInit (by decide), fun valid => ?_⟩
  simp only [Allowed, op, Bool.not_eq_true', Bool.not_eq_false] at allowed valid
  cases given : msg.path 3 (msg.mrs 2) with
  | none => exact alive.refused notInit (by decide)
  | some path =>
    simp only [wp_bind, wp_onFs, wp_attempt]
    refine wp_mono (openPath_spec alive.sound.tree) ?_ ?_
    · rintro ⟨inum, kind, size⟩ fs' opens
      obtain ⟨mid, aliveMid, can, rfl⟩ := opens.split alive fun n => allowed valid path n given
      have found : Server.Alive { s with fs := mid } held := aliveMid
      simp only [wp_ite, wp_pure, wp_bind, wp_onFs, wp_release, released_retained can]
      refine ⟨fun _ => ?_, fun _ => found.refused notInit (by decide)⟩
      simpa [heldAfter, op] using found.taken can
    · rintro stop fs' ⟨rfl, e, rfl⟩
      exact alive.refused notInit (errCode_status e)

theorem handleChdir_alive (alive : s.Alive held) (allowed : Allowed s held msg)
    (op : VfsOp.fromRaw msg.label = some .chdir) : s.Serves held msg (handleChdir msg) := by
  have refused {s' : Server} (alive : s'.Alive held) (e : Errno) : s'.Alive (heldAfter held msg (.errCode e)) :=
    alive.refused (by simp [op]) (errCode_status e)
  unfold handleChdir
  rw [Server.Serves, wp_ite]
  refine ⟨fun _ => refused alive _, fun valid => ?_⟩
  simp only [Allowed, op, Bool.not_eq_true', Bool.not_eq_false] at allowed valid
  cases given : msg.path 4 (msg.mrs 3) with
  | none => exact refused alive _
  | some path =>
    simp only [wp_bind, wp_get]
    cases walked : s.fs.walk path with
    | error e => exact refused alive e
    | ok inum =>
      dsimp only
      cases found : s.fs.inode inum with
      | none => exact refused alive _
      | some node =>
        simp only [wp_ite, wp_bind, wp_pure]
        refine ⟨fun _ => refused alive _, fun _ => ?_⟩
        rw [wp_onFs, wp_retain]
        by_cases can : s.fs.CanRetain inum
        · have taken := alive.taken can
          have counted : heldAfter held msg { status := statusOk, first := inum } =
              if msg.word32 2 = 0 then take held inum else drop (take held inum) (msg.word32 2) := by
            simp [heldAfter, op]
          rw [decide_eq_true can, counted]
          refine ⟨fun cannot => absurd cannot (by decide), fun _ => ⟨fun old => ?_, fun none => ?_⟩⟩
          · rw [if_neg old, wp_onFs, wp_release]
            obtain ⟨has, kept⟩ := allowed valid old
            -- What kept the old directory before keeps it now.
            have may : Server.MayRelease { s with fs := s.fs.retained inum } (take held inum) (msg.word32 2) := by
              have same := retained_sameTree s.fs inum
              refine ⟨?_, kept.imp_right (.imp same.named.mpr fun two => ?_)⟩
              · simp only [take, Function.update_apply]
                split_ifs <;> omega
              · show 2 ≤ ((s.fs.retained inum).inodes _).refs
                rw [Ramfs.retained, if_pos can, updInode_inodes]
                split_ifs with here
                · rw [← here]
                  dsimp only
                  omega
                · exact two
            exact (taken.dropped may).2
          · rw [if_pos (not_not.mp none)]
            exact taken
        · have same : s.fs.retained inum = s.fs := if_neg can
          rw [decide_eq_false can, same]
          exact ⟨fun _ => refused alive _, fun cannot => absurd rfl cannot⟩

theorem handleClose_alive (alive : s.Alive held) (allowed : Allowed s held msg)
    (op : VfsOp.fromRaw msg.label = some .close) : s.Stays held (handleClose msg) := by
  unfold Server.Stays handleClose
  rw [wp_ite]
  refine ⟨fun _ => alive, fun valid => ?_⟩
  simp only [Allowed, op, Bool.not_eq_true', Bool.not_eq_false] at allowed valid
  rw [wp_bind, wp_detachFile]
  refine ⟨fun _ => alive, fun _ _ => ?_, fun isFile last => ?_⟩
  · exact SameHolds.alive (.updFile fun _ => rfl) alive
  have snapshot : s.fileSnapshot (msg.mrs 2) = some (s.files (msg.mrs 2)) := if_pos isFile
  obtain ⟨small, used⟩ := validFile_iff.mp isFile
  have opens (n) : (s.closeFile (msg.mrs 2)).opens n + (if (s.files (msg.mrs 2)).holds n then 1 else 0) =
      s.opens n := by
    have counted : (s.closeFile (msg.mrs 2)).opens n + _ = s.opens n + _ :=
      openCount_updFile small fun _ => {}
    simpa [OpenFile.holds] using counted
  by_cases ram : (s.files (msg.mrs 2)).kind = .ramFile ∨ (s.files (msg.mrs 2)).kind = .ramDir
  · have released : (s.files (msg.mrs 2)).released = .inode (s.files (msg.mrs 2)).node := by
      rcases ram with kind | kind <;> simp [OpenFile.released, kind]
    have holds (n) : (s.files (msg.mrs 2)).holds n = decide (n = (s.files (msg.mrs 2)).node) := by
      rcases ram with kind | kind <;> simp [OpenFile.holds, kind, used, beq_eq_decide, eq_comm]
    have kept := allowed valid _ snapshot (Nat.le_of_not_lt last) ram
    simp only [holds, decide_eq_true_eq] at opens
    rw [released]
    simp only [wp_bind, wp_onFs, wp_release, wp_ite, wp_pure]
    refine ⟨fun can => ?_, fun cannot => ?_⟩
    · have can := of_decide_eq_true can
      refine (Ramfs.Alive.released alive can.1 (fun n other => ?_) ?_ kept).2
      · show (s.closeFile _).opens n + _ = s.opens n + _
        have := opens n
        rw [if_neg other] at this
        omega
      · show s.opens _ + _ = (s.closeFile _).opens _ + _ + 1
        have := opens (s.files (msg.mrs 2)).node
        rw [if_pos rfl] at this
        omega
    · rw [closeFile_fs] at cannot ⊢
      have same : s.fs.released (s.files (msg.mrs 2)).node = s.fs := if_neg (by simpa using cannot)
      rw [same]
      -- A number that is none of an inode in use is held by nobody.
      refine Ramfs.Alive.congr alive fun n small => ?_
      show (s.closeFile _).opens n + _ = s.opens n + _
      have := opens n
      split_ifs at this with here
      · subst here
        have unused : (s.fs.inodes (s.files (msg.mrs 2)).node).used = false := by simpa [small] using cannot
        have none : s.opens _ + _ = 0 := alive.owners_unused small unused
        omega
      · omega
  · have notRam := not_or.mp ram
    have released : (s.files (msg.mrs 2)).released = .done := by
      cases kind : (s.files (msg.mrs 2)).kind <;> simp_all [OpenFile.released]
    rw [released]
    have same : SameHolds s (s.updFile (msg.mrs 2) fun _ => {}) := .updFile fun n => by
      simp [OpenFile.holds, notRam.1, notRam.2]
    have closed : SameHolds s (s.closeFile (msg.mrs 2)) := ⟨rfl, same.holds⟩
    exact closed.alive alive

theorem handleUnlink_alive (alive : s.Alive held) (allowed : Allowed s held msg)
    (op : VfsOp.fromRaw msg.label = some .unlink) : s.Stays held (handleUnlink msg) := by
  unfold Server.Stays handleUnlink
  rw [wp_ite]
  refine ⟨fun _ => alive, fun valid => ?_⟩
  simp only [Allowed, op, Bool.not_eq_true', Bool.not_eq_false] at allowed valid
  cases given : msg.path 4 (msg.mrs 2) with
  | none => exact alive
  | some path =>
    simp only [wp_bind, wp_onFs, wp_attempt]
    refine wp_mono (unlink_spec alive.sound.tree) ?_ ?_
    · rintro _ fs' ⟨i, unlinks, rfl⟩
      refine Ramfs.Alive.unlinked alive unlinks fun isDir => ?_
      -- The directory would be one without entries.
      have filled := allowed valid (unlinks.kind.mpr isDir) path _ given unlinks.led isDir
      refine absurd filled (by simpa [Ramfs.dirEmpty] using fun j small used => unlinks.leaf j ⟨small, used⟩)
    · rintro stop fs' ⟨rfl, e, rfl⟩
      exact alive

theorem handleMkdir_alive (alive : s.Alive held) : s.Stays held (handleMkdir msg) := by
  unfold Server.Stays handleMkdir
  rw [wp_ite]
  refine ⟨fun _ => alive, fun valid => ?_⟩
  cases given : msg.path 3 (msg.mrs 2) with
  | none => exact alive
  | some path =>
    simp only [wp_bind, wp_onFs, wp_attempt]
    refine wp_mono (mkdir_spec alive.sound.tree) ?_ ?_
    · rintro inum fs' ⟨k, parent, name, makes⟩
      exact Ramfs.Alive.builds alive (makes.builds : s.fs.Builds (fun _ _ => True) fs')
    · rintro stop fs' ⟨⟨rfl, e, rfl⟩, -⟩
      exact alive

theorem always_readPipe {p : Nat} : Always SameHolds (readPipe p maxLen) := by
  intro s
  have refl : SameHolds s s := Std.Refl.refl s
  unfold Follows readPipe
  simp only [wp_bind, wp_get, wp_ite, wp_pure, wp_set]
  exact ⟨fun _ => refl, fun _ => ⟨fun _ => ⟨fun _ => refl, fun _ => refl⟩, fun _ => ⟨rfl, fun _ _ => rfl⟩⟩⟩

theorem always_writePipe {p : Nat} : Always SameHolds (writePipe p maxLen) := by
  intro s
  have refl : SameHolds s s := Std.Refl.refl s
  unfold Follows writePipe
  simp only [wp_bind, wp_get, wp_ite, wp_pure, wp_set]
  exact ⟨fun _ => refl, fun _ => ⟨fun _ => refl, fun _ => ⟨fun _ => refl, fun _ => ⟨rfl, fun _ _ => rfl⟩⟩⟩⟩

theorem Server.Alive.always {α : Type} {prog : Srv α} (alive : s.Alive held) (always : Always SameHolds prog) :
    s.Stays held prog :=
  wp_mono (always s) (fun _ _ same => same.alive alive) fun _ _ _ => trivial

theorem handleRead_alive (alive : s.Alive held) : s.Stays held (handleRead rootfs console msg) := by
  refine alive.always ?_
  unfold handleRead
  refine always_ite (always_pure _) (always_bind always_get fun s => ?_)
  split
  · refine always_ite (always_pure _) ?_
    split
    · exact always_sameHolds always_readRamFile
    · exact always_sameHolds always_readRamFile
    · exact always_readPipe
    · exact always_bind (always_sameHolds (always_share _)) fun _ => always_pure _
    · exact always_pure _
  · exact always_pure _

theorem writeRamFile_alive (alive : s.Alive held) : s.Stays held (writeRamFile rootfs file maxLen) := by
  have finish (s : Server) (alive : s.Alive held) (reply : Reply) :
      s.Stays held (do releaseFileIo file; pure reply : Srv Reply) :=
    alive.always (always_bind (always_sameHolds always_releaseFileIo) fun _ => always_pure _)
  unfold Server.Stays writeRamFile
  rw [wp_bind]
  refine wp_mono (alive.always (always_sameHolds always_acquireFileIo)) ?_ fun _ _ => id
  intro ready mid alive
  rw [wp_ite]
  refine ⟨fun _ => alive, fun _ => ?_⟩
  rw [wp_bind, wp_get]
  cases mid.fileSnapshot file with
  | none => exact finish mid alive _
  | some f =>
    rw [wp_bind, wp_get, wp_bind, wp_onFs, wp_attempt]
    refine wp_mono (writeInode_touches alive.sound.owned f.node f.offset _) ?_ ?_
    · intro n fs' touches
      have written : Server.Alive { mid with fs := fs' } held := Ramfs.Alive.touches alive touches
      dsimp only
      rw [wp_bind]
      refine wp_mono (written.always (always_sameHolds always_addFileOffset)) ?_ fun _ _ => id
      exact fun _ s' alive' => finish s' alive' _
    · intro stop fs' touches
      cases stop with
      | errno e =>
        have written : Server.Alive { mid with fs := fs' } held := Ramfs.Alive.touches alive (touches e rfl)
        exact finish _ written _
      | _ => trivial

theorem handleWrite_alive (alive : s.Alive held) : s.Stays held (handleWrite rootfs console msg) := by
  unfold Server.Stays handleWrite
  rw [wp_ite]
  refine ⟨fun _ => alive, fun _ => ?_⟩
  rw [wp_bind, wp_get]
  cases s.fileSnapshot (msg.mrs 2) with
  | none => exact alive
  | some f =>
    dsimp only
    rw [wp_ite]
    refine ⟨fun _ => alive, fun _ => ?_⟩
    cases f.kind with
    | ramFile => exact writeRamFile_alive alive
    | pipeWrite => exact alive.always always_writePipe
    | closed | ramDir | pipeRead | console => exact alive

theorem handlePipe_alive (alive : s.Alive held) : s.Stays held (handlePipe msg) := by
  refine wp_mono handlePipe_spec ?_ fun _ _ _ => trivial
  rintro reply s' (⟨p, r, w, can, rfl, -⟩ | ⟨-, same⟩)
  · have both : SameHolds s ((s.updFile r fun _ => readEnd p).updFile w fun _ => writeEnd p) := by
      refine trans_of SameHolds (.openFile ?_ ?_ ?_) (.openFile ?_ ?_ ?_)
      all_goals simp [readEnd, writeEnd, OpenFile.new, can.apart, can.read.2, can.write.2]
    have paired : SameHolds s (s.paired p r w) := ⟨rfl, both.holds⟩
    exact paired.alive alive
  · exact (same.files.sameHolds same.fs).alive alive

theorem handleInit_alive (alive : s.Alive held) (op : VfsOp.fromRaw msg.label = some .init) :
    s.Serves held msg (handleInit rootfs console msg) := by
  have counted (reply : Reply) : heldAfter held msg reply = if validHost msg then fun _ => 0 else held := by
    simp [heldAfter, op]
  simp only [Server.Serves, counted]
  unfold handleInit
  rw [wp_ite]
  refine ⟨fun invalid => ?_, fun valid => ?_⟩
  · rw [if_neg (by simpa using invalid)]
    exact alive
  have valid : validHost msg = true := by simpa using valid
  simp only [valid, if_true]
  unfold resetAll
  simp only [wp_bind, wp_modify, wp_onFs]
  -- From here on nothing is open, and the file system is only built up.
  have blank (fs : Ramfs) (none : fs.Alive fun _ => 0) :
      Server.Alive { s with fs, files := fun _ => {}, pipes := fun _ => {} } fun _ => 0 := by
    refine none.congr fun n _ => ?_
    simp [Server.opens, Server.openCount, OpenFile.holds]
  obtain ⟨whole, first, unpacked, builds⟩ : ∃ whole first, unpack rootfs s.fs.boot = .ok whole first ∧
      s.fs.boot.Builds (InArchive rootfs) first := unpack_builds (boot_sound s.fs)
  have aliveFirst := (boot_alive s.fs).builds builds
  have step : wp (unpack rootfs) (fun _ fs => fs = first) (fun _ _ => False) s.fs.boot := by
    unfold wp
    rw [unpacked]
  refine wp_mono step ?_ fun _ _ => False.elim
  rintro done fs rfl
  rw [wp_ite]
  refine ⟨fun _ => blank _ aliveFirst, fun _ => ?_⟩
  simp only [wp_bind, wp_onFs, wp_attempt]
  refine wp_mono (ensureDir_spec aliveFirst.sound.tree) ?_ ?_
  rotate_left
  · rintro stop fs' ⟨⟨rfl, e, rfl⟩, -⟩
    exact blank _ aliveFirst
  intro tmp second ensured
  have aliveSecond := aliveFirst.builds (ensured.builds : fs.Builds (fun _ _ => True) second)
  refine wp_mono (installConsole_spec aliveSecond.sound.tree) ?_ ?_
  · intro inum third installed
    have aliveThird : third.Alive fun _ => 0 := by
      rcases installed with ⟨rfl, -⟩ | ⟨mid, dev, k, ensured, creates, rfl⟩
      · exact aliveSecond
      · exact (aliveSecond.builds (ensured.builds : second.Builds (fun _ _ => True) mid)).created creates
    simp only [wp_ite, wp_pure]
    exact ⟨fun _ => blank _ aliveThird, fun _ => blank _ aliveThird⟩
  · rintro stop fs' ⟨⟨e, rfl⟩, rfl | ⟨dev, ensured⟩⟩
    · exact blank _ aliveSecond
    · exact blank _ (aliveSecond.builds (ensured.builds : second.Builds (fun _ _ => True) fs'))

/-- Whatever is asked for, inodes live as long as they should, if the request is one that allows it. -/
theorem handleRequest_alive (alive : s.Alive held) (allowed : Allowed s held msg) :
    wp (handleRequest rootfs console msg) (fun result s' => s'.Alive (heldAfter held msg result.mrs))
      (fun _ _ => True) s := by
  unfold handleRequest
  cases op : VfsOp.fromRaw msg.label with
  | none => exact alive.refused (by simp [op]) (by decide)
  | some which =>
    have host {handler : Srv Reply} (notInit : which ≠ .init) (handled : s.Serves held msg handler) :
        wp (handleHostRequest msg handler) (fun result s' => s'.Alive (heldAfter held msg result.mrs))
          (fun _ _ => True) s :=
      handleHostRequest_served (alive.refused (by simp [op, notInit]) (by decide)) handled
    -- Most requests take no reference for the host.
    have plain {handler : Srv Reply} (other : which.forHost = false) (handled : s.Stays held handler) :
        wp (handleHostRequest msg handler) (fun result s' => s'.Alive (heldAfter held msg result.mrs))
          (fun _ _ => True) s := by
      refine host (by rintro rfl; cases other) ?_
      simpa only [Server.Serves, heldAfter_other op other] using handled
    cases which with
    | init =>
      simp only [wp_map]
      exact handleInit_alive alive op
    | procInit =>
      simp only [wp_map]
      exact handleProcInit_alive alive op
    | procFork =>
      simp only [wp_map]
      exact handleProcFork_alive alive op
    | procExit =>
      simp only [wp_map]
      exact handleProcExit_alive alive op allowed
    | chdir => exact host (by simp) (handleChdir_alive alive allowed op)
    | execOpen => exact host (by simp) (handleExecOpen_alive alive allowed op)
    | execClose => exact host (by simp) (handleExecClose_alive alive op allowed)
    | getcwd => simpa [RequestResult.mrs, heldAfter, op] using alive
    | «open» => exact plain rfl (handleOpen_alive alive allowed op)
    | close => exact plain rfl (handleClose_alive alive allowed op)
    | unlink => exact plain rfl (handleUnlink_alive alive allowed op)
    | mkdir => exact plain rfl (handleMkdir_alive alive)
    | read => exact plain rfl (handleRead_alive alive)
    | write => exact plain rfl (handleWrite_alive alive)
    | pipe => exact plain rfl (handlePipe_alive alive)
    | dup => exact plain rfl (alive.always (always_sameHolds always_handleDup))
    | fstat => exact plain rfl (alive.always (always_sameHolds always_handleFstat))
    | execRead => exact plain rfl (alive.always (always_sameHolds always_handleExecRead))
    | lseek => exact plain rfl (alive.always (always_sameHolds always_handleLseek))

end Handlers

section Runs

variable {rootfs : List UInt8} {s : Server} {held : Nat → Nat}

/-- Serve one request, and keep count of the references the host has. -/
def serveHeld (rootfs : List UInt8) (state : Server × (Nat → Nat)) (call : Call) :
    Option (Server × (Nat → Nat)) :=
  match handleRequest rootfs call.console call.msg (state.1.asked call) with
  | .ok result s' => some (s', heldAfter state.2 call.msg result.mrs)
  | .error _ _ => none

/-- The server before it has been asked for anything. -/
theorem unasked_alive : Server.Alive {} fun _ => 0 := by
  have unnamed (n) : ¬ Ramfs.Named {} n := by
    rintro ⟨i, entry, -⟩
    exact absurd entry.2 Bool.false_ne_true
  have none (n) : Server.opens {} n = 0 := by simp [Server.opens, Server.openCount, OpenFile.holds]
  refine ⟨⟨⟨fun i _ entry => ?_, fun i _ entry => ?_, fun i entry => ?_, fun i entry => ?_,
    fun i entry => ?_, fun i entry => ?_, fun i entry => ?_, fun i entry => ?_, fun i entry => ?_,
    fun used => absurd used Bool.false_ne_true⟩, fun p => ?_⟩, fun n _ => ?_⟩
  all_goals try exact absurd entry.2 Bool.false_ne_true
  · simp [Ramfs.holders, Ramfs.pagesAt]
  · constructor <;> simp [unnamed, none]

theorem serveHeld_alive
    (run : Run (serveHeld rootfs) (fun state call => Allowed (state.1.asked call) state.2 call.msg)
      ({}, fun _ => 0) (s, held)) : s.Alive held := by
  refine run.keeps (fun state => state.1.Alive state.2) unasked_alive ?_
  rintro ⟨s, held⟩ call next alive served allowed
  have found : (s.asked call).Alive held := SameHolds.alive ⟨rfl, fun _ _ => rfl⟩ alive
  have kept : wp (handleRequest rootfs call.console call.msg)
      (fun result s' => s'.Alive (heldAfter held call.msg result.mrs)) (fun _ _ => True) (s.asked call) :=
    handleRequest_alive found allowed
  unfold serveHeld at served
  dsimp only at served
  split at served
  case h_1 result s' done =>
    cases served
    exact (ok_of_wp kept done :)
  case h_2 => cases served

end Runs

/-- In every run in which no directory is removed, no reference is given back that its giver does not have
or that alone keeps an inode, and no counter is full: a slot is in use as long as an entry names it or a
reference holds it, references are those of open files, working directories and programs, directories
have as many links as they should, and every page in use belongs to an inode in use. -/
theorem inodes_live_while_held {rootfs : List UInt8} {s : Server} {held : Nat → Nat}
    (run : Run (serveHeld rootfs) (fun state call => Allowed (state.1.asked call) state.2 call.msg)
      ({}, fun _ => 0) (s, held)) :
    (∀ n < maxInodes, n ≠ rootIno →
      ((s.fs.inodes n).used = true ↔ s.fs.Named n ∨ (s.fs.inodes n).refs ≠ 0) ∧
        (s.fs.inodes n).refs = s.opens n + held n) ∧
    ((s.fs.inodes rootIno).used = true → (s.fs.inodes rootIno).refs = s.opens rootIno + held rootIno + 1) ∧
    (∀ n, s.fs.IsDir n → (s.fs.inodes n).nlink = 2 + s.fs.subdirs n) ∧
    ∀ p, s.fs.pageUsed p = true →
      ∃ n < maxInodes, (s.fs.inodes n).used = true ∧ p ∈ (s.fs.inodes n).src.pagesOf := by
  have alive := serveHeld_alive run
  refine ⟨fun n small other => ⟨(alive.lives n small).live other, ?_⟩, fun used => ?_,
    fun n isDir => (alive.lives n isDir.small).dirs isDir.used isDir.kind, fun p => alive.sound.owned.holder⟩
  · simpa [other] using (alive.lives n small).refs
  · simpa [used] using (alive.lives rootIno (by decide)).refs

section Sample

/-- Requests for the file `/a`: make and open it, close it, and remove it. -/
def openCall : Call := sampleCall 4 [oCreat + oRdwr, 2, 0x612f] []
def closeCall : Call := sampleCall 5 [0] []
def unlinkCall : Call := sampleCall 12 [2, 0, 0x612f] []

/-- The server as it is set up, then with the file open, then with the file closed again. -/
def setUp : Option (Server × (Nat → Nat)) := serveHeld [] ({}, fun _ => 0) (sampleCall 0 [] [])
theorem setUp_made : setUp.isSome = true := by decide +kernel
def withOpen : Option (Server × (Nat → Nat)) := serveHeld [] (setUp.get setUp_made) openCall
theorem withOpen_made : withOpen.isSome = true := by decide +kernel
def withClosed : Option (Server × (Nat → Nat)) := serveHeld [] (withOpen.get withOpen_made) closeCall
theorem withClosed_made : withClosed.isSome = true := by decide +kernel

/-- All three requests are allowed: no inode is found under the path, and then the file has a name. -/
theorem sample_allowed :
    Run (serveHeld []) (fun state call => Allowed (state.1.asked call) state.2 call.msg) ({}, fun _ => 0)
      (withClosed.get withClosed_made) := by
  have first : Run (serveHeld []) (fun state call => Allowed (state.1.asked call) state.2 call.msg)
      ({}, fun _ => 0) (setUp.get setUp_made) :=
    Run.start.move (sampleCall 0 [] []) (Option.some_get setUp_made).symm fun _ => trivial
  have second : Run (serveHeld []) (fun state call => Allowed (state.1.asked call) state.2 call.msg)
      ({}, fun _ => 0) (withOpen.get withOpen_made) := by
    refine first.move openCall (Option.some_get withOpen_made).symm ?_
    intro _ names n given walked
    have path : openCall.msg.path 4 (openCall.msg.mrs 3) = some [slash, 0x61] := by decide +kernel
    have absent : (((setUp.get setUp_made).1.fs.walk [slash, 0x61]).toOption).isNone = true := by decide +kernel
    cases path.symm.trans given
    have walked : (setUp.get setUp_made).1.fs.walk [slash, 0x61] = .ok n := walked
    rw [walked] at absent
    cases absent
  refine second.move closeCall (Option.some_get withClosed_made).symm ?_
  intro _ f found _ _
  have found : (withOpen.get withOpen_made).1.fileSnapshot 0 = some f := found
  have node : ((withOpen.get withOpen_made).1.fileSnapshot 0).map (·.node) = some 5 := by decide +kernel
  rw [found, Option.map_some, Option.some.injEq] at node
  rw [node]
  have entry : (withOpen.get withOpen_made).1.fs.Entry 3 := ⟨by decide +kernel, by decide +kernel⟩
  have child : ((withOpen.get withOpen_made).1.fs.dirents 3).child = 5 := by decide +kernel
  exact .inr (.inl ⟨3, entry, child⟩)

/-- A file that is made and closed lives on under its name, without a reference. -/
theorem inodes_live_while_held_closed : ∃ s held,
    Run (serveHeld []) (fun state call => Allowed (state.1.asked call) state.2 call.msg) ({}, fun _ => 0)
      (s, held) ∧ (s.fs.inodes 5).used = true ∧ s.opens 5 + held 5 = 0 := by
  have used : ((withClosed.get withClosed_made).1.fs.inodes 5).used = true := by decide +kernel
  have refs : ((withClosed.get withClosed_made).1.fs.inodes 5).refs = 0 := by decide +kernel
  have lives := (inodes_live_while_held sample_allowed).1 5 (by decide) (by decide)
  exact ⟨_, _, sample_allowed, used, lives.2.symm.trans refs⟩

/-- What is left of `/a` once nothing names or holds it: a directory that was made and removed, and a
file that was made, removed while it was open, and closed. -/
def withoutDir : Option (Server × (Nat → Nat)) :=
  moves (serveHeld []) ({}, fun _ => 0)
    [sampleCall 0 [] [], sampleCall 13 [2, 0x612f] [], sampleCall 12 [2, atRemovedir, 0x612f] []]
def withoutFile : Option (Server × (Nat → Nat)) :=
  moves (serveHeld []) ({}, fun _ => 0) [sampleCall 0 [] [], openCall, unlinkCall, closeCall]
theorem withoutDir_made : withoutDir.isSome = true := by decide +kernel
theorem withoutFile_made : withoutFile.isSome = true := by decide +kernel

theorem not_named {fs : Ramfs} {n : Nat}
    (none : ((List.range maxDirEntries).any fun i => (fs.dirents i).used && (fs.dirents i).child == n) = false) :
    ¬ fs.Named n := by
  rintro ⟨i, entry, rfl⟩
  simpa [entry.2] using List.any_eq_false.mp none i (List.mem_range.mpr entry.1)

/-- Neither slot is given back, and the root directory counts a directory that is gone. -/
theorem removed_inodes_stay :
    (∃ s held, Run (serveHeld []) (fun _ _ => True) ({}, fun _ => 0) (s, held) ∧
      (s.fs.inodes 5).used = true ∧ ¬ s.fs.Named 5 ∧ (s.fs.inodes 5).refs = 0 ∧
      s.fs.IsDir rootIno ∧ (s.fs.inodes rootIno).nlink ≠ 2 + s.fs.subdirs rootIno) ∧
    ∃ s held, Run (serveHeld []) (fun _ _ => True) ({}, fun _ => 0) (s, held) ∧
      (s.fs.inodes 5).used = true ∧ ¬ s.fs.Named 5 ∧ (s.fs.inodes 5).refs = 0 := by
  refine ⟨⟨(withoutDir.get withoutDir_made).1, (withoutDir.get withoutDir_made).2,
    Run.start.of_moves _ (Option.some_get withoutDir_made).symm, ?_, not_named ?_, ?_, ⟨?_, ?_, ?_⟩, ?_⟩,
    (withoutFile.get withoutFile_made).1, (withoutFile.get withoutFile_made).2,
    Run.start.of_moves _ (Option.some_get withoutFile_made).symm, ?_, not_named ?_, ?_⟩
  all_goals decide +kernel

end Sample

end Rel4.Vfs
