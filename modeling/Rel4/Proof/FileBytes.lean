import Rel4.Proof.FileRuns

/-! Files behave as byte arrays, as long as their writes succeed. -/

namespace Rel4.Vfs

open Lib

variable {rootfs : List UInt8} {fs fs' : Ramfs} {inum n m offset len pos : Nat} {path : List UInt8}
  {flags : Nat} {data : List UInt8} {ps old new : List (Fin maxDataPages)} {p : Fin maxDataPages}

section Reading

/-- Within one page, the positions of a file follow those of the page. -/
theorem view_chunk {chunk : Nat} (there : ps[pos / page]? = some p) (fits : chunk ≤ page - pos % page) :
    (List.range' (pos % page) chunk).map (fs.pages p) = (List.range' pos chunk).map (fs.view ps) := by
  refine List.ext_getElem (by simp) fun i first second => ?_
  simp only [List.length_map, List.length_range'] at first
  simp only [List.getElem_map, List.getElem_range', Nat.one_mul]
  have split := Nat.div_add_mod pos page
  have inPage : (pos + i) / page = pos / page := by
    apply Nat.div_eq_of_lt_le
    · rw [Nat.mul_comm]
      omega
    · rw [Nat.succ_mul, Nat.mul_comm]
      omega
  have inner : (pos + i) % page = pos % page + i := by
    have split' := Nat.div_add_mod (pos + i) page
    rw [inPage] at split'
    omega
  rw [view_some (inPage ▸ there), inner]

/-- A read of pages finds the bytes of the file, as far as it has pages. -/
theorem readPages_eq (fuel wanted : Nat) (enough : wanted ≤ fuel) :
    fs.readPages ps fuel pos wanted =
      (List.range' pos (min wanted (ps.length * page - pos))).map (fs.view ps) := by
  induction fuel generalizing pos wanted with
  | zero =>
    obtain rfl := Nat.le_zero.mp enough
    simp [Ramfs.readPages]
  | succ fuel ih =>
    unfold Ramfs.readPages
    by_cases none : wanted = 0
    · simp [none]
    rw [if_neg none]
    have split := Nat.div_add_mod pos page
    have inPage := Nat.mod_lt pos page_pos
    cases there : ps[pos / page]? with
    | none =>
      have beyond := List.getElem?_eq_none_iff.mp there
      have after : ps.length * page ≤ pos := (Nat.le_div_iff_mul_le page_pos).mp beyond
      simp [Nat.sub_eq_zero_of_le after]
    | some p =>
      have within := (List.getElem?_eq_some_iff.mp there).1
      have room : (pos / page + 1) * page ≤ ps.length * page := Nat.mul_le_mul_right page within
      rw [Nat.succ_mul, Nat.mul_comm] at room
      dsimp only
      rw [ih _ (by omega), view_chunk there (by omega), ← List.map_append, List.range'_append_1]
      congr 2
      omega

theorem inode_used (small : inum < maxInodes) (used : (fs.inodes inum).used = true) :
    fs.inode inum = some (fs.inodes inum) := if_pos ⟨small, used⟩

theorem readInode_pages (small : inum < maxInodes) (used : (fs.inodes inum).used = true)
    (src : (fs.inodes inum).src = .pages ps) :
    fs.readInode rootfs inum offset len =
      .ok ((List.range' offset (min (min len ((fs.inodes inum).size - offset))
        (ps.length * page - offset))).map (fs.view ps)) := by
  unfold Ramfs.readInode
  rw [inode_used small used]
  dsimp only
  split_ifs with past
  · simp [Nat.sub_eq_zero_of_le past]
  · rw [src]
    dsimp only
    rw [readPages_eq _ _ le_rfl]

theorem readInode_none (small : inum < maxInodes) (used : (fs.inodes inum).used = true)
    (src : (fs.inodes inum).src = .none) : fs.readInode rootfs inum offset len = .ok [] := by
  unfold Ramfs.readInode
  rw [inode_used small used]
  dsimp only
  split_ifs
  · rfl
  · rw [src]

/-- A piece of an archived file. -/
theorem take_drop_eq {base from' count : Nat} (within : from' + count ≤ len)
    (inside : base + len ≤ rootfs.length) :
    (rootfs.drop (base + from')).take count =
      (List.range' from' count).map fun q => ((rootfs.drop base).take len).getD q 0 := by
  refine List.ext_getElem ?_ fun i first second => ?_
  · simp only [List.length_take, List.length_drop, List.length_map, List.length_range']
    omega
  · simp only [List.length_map, List.length_range'] at second
    simp only [List.getElem_take, List.getElem_drop, List.getElem_map, List.getElem_range',
      List.getD_eq_getElem?_getD, Nat.one_mul]
    rw [List.getElem?_take_of_lt (by omega), List.getElem?_drop,
      List.getElem?_eq_getElem (by omega), Option.getD_some]
    congr 1
    omega

theorem readInode_embedded {base : Nat} (small : inum < maxInodes) (used : (fs.inodes inum).used = true)
    (src : (fs.inodes inum).src = .embedded base (fs.inodes inum).size)
    (inside : base + (fs.inodes inum).size ≤ rootfs.length) :
    fs.readInode rootfs inum offset len =
      .ok ((List.range' offset (min len ((fs.inodes inum).size - offset))).map fun q =>
        ((rootfs.drop base).take (fs.inodes inum).size).getD q 0) := by
  unfold Ramfs.readInode
  rw [inode_used small used]
  dsimp only
  split_ifs with past
  · simp [Nat.sub_eq_zero_of_le past]
  · rw [src]
    dsimp only
    rw [slice_ok (by omega) (by omega), ← take_drop_eq (by omega) inside]
    congr 3
    omega

/-- How far the bytes of an inode go that are there, whatever its size says. -/
def Ramfs.stored (fs : Ramfs) (n : Nat) : Nat :=
  match (fs.inodes n).src with
  | .none => 0
  | .embedded _ len => len
  | .pages ps => ps.length * page

/-- The bytes of an inode, and zeros where there are none. -/
def Ramfs.byteOf (rootfs : List UInt8) (fs : Ramfs) (n : Nat) : Nat → UInt8 :=
  match (fs.inodes n).src with
  | .none => fun _ => 0
  | .embedded base len => fun q => ((rootfs.drop base).take len).getD q 0
  | .pages ps => fs.view ps

/-- A regular file; one that is embedded lies in the archive with all its bytes. -/
structure Ramfs.Regular (rootfs : List UInt8) (fs : Ramfs) (n : Nat) : Prop where
  small : n < maxInodes
  used : (fs.inodes n).used = true
  kind : (fs.inodes n).kind = .file
  archived : ∀ base len, (fs.inodes n).src = .embedded base len →
    len = (fs.inodes n).size ∧ base + len ≤ rootfs.length

/-- A read goes as far as the size says, and no further than there are bytes. -/
theorem Ramfs.Regular.read (regular : fs.Regular rootfs n) (offset len : Nat) :
    fs.readInode rootfs n offset len = .ok ((List.range' offset
      (min len (min (fs.inodes n).size (fs.stored n) - offset))).map (fs.byteOf rootfs n)) := by
  unfold Ramfs.stored Ramfs.byteOf
  cases src : (fs.inodes n).src with
  | none => simp [readInode_none regular.small regular.used src]
  | embedded base length =>
    obtain ⟨rfl, inside⟩ := regular.archived base length src
    simp [readInode_embedded regular.small regular.used src inside]
  | pages ps =>
    rw [readInode_pages regular.small regular.used src]
    dsimp only
    congr 3
    omega

end Reading

section Histories

/-- What has been done to a file since it was made or last emptied: the bytes it started with and
the writes to it, each with its offset. -/
structure History where
  base : List UInt8
  writes : List (Nat × List UInt8)

/-- The end of what has been written, or of what was there at first. -/
def History.size (h : History) : Nat :=
  (h.writes.map fun write => write.1 + write.2.length).foldr max h.base.length

/-- The byte last written at a position, or the one that was there at first, or zero in a gap. -/
def History.byte (h : History) (q : Nat) : UInt8 :=
  match h.writes.reverse.find? fun write => decide (write.1 ≤ q ∧ q < write.1 + write.2.length) with
  | some (offset, data) => data.getD (q - offset) 0
  | none => h.base.getD q 0

def History.write (h : History) (offset : Nat) (data : List UInt8) : History :=
  { h with writes := h.writes ++ [(offset, data)] }

@[simp] theorem History.size_base (base : List UInt8) : (History.mk base []).size = base.length := rfl

theorem History.byte_write (h : History) (offset : Nat) (data : List UInt8) :
    (h.write offset data).byte = overlay h.byte offset data := by
  funext q
  unfold History.byte History.write overlay
  rw [List.reverse_append, List.reverse_singleton, List.singleton_append, List.find?_cons]
  by_cases inside : offset ≤ q ∧ q < offset + data.length
  · simp [inside]
  · simp [inside]

theorem History.size_write (h : History) (offset : Nat) (data : List UInt8) :
    (h.write offset data).size = max h.size (offset + data.length) := by
  have general (list : List Nat) (last first : Nat) :
      (list ++ [last]).foldr max first = max (list.foldr max first) last := by
    induction list with
    | nil => simp [Nat.max_comm]
    | cons a list ih => simp [ih, Nat.max_assoc]
  simp only [History.size, History.write, List.map_append, List.map_cons, List.map_nil, general]

/-- The state has the file as its history says, with all its bytes. -/
structure Ramfs.Holds (rootfs : List UInt8) (fs : Ramfs) (n : Nat) (h : History) : Prop where
  regular : fs.Regular rootfs n
  size : (fs.inodes n).size = h.size
  covered : h.size ≤ fs.stored n
  byte : fs.byteOf rootfs n = h.byte

theorem Ramfs.Holds.read {h : History} (holds : fs.Holds rootfs n h) (offset len : Nat) :
    fs.readInode rootfs n offset len =
      .ok ((List.range' offset (min len (h.size - offset))).map h.byte) := by
  rw [holds.regular.read, holds.size, Nat.min_eq_left holds.covered, holds.byte]

end Histories

section Frames

/-- The bytes of an inode are as before. -/
structure Ramfs.Keeps (fs fs' : Ramfs) (n : Nat) : Prop where
  kind : (fs'.inodes n).kind = (fs.inodes n).kind
  size : (fs'.inodes n).size = (fs.inodes n).size
  src : (fs'.inodes n).src = (fs.inodes n).src
  pages : ∀ p ∈ (fs.inodes n).src.pagesOf, fs'.pages p = fs.pages p

theorem Ramfs.Keeps.refl (fs : Ramfs) (n : Nat) : fs.Keeps fs n := ⟨rfl, rfl, rfl, fun _ _ => rfl⟩

theorem Ramfs.Keeps.trans {fs'' : Ramfs} (first : fs.Keeps fs' n) (second : fs'.Keeps fs'' n) :
    fs.Keeps fs'' n :=
  ⟨second.kind.trans first.kind, second.size.trans first.size, second.src.trans first.src,
    fun p member => (second.pages p (first.src ▸ member)).trans (first.pages p member)⟩

theorem Ramfs.Keeps.holds {h : History} (keeps : fs.Keeps fs' n) (used : (fs'.inodes n).used = true)
    (holds : fs.Holds rootfs n h) : fs'.Holds rootfs n h := by
  obtain ⟨⟨small, -, kind, archived⟩, size, covered, byte⟩ := holds
  refine ⟨⟨small, used, keeps.kind.trans kind, ?_⟩, keeps.size.trans size, ?_, ?_⟩
  · rw [keeps.src, keeps.size]
    exact archived
  · rwa [Ramfs.stored, keeps.src]
  · have pages := keeps.pages
    rw [← byte]
    unfold Ramfs.byteOf
    rw [keeps.src]
    cases src : (fs.inodes n).src with
    | none => rfl
    | embedded base len => rfl
    | pages ps =>
      rw [src] at pages
      funext q
      dsimp only
      cases there : ps[q / page]? with
      | none => rw [view_none there, view_none there]
      | some p => rw [view_some there, view_some there, pages p (List.mem_of_getElem? there)]

theorem keeps_updInode {change : Inode → Inode}
    (same : n = inum → (change (fs.inodes inum)).kind = (fs.inodes inum).kind ∧
      (change (fs.inodes inum)).size = (fs.inodes inum).size ∧
      (change (fs.inodes inum)).src = (fs.inodes inum).src) : fs.Keeps (fs.updInode inum change) n := by
  by_cases here : n = inum
  · subst here
    obtain ⟨kind, size, src⟩ := same rfl
    exact ⟨by simp [kind], by simp [size], by simp [src], fun _ _ => rfl⟩
  · exact ⟨by simp [here], by simp [here], by simp [here], fun _ _ => rfl⟩

theorem retained_keeps (fs : Ramfs) (inum n : Nat) : fs.Keeps (fs.retained inum) n := by
  unfold Ramfs.retained
  split_ifs
  · exact keeps_updInode fun _ => ⟨rfl, rfl, rfl⟩
  · exact .refl fs n

theorem Ramfs.Creates.keeps {k parent : Nat} {name : Name} {kind : FileKind}
    (creates : fs.Creates inum k parent name) (used : (fs.inodes n).used = true) :
    fs.Keeps (fs.created inum k parent name kind) n ∧ n ≠ inum := by
  have other : n ≠ inum := by
    rintro rfl
    cases creates.fresh.symm.trans used
  have pages : (fs.created inum k parent name kind).pages = fs.pages := by
    unfold Ramfs.created
    split_ifs <;> rfl
  refine ⟨⟨?_, ?_, ?_, fun _ _ => by rw [pages]⟩, other⟩ <;>
    rw [created_inodes creates.apart, if_neg other] <;> split_ifs with here <;> simp [here]

theorem Ramfs.Makes.keeps {k parent : Nat} {name : Name} {kind : FileKind}
    (makes : fs.Makes path kind inum fs' k parent name) (used : (fs.inodes n).used = true) :
    fs.Keeps fs' n ∧ (fs'.inodes n).used = true ∧ n ≠ inum := by
  have ⟨keeps, other⟩ : fs.Keeps (fs.created inum k parent name kind) n ∧ n ≠ inum :=
    makes.creates.keeps used
  rw [makes.made]
  exact ⟨keeps, (makes.creates.used_of_ne other).trans used, other⟩

theorem unlinked_keeps {i : Nat} (used : ((fs.unlinked i).inodes n).used = true) :
    fs.Keeps (fs.unlinked i) n := by
  unfold Ramfs.unlinked at used ⊢
  dsimp only at used ⊢
  split_ifs at used ⊢ with loose
  · have other : n ≠ (fs.dirents i).child := by
      rintro rfl
      simp at used
    exact ⟨by simp [other], by simp [other], by simp [other], fun _ _ => rfl⟩
  · have keeps : fs.Keeps (fs.updInode (fs.dirents i).child fun node =>
        { node with nlink := node.nlink - 1 }) n := keeps_updInode fun _ => ⟨rfl, rfl, rfl⟩
    exact ⟨keeps.kind, keeps.size, keeps.src, keeps.pages⟩

theorem truncated_keeps (other : n ≠ inum) : fs.Keeps (fs.truncated inum) n :=
  ⟨by simp [Ramfs.truncated, other], by simp [Ramfs.truncated, other],
    by simp [Ramfs.truncated, other], fun _ _ => rfl⟩

/-- A write to one file leaves the bytes of all others alone. -/
theorem Ramfs.Touches.keeps (owned : fs.Owned) (touches : fs.Touches fs' inum) (other : n ≠ inum)
    (small : n < maxInodes) (used : (fs.inodes n).used = true) : fs.Keeps fs' n := by
  rcases touches with rfl | ⟨small', used', size, new, writes⟩
  · exact .refl _ n
  · have node : fs'.inodes n = fs.inodes n := by rw [writes.inodes, Function.update_of_ne other]
    refine ⟨by rw [node], by rw [node], by rw [node], fun p member => writes.pages p fun theirs => ?_⟩
    have mine : p ∈ fs.pagesAt n := by rwa [Ramfs.pagesAt, if_pos used]
    rcases List.mem_append.mp theirs with held | taken
    · refine other (owned.alone small small' mine ?_)
      rwa [Ramfs.pagesAt, if_pos used']
    · cases ((owned.own small).used p mine).symm.trans (writes.fresh.free p taken)

/-- The operation neither writes to the inode nor empties it. -/
def Op.Spares (fs : Ramfs) (n : Nat) : Op → Prop
  | .write inum _ _ => inum ≠ n
  | .openPath path flags => ¬ (fs.walk path = .ok n ∧ flags &&& oTrunc ≠ 0)
  | _ => True

theorem Op.keeps (sound : fs.Sound) (small : n < maxInodes) (used : (fs.inodes n).used = true)
    {op : Op} (spares : op.Spares fs n) :
    wp (op.run rootfs) (fun _ fs' => (fs'.inodes n).used = true → fs.Keeps fs' n)
      (fun stop fs' => ∀ e, stop = .errno e → (fs'.inodes n).used = true → fs.Keeps fs' n) fs := by
  have refused {stop fs'} (refused : fs.Refused stop fs') :
      ∀ e, stop = .errno e → (fs'.inodes n).used = true → fs.Keeps fs' n := by
    rw [refused.1]
    exact fun _ _ _ => .refl fs n
  have ensured {path dev fs'} (ensured : fs.Ensures path dev fs') :
      fs.Keeps fs' n ∧ (fs'.inodes n).used = true := by
    rcases ensured with ⟨rfl, -⟩ | ⟨k, parent, name, makes⟩
    · exact ⟨.refl fs' n, used⟩
    · exact ⟨(makes.keeps used).1, (makes.keeps used).2.1⟩
  cases op with
  | embedFile path offset len =>
    simp only [Op.run, wp_bind, wp_pure]
    refine wp_mono (embedFile_spec sound.tree offset len) ?_ fun _ _ no => refused no.1
    rintro inum fs' (⟨rfl, -⟩ | ⟨made, k, parent, name, makes, rfl⟩) _
    · exact .refl _ n
    · obtain ⟨keeps, -, other⟩ := makes.keeps used
      exact keeps.trans (keeps_updInode fun here => absurd here other)
  | embedDir path =>
    simp only [Op.run, wp_bind, wp_pure]
    exact wp_mono (ensureDir_spec sound.tree) (fun _ _ made _ => (ensured made).1)
      fun _ _ no => refused no.1
  | installConsole =>
    simp only [Op.run, wp_bind, wp_pure]
    refine wp_mono (installConsole_spec sound.tree) ?_ ?_
    · rintro inum fs' (⟨rfl, -⟩ | ⟨mid, dev, k, made, creates, rfl⟩) _
      · exact .refl _ n
      · exact (ensured made).1.trans (creates.keeps (ensured made).2).1
    · rintro stop fs' ⟨-, rfl | ⟨dev, made⟩⟩ _ _ _
      · exact .refl _ n
      · exact (ensured made).1
  | openPath path flags =>
    simp only [Op.run, wp_bind, wp_pure]
    refine wp_mono (openPath_spec sound.tree) ?_ fun _ _ => refused
    intro answer fs' opens _
    cases opens with
    | @old inum walked _ _ =>
      refine .trans ?_ (retained_keeps _ inum n)
      unfold Ramfs.opened
      split_ifs with empties
      · refine truncated_keeps ?_
        rintro rfl
        exact spares ⟨walked, empties.1⟩
      · exact .refl fs n
    | @new inum _ _ _ made asked makes =>
      exact (makes.keeps used).1.trans (retained_keeps made inum n)
  | mkdir path =>
    simp only [Op.run, wp_bind, wp_pure]
    refine wp_mono (mkdir_spec sound.tree) ?_ fun _ _ no => refused no.1
    rintro inum fs' ⟨k, parent, name, makes⟩ _
    exact (makes.keeps used).1
  | unlink path flags =>
    simp only [Op.run]
    refine wp_mono (unlink_spec sound.tree) ?_ fun _ _ => refused
    rintro _ fs' ⟨i, unlinks, rfl⟩ still
    exact unlinked_keeps still
  | retain inum =>
    simp only [Op.run, wp_bind, wp_pure, wp_retain]
    exact fun _ => retained_keeps fs inum n
  | release inum =>
    simp only [Op.run, Vfs.release, wp_bind, wp_pure, wp_get, wp_ite, wp_set]
    exact ⟨fun _ _ => keeps_updInode fun _ => ⟨rfl, rfl, rfl⟩, fun _ _ => .refl fs n⟩
  | write inum offset data =>
    simp only [Op.run, wp_bind, wp_pure]
    exact wp_mono (writeInode_touches sound.owned inum offset data)
      (fun _ _ touches _ => touches.keeps sound.owned (Ne.symm spares) small used)
      fun _ _ touches e errno _ => (touches e errno).keeps sound.owned (Ne.symm spares) small used

end Frames

section Stories

/-- The states in which a file has a history: it is made, put in place from the archive or emptied,
and from then on all writes to it succeed. -/
inductive Story (rootfs : List UInt8) : Ramfs → Nat → History → Prop
  | created {fs fs' : Ramfs} {path : List UInt8} {flags n size : Nat} {kind : FileKind}
      (reachable : Reachable rootfs fs) (missing : ∀ n, fs.walk path ≠ .ok n)
      (opened : openPath path flags fs = .ok (n, kind, size) fs') : Story rootfs fs' n ⟨[], []⟩
  | embedded {fs fs' : Ramfs} {path : List UInt8} {offset len n : Nat}
      (reachable : Reachable rootfs fs) (missing : ∀ n, fs.walk path ≠ .ok n)
      (inside : offset + len ≤ rootfs.length) (embedded : embedFile path offset len fs = .ok n fs') :
      Story rootfs fs' n ⟨(rootfs.drop offset).take len, []⟩
  | truncated {fs fs' : Ramfs} {path : List UInt8} {flags n size : Nat}
      (reachable : Reachable rootfs fs) (empties : flags &&& oTrunc ≠ 0)
      (opened : openPath path flags fs = .ok (n, .file, size) fs') : Story rootfs fs' n ⟨[], []⟩
  | wrote {fs fs' : Ramfs} {n offset count : Nat} {data : List UInt8} {h : History}
      (story : Story rootfs fs n h) (some : data ≠ [])
      (written : writeInode rootfs n offset data fs = .ok count fs') :
      Story rootfs fs' n (h.write offset data)
  | other {fs fs' : Ramfs} {n : Nat} {op : Op} {h : History} (story : Story rootfs fs n h)
      (spares : op.Spares fs n) (stepped : opStep rootfs fs op = some fs')
      (still : (fs'.inodes n).used = true) : Story rootfs fs' n h

theorem Reachable.step {op : Op} (reachable : Reachable rootfs fs)
    (stepped : opStep rootfs fs op = some fs') : Reachable rootfs fs' :=
  have ⟨start, run⟩ := reachable
  ⟨start, run.move op stepped trivial⟩

theorem opStep_ok {op : Op} (run : op.run rootfs fs = .ok () fs') : opStep rootfs fs op = some fs' := by
  unfold opStep
  rw [run]

theorem view_nil : fs.view [] = fun _ => 0 := by
  funext q
  exact view_none (by simp)

/-- After a write that went through, the file has pages up to its end. -/
theorem Ramfs.Wrote.covers {size pos : Nat} (wrote : fs.Wrote fs' inum size pos data old new)
    (some : data ≠ []) (before : m ≤ old.length * page) :
    max m (pos + data.length) ≤ (old ++ new).length * page := by
  have some' := List.length_pos_of_ne_nil some
  have last : pos + data.length ≤ ((pos + data.length - 1) / page + 1) * page := by
    have := Nat.lt_mul_of_div_lt (Nat.lt_succ_self ((pos + data.length - 1) / page)) page_pos
    simp only [Nat.succ_eq_add_one] at this
    omega
  rw [wrote.length, reach, if_neg (by omega)]
  refine Nat.max_le.mpr ⟨before.trans (Nat.mul_le_mul_right _ (Nat.le_max_left ..)),
    last.trans (Nat.mul_le_mul_right _ (Nat.le_max_right ..))⟩

/-- What a write that went through has left, by the pages that the file had. -/
theorem Ramfs.Wrote.contents (rootfs : List UInt8) {size : Nat} (own : fs.OwnPages old) (some : data ≠ [])
    (wrote : fs.Wrote fs' n size offset data old new) :
    endOf offset data = offset + data.length ∧ max (old.length * page) (offset + data.length) ≤ fs'.stored n ∧
      fs'.byteOf rootfs n = overlay (fs.view old) offset data := by
  have few := wrote.small own some
  refine ⟨?_, ?_, ?_⟩
  · unfold endOf
    simp only [maxDataPages, page, usizeMax] at few ⊢
    omega
  · rw [Ramfs.stored, wrote.writes.src]
    exact wrote.covers some le_rfl
  · rw [Ramfs.byteOf, wrote.writes.src]
    exact wrote.view

/-- A write changes nothing of an inode but its size and where its bytes are. -/
theorem Ramfs.Regular.writes {size : Nat} (regular : fs.Regular rootfs n) (writes : fs.Writes fs' n size old new) :
    fs'.Regular rootfs n := by
  have node := writes.node
  refine ⟨regular.small, by rw [node]; exact regular.used, by rw [node]; exact regular.kind, ?_⟩
  intro base len src
  cases src.symm.trans writes.src

/-- A write that succeeds puts its bytes where it should, whatever was missing of the file before. -/
theorem Ramfs.Regular.write {count : Nat} (sound : fs.Sound) (regular : fs.Regular rootfs n) (some : data ≠ [])
    (written : writeInode rootfs n offset data fs = .ok count fs') :
    fs'.Regular rootfs n ∧ (fs'.inodes n).size = max (fs.inodes n).size (offset + data.length) ∧
      max (fs.stored n) (offset + data.length) ≤ fs'.stored n ∧
      fs'.byteOf rootfs n = overlay (fs.byteOf rootfs n) offset data := by
  have ⟨small, used, kind, archived⟩ := regular
  have own := sound.owned.own_used small used
  -- With the bytes in pages, or none at all, the write has only to be laid over them.
  have paged {ps} (here : (fs.inodes n).src = .none ∧ ps = [] ∨ (fs.inodes n).src = .pages ps) (own : fs.OwnPages ps)
      (stored : fs.stored n = ps.length * page) (byte : fs.byteOf rootfs n = fs.view ps) :
      fs'.Regular rootfs n ∧ (fs'.inodes n).size = max (fs.inodes n).size (offset + data.length) ∧
        max (fs.stored n) (offset + data.length) ≤ fs'.stored n ∧
        fs'.byteOf rootfs n = overlay (fs.byteOf rootfs n) offset data := by
    obtain ⟨-, new, wrote⟩ := ok_of_wp (writeInode_spec small used kind here own) written
    obtain ⟨sum, covers, bytes⟩ := wrote.contents rootfs own some
    refine ⟨regular.writes wrote.writes, ?_, stored ▸ covers, byte ▸ bytes⟩
    rw [wrote.writes.node, sum]
  cases src : (fs.inodes n).src with
  | none =>
    rw [src] at own
    exact paged (.inl ⟨src, rfl⟩) own (by simp [Ramfs.stored, src]) (by rw [Ramfs.byteOf, src, view_nil])
  | pages ps =>
    rw [src] at own
    exact paged (.inr src) own (by rw [Ramfs.stored, src]) (by rw [Ramfs.byteOf, src])
  | embedded base len =>
    rw [src] at own
    obtain ⟨rfl, inside⟩ := archived base len src
    obtain ⟨-, mid, old, new, copied, wrote⟩ := ok_of_wp (writeInode_embedded_spec small used kind src) written
    have length : ((rootfs.drop base).take (fs.inodes n).size).length = (fs.inodes n).size := by
      rw [List.length_take, List.length_drop]
      omega
    have held : mid.OwnPages old := copied.writes.own own
    obtain ⟨sum, covers, bytes⟩ := wrote.contents rootfs held some
    refine ⟨(regular.writes copied.writes).writes wrote.writes, ?_, ?_, ?_⟩
    · rw [wrote.writes.node, sum]
    · -- The copy has pages for the whole file.
      have whole : (fs.inodes n).size ≤ old.length * page := by
        by_cases empty : (fs.inodes n).size = 0
        · rw [empty]
          exact Nat.zero_le _
        · have := copied.covers (List.ne_nil_of_length_pos (by omega)) (Nat.zero_le ([].length * page))
          rwa [length, List.nil_append, Nat.zero_add, Nat.zero_max] at this
      rw [Ramfs.stored, src]
      dsimp only
      omega
    · -- It has the bytes of the archive, and the write goes on top of them.
      have view := copied.view
      rw [view_nil, List.nil_append] at view
      rw [bytes, view, Ramfs.byteOf, src]
      congr 1
      funext q
      unfold overlay
      split_ifs with within
      · rfl
      · dsimp only
        rw [List.getD_eq_default]
        omega

theorem Ramfs.Holds.write {h : History} {count : Nat} (sound : fs.Sound) (holds : fs.Holds rootfs n h)
    (some : data ≠ []) (written : writeInode rootfs n offset data fs = .ok count fs') :
    fs'.Holds rootfs n (h.write offset data) := by
  obtain ⟨regular, size, covers, byte⟩ := holds.regular.write sound some written
  have covered := holds.covered
  refine ⟨regular, ?_, ?_, ?_⟩
  · rw [size, holds.size, History.size_write]
  · rw [History.size_write]
    omega
  · rw [byte, holds.byte, History.byte_write]

theorem Ramfs.Makes.holds_empty {k parent : Nat} {name : Name}
    (makes : fs.Makes path .file n fs' k parent name) : fs'.Holds rootfs n ⟨[], []⟩ := by
  have node : fs'.inodes n = { used := true, kind := .file, nlink := 1, parent } := by
    rw [makes.made, created_inodes makes.creates.apart, if_pos rfl]
    rfl
  refine ⟨⟨makes.creates.small, by rw [node], by rw [node], by simp [node]⟩, by rw [node]; rfl, Nat.zero_le _, ?_⟩
  rw [Ramfs.byteOf, node]
  rfl

theorem Ramfs.Holds.retained {h : History} (holds : fs.Holds rootfs n h) (inum : Nat) :
    (fs.retained inum).Holds rootfs n h := by
  refine (retained_keeps fs inum n).holds ?_ holds
  rw [(retained_sameTree fs inum).used]
  exact holds.regular.used

/-- A file that an open has emptied. -/
theorem Ramfs.Opens.holds_empty {size : Nat} (empties : flags &&& oTrunc ≠ 0)
    (opens : fs.Opens path flags (n, .file, size) fs') : fs'.Holds rootfs n ⟨[], []⟩ := by
  generalize answer : (n, FileKind.file, size) = result at opens
  cases opens with
  | @old inum walked small used =>
    obtain ⟨rfl, kind, -⟩ : n = inum ∧ FileKind.file = (fs.inodes inum).kind ∧ True := by
      simp only [Prod.mk.injEq] at answer
      exact ⟨answer.1, answer.2.1, trivial⟩
    have node : ((fs.opened n flags).inodes n) = { fs.inodes n with size := 0, src := .pages [] } := by
      rw [Ramfs.opened, if_pos ⟨empties, kind.symm⟩]
      simp [Ramfs.truncated]
    refine Ramfs.Holds.retained ⟨⟨small, by rw [node]; exact used, by rw [node]; exact kind.symm, by simp [node]⟩,
      by rw [node]; rfl, Nat.zero_le _, ?_⟩ n
    rw [Ramfs.byteOf, node]
    exact view_nil
  | new asked makes =>
    obtain rfl := (Prod.mk.inj answer).1
    exact makes.holds_empty.retained _

/-- An operation that returns is a step, whatever its answer. -/
theorem opStep_of_run {α : Type} {prog : Fs α} {answer : α} {op : Op}
    (shape : op.run rootfs = (do let _ ← prog)) (run : prog fs = .ok answer fs') :
    opStep rootfs fs op = some fs' := by
  refine opStep_ok (run_eq_ok_of_wp ?_)
  rw [shape]
  simp only [wp_bind, wp_pure]
  unfold wp
  rw [run]
  exact ⟨trivial, rfl⟩

/-- Every file that has a history is as that says. -/
theorem Story.holds {h : History} (story : Story rootfs fs n h) :
    Reachable rootfs fs ∧ fs.Holds rootfs n h := by
  induction story with
  | @created _ fs' path flags n _ _ reachable missing opened =>
    have stepped : opStep rootfs _ (.openPath path flags) = some fs' := opStep_of_run rfl opened
    refine ⟨reachable.step stepped, ?_⟩
    cases ok_of_wp (openPath_spec reachable.sound.tree) opened with
    | old walked => exact absurd walked (missing n)
    | new asked makes => exact makes.holds_empty.retained n
  | @embedded _ fs' path offset len n reachable missing inside embedded =>
    have stepped : opStep rootfs _ (.embedFile path offset len) = some fs' := opStep_of_run rfl embedded
    refine ⟨reachable.step stepped, ?_⟩
    rcases ok_of_wp (embedFile_spec reachable.sound.tree offset len) embedded with
      ⟨-, walked⟩ | ⟨made, k, parent, name, makes, rfl⟩
    · exact absurd walked (missing n)
    · have holds : made.Holds rootfs n ⟨[], []⟩ := makes.holds_empty
      have length : ((rootfs.drop offset).take len).length = len := by
        rw [List.length_take, List.length_drop]
        omega
      have node : (made.embedded n offset len).inodes n = { made.inodes n with src := .embedded offset len, size := len } := by
        simp [Ramfs.embedded]
      refine ⟨⟨holds.regular.small, by rw [node]; exact holds.regular.used, by rw [node]; exact holds.regular.kind, ?_⟩,
        by rw [node, History.size_base, length], ?_, by rw [Ramfs.byteOf, node]; rfl⟩
      · rw [node]
        rintro _ _ ⟨⟩
        exact ⟨rfl, inside⟩
      · rw [Ramfs.stored, node, History.size_base, length]
  | @truncated _ fs' path flags n size reachable empties opened =>
    have stepped : opStep rootfs _ (.openPath path flags) = some fs' := opStep_of_run rfl opened
    refine ⟨reachable.step stepped, ?_⟩
    exact (ok_of_wp (openPath_spec reachable.sound.tree) opened).holds_empty empties
  | @wrote fs fs' n offset count data h story filled written ih =>
    have stepped : opStep rootfs _ (.write n offset data) = some fs' := opStep_of_run rfl written
    exact ⟨ih.1.step stepped, ih.2.write ih.1.sound filled written⟩
  | other story spares stepped still ih =>
    have sound := ih.1.sound
    have keeps := opStep_of_wp (Op.keeps sound ih.2.regular.small ih.2.regular.used spares) stepped still
    exact ⟨ih.1.step stepped, keeps.holds still ih.2⟩

/-- A file with a history has the size that gives it, and reads as its last bytes. -/
theorem files_are_byte_arrays {h : History} (story : Story rootfs fs n h) :
    (fs.inodes n).size = h.size ∧
      ∀ offset len, fs.readInode rootfs n offset len =
        .ok ((List.range' offset (min len (h.size - offset))).map h.byte) :=
  ⟨story.holds.2.size, story.holds.2.read⟩

/-- A new file, written to behind its end. -/
theorem files_are_byte_arrays_gap : ∃ fs, Story [] fs 2 ⟨[], [(1, [7, 8])]⟩ ∧
    (fs.inodes 2).size = 3 ∧ fs.readInode [] 2 0 9 = .ok [0, 7, 8] := by
  have opens : (openPath [slash, 0x61] oCreat).run' ({} : Ramfs).boot = some (2, .file, 0) := by
    decide +kernel
  obtain ⟨fs, opened⟩ := ok_of_run' opens
  have writes : (do
      let _ ← openPath [slash, 0x61] oCreat
      writeInode [] 2 1 [7, 8]).run' ({} : Ramfs).boot = some 2 := by decide +kernel
  obtain ⟨fs', both⟩ := ok_of_run' writes
  have written : writeInode [] 2 1 [7, 8] fs = .ok 2 fs' := by
    simpa [bind, EStateM.bind, opened] using both
  have missing (n) : ({} : Ramfs).boot.walk [slash, 0x61] ≠ .ok n := by
    have : (({} : Ramfs).boot.walk [slash, 0x61]).toOption = none := by decide +kernel
    intro walked
    rw [walked] at this
    cases this
  have story : Story [] fs' 2 ⟨[], [(1, [7, 8])]⟩ :=
    .wrote (h := ⟨[], []⟩) (.created ⟨{}, .start⟩ missing opened) (by simp) written
  exact ⟨fs', story, (files_are_byte_arrays story).1, (files_are_byte_arrays story).2 0 9⟩

end Stories

end Rel4.Vfs
