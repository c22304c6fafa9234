import Rel4.Proof.FileBytes

/-! When a write that fails leaves a file as it was. -/

namespace Rel4.Vfs

open Lib

variable {rootfs : List UInt8} {fs fs' : Ramfs} {inum n offset len done size : Nat} {data : List UInt8}
  {old new ps : List (Fin maxDataPages)}

section Placed

/-- The bytes of every file are where its inode says: none for a new file, and a part of the archive
for one that is embedded. -/
structure Ramfs.Placed (rootfs : List UInt8) (fs : Ramfs) : Prop where
  none : ∀ n, (fs.inodes n).used = true → (fs.inodes n).src = .none → (fs.inodes n).size = 0
  embedded : ∀ n base len, (fs.inodes n).used = true → (fs.inodes n).src = .embedded base len →
    (fs.inodes n).kind = .file ∧ len = (fs.inodes n).size ∧ base + len ≤ rootfs.length

/-- An inode in use is as before, as far as its bytes go. -/
def Ramfs.Same (fs fs' : Ramfs) (n : Nat) : Prop :=
  (fs'.inodes n).used = true →
    (fs.inodes n).used = true ∧ (fs'.inodes n).kind = (fs.inodes n).kind ∧
      (fs'.inodes n).size = (fs.inodes n).size ∧ (fs'.inodes n).src = (fs.inodes n).src

theorem Ramfs.Same.of_eq (same : fs'.inodes n = fs.inodes n) : fs.Same fs' n := fun used =>
  ⟨same ▸ used, by rw [same], by rw [same], by rw [same]⟩

/-- Only the inode that was changed has to be looked at. -/
theorem Ramfs.Placed.update (placed : fs.Placed rootfs) (inum : Nat)
    (others : ∀ n, n ≠ inum → fs.Same fs' n)
    (here : fs.Same fs' inum ∨ (∃ ps, (fs'.inodes inum).src = .pages ps) ∨
      (fs'.inodes inum).src = .none ∧ (fs'.inodes inum).size = 0 ∨
      ∃ base, (fs'.inodes inum).src = .embedded base (fs'.inodes inum).size ∧
        (fs'.inodes inum).kind = .file ∧ base + (fs'.inodes inum).size ≤ rootfs.length) :
    fs'.Placed rootfs := by
  have cases' (n) : fs.Same fs' n ∨ n = inum := by
    by_cases same : n = inum
    · exact .inr same
    · exact .inl (others n same)
  constructor
  · intro n used src
    have old (same : fs.Same fs' n) : (fs'.inodes n).size = 0 := by
      obtain ⟨used', -, size', src'⟩ := same used
      rw [size']
      exact placed.none n used' (src'.symm.trans src)
    rcases cases' n with same | rfl
    · exact old same
    · rcases here with same | ⟨ps, other⟩ | ⟨-, size⟩ | ⟨base, other, -⟩
      · exact old same
      · cases src.symm.trans other
      · exact size
      · cases src.symm.trans other
  · intro n base len used src
    have old (same : fs.Same fs' n) : (fs'.inodes n).kind = .file ∧ len = (fs'.inodes n).size ∧
        base + len ≤ rootfs.length := by
      obtain ⟨used', kind', size', src'⟩ := same used
      rw [size', kind']
      exact placed.embedded n base len used' (src'.symm.trans src)
    rcases cases' n with same | rfl
    · exact old same
    · rcases here with same | ⟨ps, other⟩ | ⟨other, -⟩ | ⟨base', other, kind, inside⟩
      · exact old same
      · cases src.symm.trans other
      · cases src.symm.trans other
      · cases src.symm.trans other
        exact ⟨kind, rfl, inside⟩

theorem Ramfs.Placed.change (placed : fs.Placed rootfs) (change : fs.Change (InArchive rootfs) fs') :
    fs'.Placed rootfs := by
  cases change with
  | counted inum refs =>
    refine placed.update inum (fun n other => .of_eq (by simp [other])) (.inl fun used => ?_)
    simpa using used
  | @created inum k parent name kind creates =>
    refine placed.update inum (fun n other => ?_) (.inr (.inr (.inl ?_)))
    · intro used
      rw [created_inodes creates.apart, if_neg other] at used ⊢
      split_ifs at used ⊢ with here
      · rw [here.1]
        exact ⟨used, rfl, rfl, rfl⟩
      · exact ⟨used, rfl, rfl, rfl⟩
    · rw [created_inodes creates.apart, if_pos rfl]
      exact ⟨rfl, rfl⟩
  | @embedded inum offset len file empty fits =>
    refine placed.update inum (fun n other => .of_eq (by simp [Ramfs.embedded, other]))
      (.inr (.inr (.inr ⟨offset, ?_⟩)))
    simp only [Ramfs.embedded, updInode_inodes, if_true]
    exact ⟨trivial, file, fits⟩
  | @unlinked path flags i unlinks =>
    unfold Ramfs.unlinked
    dsimp only
    split_ifs with loose
    · refine placed.update (fs.dirents i).child (fun n other => .of_eq (by simp [other]))
        (.inr (.inr (.inl ?_)))
      simp
    · refine placed.update (fs.dirents i).child (fun n other => .of_eq (by simp [other]))
        (.inl fun used => ?_)
      simpa using used
  | @truncated inum small used =>
    refine placed.update inum (fun n other => .of_eq (by simp [Ramfs.truncated, other]))
      (.inr (.inl ⟨[], ?_⟩))
    simp [Ramfs.truncated]
  | @wrote _ inum size new small used writes =>
    refine placed.update inum (fun n other => .of_eq ?_) (.inr (.inl ⟨_, writes.src⟩))
    rw [writes.inodes, Function.update_of_ne other]

theorem Ramfs.Placed.moves (placed : fs.Placed rootfs) (moves : fs.Moves (InArchive rootfs) fs') :
    fs'.Placed rootfs := by
  induction moves with
  | refl => exact placed
  | tail _ change ih => exact ih.change change

theorem boot_placed (fs : Ramfs) : fs.boot.Placed rootfs := by
  have src (n) : (fs.boot.inodes n).src = .none ∧ (fs.boot.inodes n).size = 0 := by
    simp only [Ramfs.boot, Ramfs.initRoot, updInode_inodes]
    split_ifs <;> exact ⟨rfl, rfl⟩
  refine ⟨fun n _ _ => (src n).2, fun n base len _ embedded => ?_⟩
  rw [(src n).1] at embedded
  cases embedded

theorem Unpacked.sound (unpacked : Unpacked rootfs fs) : fs.Sound ∧ fs.Placed rootfs := by
  obtain ⟨start, run⟩ := unpacked
  refine run.keeps (fun fs => fs.Sound ∧ fs.Placed rootfs) ⟨boot_sound start, boot_placed start⟩ ?_
  intro fs op fs' ⟨sound, placed⟩ step fits
  exact ⟨opStep_sound sound step, placed.moves (opStep_of_wp (op.moves sound fits) step)⟩

end Placed

section Counting

/-- How many pages nobody has. -/
def Ramfs.freeCount (fs : Ramfs) : Nat := (List.finRange maxDataPages).countP fun p => !fs.pageUsed p

/-- The pages nobody has. -/
def Ramfs.freeList (fs : Ramfs) : List (Fin maxDataPages) :=
  (List.finRange maxDataPages).filter fun p => !fs.pageUsed p

theorem freeCount_eq (fs : Ramfs) : fs.freeCount = fs.freeList.length := List.countP_eq_length_filter

theorem freeList_fresh (fs : Ramfs) : fs.FreshPages fs.freeList :=
  ⟨(List.nodup_finRange _).filter _, fun p member => by simpa using (List.mem_filter.mp member).2⟩

theorem Ramfs.FreshPages.length_le (fresh : fs.FreshPages new) : new.length ≤ fs.freeCount := by
  rw [freeCount_eq]
  refine (fresh.nodup.subperm fun p member => ?_).length_le
  exact List.mem_filter.mpr ⟨List.mem_finRange p, by simp [fresh.free p member]⟩

/-- If all pages are in use afterwards, all that were free have been taken. -/
theorem Ramfs.Writes.took_all (writes : fs.Writes fs' inum size old new)
    (full : ∀ p, fs'.pageUsed p = true) : new.length = fs.freeCount := by
  refine le_antisymm writes.fresh.length_le ?_
  rw [freeCount_eq]
  refine ((freeList_fresh fs).nodup.subperm fun p member => ?_).length_le
  have used := full p
  rw [writes.pageUsed] at used
  simpa [(freeList_fresh fs).free p member] using used

/-- A file's pages and the free ones are different pages. -/
theorem Ramfs.OwnPages.room (own : fs.OwnPages old) : old.length + fs.freeCount ≤ maxDataPages := by
  have nodup : (old ++ fs.freeList).Nodup :=
    List.nodup_append.mpr ⟨own.nodup, (freeList_fresh fs).nodup, by
      rintro p mine q theirs rfl
      exact own.apart (freeList_fresh fs) p mine theirs⟩
  have := nodup.length_le_card
  rwa [Fintype.card_fin, List.length_append, ← freeCount_eq] at this

end Counting

section Fits

/-- There are pages for all of the data, in a file that has so many already. -/
def Ramfs.RoomFor (fs : Ramfs) (pages offset : Nat) (data : List UInt8) : Prop :=
  data = [] ∨ (offset + data.length - 1) / page < pages + fs.freeCount

theorem Ramfs.Wrote.roomFor (wrote : fs.Wrote fs' inum size offset data old new) :
    fs.RoomFor old.length offset data := by
  by_cases empty : data = []
  · exact .inl empty
  · have filled := List.length_pos_of_ne_nil empty
    have length := wrote.length
    have few := wrote.writes.fresh.length_le
    rw [reach, if_neg (by omega), List.length_append] at length
    exact .inr (by omega)

theorem Ramfs.Jammed.not_roomFor (own : fs.OwnPages old)
    (jammed : fs.Jammed fs' inum size offset data old new done) : ¬ fs.RoomFor old.length offset data := by
  have few := jammed.few
  have reached : (offset + done) / page ≤ (offset + data.length - 1) / page :=
    Nat.div_le_div_right (by omega)
  rintro (rfl | room)
  · simp at few
  rcases jammed.stuck.full with high | ⟨full, short⟩
  · have := own.room
    have := pages_few
    omega
  · have := jammed.writes.took_all full
    rw [List.length_append] at short
    omega

/-- What is written before a write gets stuck lies in the pages the file has. -/
theorem Ramfs.Jammed.inside {j : Nat} (own : fs.OwnPages old)
    (jammed : fs.Jammed fs' inum size offset data old new done) :
    j < done ↔ offset + j < (old ++ new).length * page := by
  have missing := (Nat.le_div_iff_mul_le page_pos).mp (jammed.missing own)
  constructor
  · intro written
    have stored := (Nat.div_lt_iff_lt_mul page_pos).mp (jammed.stuck.stored (by omega))
    omega
  · intro within
    omega

end Fits

section Unchanged

/-- A file has its size and reads as before. -/
def Ramfs.SameFile (rootfs : List UInt8) (fs fs' : Ramfs) (inum : Nat) : Prop :=
  (fs'.inodes inum).size = (fs.inodes inum).size ∧
    ∀ offset len, fs'.readInode rootfs inum offset len = fs.readInode rootfs inum offset len

/-- A single byte read from pages. -/
theorem readInode_one (small : inum < maxInodes) (used : (fs.inodes inum).used = true)
    (src : (fs.inodes inum).src = .pages ps) (within : offset < (fs.inodes inum).size) :
    fs.readInode rootfs inum offset 1 =
      if offset < ps.length * page then .ok [fs.view ps offset] else .ok [] := by
  rw [readInode_pages small used src]
  split_ifs with covered
  · rw [show min (min 1 ((fs.inodes inum).size - offset)) (ps.length * page - offset) = 1 by omega]
    rfl
  · rw [show min (min 1 ((fs.inodes inum).size - offset)) (ps.length * page - offset) = 0 by omega]
    rfl

/-- Positions that data covers, in pages there can be, lie before the end of the data. -/
theorem lt_endOf {q : Nat} (before : q < offset + data.length) (own : q ≤ maxDataPages * page) :
    q < endOf offset data := by
  unfold endOf
  simp only [maxDataPages, page, usizeMax] at own ⊢
  omega

/-- A write that got stuck leaves the file as it was only if it set no new size, took no page and
wrote the bytes that were there. -/
theorem Ramfs.Jammed.sameFile (own : fs.OwnPages old) (small : inum < maxInodes)
    (used : (fs.inodes inum).used = true) (src : (fs.inodes inum).src = .pages old)
    (jammed : fs.Jammed fs' inum (max (fs.inodes inum).size (endOf offset data)) offset data old new done) :
    fs.SameFile rootfs fs' inum ↔
      endOf offset data ≤ (fs.inodes inum).size ∧ new = [] ∧
        ∀ j < done, fs.view old (offset + j) = data.getD j 0 := by
  have node := jammed.writes.node
  have used' : (fs'.inodes inum).used = true := by
    rw [node]
    exact used
  have size' : (fs'.inodes inum).size = max (fs.inodes inum).size (endOf offset data) := by rw [node]
  have src' := jammed.writes.src
  have few := jammed.few
  have missing := (Nat.le_div_iff_mul_le page_pos).mp (jammed.missing own)
  have ownAll := Nat.mul_le_mul_right page (jammed.writes.own own).length
  constructor
  · rintro ⟨sameSize, sameBytes⟩
    have fits : endOf offset data ≤ (fs.inodes inum).size := by
      rw [size'] at sameSize
      omega
    have none : new = [] := by
      by_contra some
      -- The first new page lies before the end of the file, where nothing could be read before.
      have more := List.length_pos_of_ne_nil some
      rw [List.length_append, Nat.add_mul] at missing ownAll
      have first : old.length * page < endOf offset data := by
        refine lt_endOf ?_ (by omega)
        have := Nat.mul_le_mul_right page more
        have := page_pos
        omega
      have read := sameBytes (old.length * page) 1
      rw [readInode_one small used src (by omega), readInode_one small used' src' (by omega),
        if_neg (lt_irrefl _), if_pos] at read
      · simp at read
      · rw [List.length_append, Nat.add_mul]
        have := Nat.mul_le_mul_right page more
        have := page_pos
        omega
    refine ⟨fits, none, fun j written => ?_⟩
    have within := (jammed.inside own).mp written
    have before : offset + j < endOf offset data := lt_endOf (by omega) (by omega)
    have read := sameBytes (offset + j) 1
    subst none
    rw [readInode_one small used' src' (by omega), if_pos within] at read
    rw [List.append_nil] at within
    rw [readInode_one small used src (by omega), if_pos within, jammed.view] at read
    simp only [overlay, List.length_take, Except.ok.injEq, List.cons.injEq, and_true] at read
    rw [if_pos ⟨by omega, by omega⟩] at read
    rw [← read, Nat.add_sub_cancel_left, List.getD_eq_getElem?_getD, List.getD_eq_getElem?_getD,
      List.getElem?_take_of_lt written]
  · rintro ⟨fits, rfl, same⟩
    have size : (fs'.inodes inum).size = (fs.inodes inum).size := by
      rw [size']
      omega
    refine ⟨size, fun from' len => ?_⟩
    rw [List.append_nil] at src'
    have view : fs'.view old = fs.view old := by
      have view := jammed.view
      rw [List.append_nil] at view
      rw [view]
      funext q
      unfold overlay
      split_ifs with inside
      · rw [List.length_take] at inside
        have := same (q - offset) (by omega)
        rw [show offset + (q - offset) = q by omega] at this
        rw [this, List.getD_eq_getElem?_getD, List.getD_eq_getElem?_getD,
          List.getElem?_take_of_lt (by omega)]
      · rfl
    rw [readInode_pages small used src, readInode_pages small used' src', size, view]

/-- A write is safe: it goes to no file, or there is room for it, or it can only get stuck before it
has changed anything that can be read. -/
def Ramfs.WriteSafe (fs : Ramfs) (inum offset : Nat) (data : List UInt8) : Prop :=
  fs.inode inum = none ∨ (fs.inodes inum).kind ≠ .file ∨
    match (fs.inodes inum).src with
    | .none => fs.RoomFor 0 offset data
    | .embedded _ len => (len = 0 ∨ (len - 1) / page < fs.freeCount) ∧ fs.RoomFor 0 offset data
    | .pages ps => fs.RoomFor ps.length offset data ∨
        endOf offset data ≤ (fs.inodes inum).size ∧ (maxFilePages ≤ offset / page ∨ fs.freeCount = 0) ∧
          ∀ j < data.length, offset + j < ps.length * page → fs.view ps (offset + j) = data.getD j 0

/-- A write takes no page exactly if it may not or cannot take one. -/
theorem Ramfs.Jammed.took_none (own : fs.OwnPages old)
    (jammed : fs.Jammed fs' inum size offset data old new done) :
    new = [] ↔ maxFilePages ≤ offset / page ∨ fs.freeCount = 0 := by
  constructor
  · rintro rfl
    by_contra both
    rw [not_or] at both
    rcases jammed.stuck.full with high | ⟨full, -⟩
    · -- The write would have stored bytes in all pages below the limit.
      have started : 0 < done := by
        by_contra nothing
        exact both.1 (by rwa [Nat.eq_zero_of_not_pos nothing, Nat.add_zero] at high)
      have stored := jammed.stuck.stored started
      have length := (jammed.writes.own own).length
      have far : maxFilePages * page ≤ offset + done := (Nat.le_div_iff_mul_le page_pos).mp high
      have near := (Nat.div_lt_iff_lt_mul page_pos).mp (stored.trans_le length)
      simp only [maxFilePages, maxDataPages, page] at far near
      omega
    · exact both.2 (jammed.writes.took_all full).symm
  · rintro (high | none)
    · exact jammed.stuck.high high
    · exact List.length_eq_zero_iff.mp (Nat.le_zero.mp (none ▸ jammed.writes.fresh.length_le))

/-- The bytes of a write are at its end at least. -/
theorem endOf_pos (offset : Nat) (filled : data ≠ []) : 0 < endOf offset data := by
  have := List.length_pos_of_ne_nil filled
  unfold endOf usizeMax
  omega

/-- A write that failed has one outcome. -/
theorem failed_once {e : Errno} :
    (∀ e' fs'', (EStateM.Result.error (.errno e) fs' : EStateM.Result Stop Ramfs Nat) =
      .error (.errno e') fs'' → fs.SameFile rootfs fs'' inum) ↔ fs.SameFile rootfs fs' inum := by
  refine ⟨fun all => all _ _ rfl, fun one e' fs'' same => ?_⟩
  cases same
  exact one

/-- Pages that are taken are no longer free. -/
theorem Ramfs.Writes.freeCount (writes : fs.Writes fs' inum size old new) :
    new.length + fs'.freeCount = fs.freeCount := by
  rw [freeCount_eq, freeCount_eq, ← List.length_append]
  refine List.Perm.length_eq ((List.perm_ext_iff_of_nodup ?_ (freeList_fresh fs).nodup).mpr fun p => ?_)
  · refine List.nodup_append.mpr ⟨writes.fresh.nodup, (freeList_fresh fs').nodup, ?_⟩
    rintro p mine q theirs rfl
    have free := (freeList_fresh fs').free p theirs
    rw [writes.pageUsed] at free
    simp [mine] at free
  · simp only [Ramfs.freeList, List.mem_append, List.mem_filter, List.mem_finRange, true_and,
      writes.pageUsed]
    by_cases mine : p ∈ new
    · simp [mine, writes.fresh.free p mine]
    · simp [mine]

section File

variable (placed : fs.Placed rootfs) (small : inum < maxInodes) (used : (fs.inodes inum).used = true)
include small used

theorem write_safe_pages (sound : fs.Sound) (file : (fs.inodes inum).kind = .file) (src : (fs.inodes inum).src = .pages old) :
    (∀ e fs', writeInode rootfs inum offset data fs = .error (.errno e) fs' →
      fs.SameFile rootfs fs' inum) ↔ fs.WriteSafe inum offset data := by
  have own : fs.OwnPages old := by
    have := sound.owned.own_used small used
    rwa [src] at this
  have spec : wp (writeInode rootfs inum offset data) _ _ fs :=
    writeInode_spec small used file (.inr src) own
  have safe : fs.WriteSafe inum offset data ↔ fs.RoomFor old.length offset data ∨
      endOf offset data ≤ (fs.inodes inum).size ∧ (maxFilePages ≤ offset / page ∨ fs.freeCount = 0) ∧
        ∀ j < data.length, offset + j < old.length * page →
          fs.view old (offset + j) = data.getD j 0 := by
    simp [Ramfs.WriteSafe, inode_used small used, file, src]
  rw [safe]
  cases run : writeInode rootfs inum offset data fs with
  | ok count fs' =>
    obtain ⟨-, new, wrote⟩ := ok_of_wp spec run
    exact iff_of_true (fun e fs'' no => by cases no) (.inl wrote.roomFor)
  | error stop fs' =>
    obtain ⟨rfl, new, done, jammed⟩ := error_of_wp spec run
    rw [failed_once, jammed.sameFile own small used src, jammed.took_none own,
      or_iff_right (jammed.not_roomFor own)]
    refine and_congr_right fun _ => and_congr_right fun taken => ?_
    have none : new = [] := (jammed.took_none own).mpr taken
    have inside {j : Nat} : j < done ↔ offset + j < old.length * page := by
      have := jammed.inside (j := j) own
      rwa [none, List.append_nil] at this
    have few := jammed.few
    exact ⟨fun bytes j _ within => bytes j (inside.mpr within),
      fun bytes j before => bytes j (by omega) (inside.mp before)⟩

include placed

theorem write_safe_none (file : (fs.inodes inum).kind = .file) (src : (fs.inodes inum).src = .none) :
    (∀ e fs', writeInode rootfs inum offset data fs = .error (.errno e) fs' →
      fs.SameFile rootfs fs' inum) ↔ fs.WriteSafe inum offset data := by
  have own : fs.OwnPages [] := ⟨List.nodup_nil, by simp⟩
  have spec : wp (writeInode rootfs inum offset data) _ _ fs :=
    writeInode_spec small used file (.inl ⟨src, rfl⟩) own
  have safe : fs.WriteSafe inum offset data ↔ fs.RoomFor 0 offset data := by
    simp [Ramfs.WriteSafe, inode_used small used, file, src]
  rw [safe]
  cases run : writeInode rootfs inum offset data fs with
  | ok count fs' =>
    obtain ⟨-, new, wrote⟩ := ok_of_wp spec run
    exact iff_of_true (fun e fs'' no => by cases no) wrote.roomFor
  | error stop fs' =>
    obtain ⟨rfl, new, done, jammed⟩ := error_of_wp spec run
    rw [failed_once]
    refine iff_of_false (fun same => ?_) (jammed.not_roomFor own)
    -- The file was empty, and now it has a size.
    have filled : data ≠ [] := List.ne_nil_of_length_pos (by have := jammed.few; omega)
    have size := same.1
    rw [jammed.writes.node, placed.none inum used src] at size
    have := endOf_pos offset filled
    simp at size
    omega

theorem write_safe_embedded {base : Nat} (src : (fs.inodes inum).src = .embedded base len) :
    (∀ e fs', writeInode rootfs inum offset data fs = .error (.errno e) fs' →
      fs.SameFile rootfs fs' inum) ↔ fs.WriteSafe inum offset data := by
  obtain ⟨file, length, inside⟩ := placed.embedded inum base len used src
  have own : fs.OwnPages [] := ⟨List.nodup_nil, by simp⟩
  have spec : wp (writeInode rootfs inum offset data) _ _ fs :=
    writeInode_embedded_spec small used file src
  have safe : fs.WriteSafe inum offset data ↔
      (len = 0 ∨ (len - 1) / page < fs.freeCount) ∧ fs.RoomFor 0 offset data := by
    simp [Ramfs.WriteSafe, inode_used small used, file, src]
  have taken : ((rootfs.drop base).take len).length = len := by
    rw [List.length_take, List.length_drop]
    omega
  rw [safe]
  cases run : writeInode rootfs inum offset data fs with
  | ok count fs' =>
    obtain ⟨-, mid, old, new, copied, wrote⟩ := ok_of_wp spec run
    refine iff_of_true (fun e fs'' no => by cases no) ⟨?_, ?_⟩
    · rcases copied.roomFor with empty | room
      · rw [empty] at taken
        exact .inl taken.symm
      · rw [taken, List.length_nil, Nat.zero_add, Nat.zero_add] at room
        exact .inr room
    · have count := copied.writes.freeCount
      rcases wrote.roomFor with empty | room
      · exact .inl empty
      · exact .inr (by omega)
  | error stop fs' =>
    rcases error_of_wp spec run with ⟨outside, -⟩ | ⟨rfl, ⟨new, size', q, before, short, full, writes⟩ |
      ⟨mid, old, new, done, copied, jammed⟩⟩
    · omega
    · -- The copy got stuck at a byte that could be read from the archive.
      rw [failed_once]
      refine iff_of_false (fun same => ?_) fun ⟨room, _⟩ => ?_
      · have node := writes.node
        have size := same.1
        have read := same.2 q 1
        rw [readInode_one small (by rw [node]; exact used) writes.src (by omega),
          readInode_embedded small used (by rw [← length]; exact src) (by omega)] at read
        rw [if_neg, show min 1 ((fs.inodes inum).size - q) = 1 by omega] at read
        · simp at read
        · have := (Nat.le_div_iff_mul_le page_pos).mp short
          rw [List.nil_append]
          omega
      · have last : q / page ≤ (len - 1) / page := Nat.div_le_div_right (by omega)
        rcases full with high | full
        · have := own.room
          have := pages_few
          omega
        · have := writes.took_all full
          omega
    · rw [failed_once]
      have ownMid : mid.OwnPages old := copied.writes.own own
      have stuck := jammed.not_roomFor ownMid
      have count := copied.writes.freeCount
      have filled : 0 < data.length := by
        have := jammed.few
        omega
      refine iff_of_false (fun same => ?_) fun ⟨_, room⟩ => ?_
      · -- If the size is right, the whole write lies in pages that the copy has taken.
        have size := same.1
        rw [jammed.writes.node] at size
        simp only at size
        by_cases empty : len = 0
        · have := endOf_pos offset (List.ne_nil_of_length_pos filled)
          omega
        · have few := copied.small own (List.ne_nil_of_length_pos (by omega))
          have reached := copied.length
          rw [taken, List.nil_append, reach, if_neg empty] at reached
          have within : offset + data.length ≤ len := by
            unfold endOf at size
            rw [taken] at few
            simp only [maxDataPages, page, usizeMax] at few size
            omega
          have last : (offset + data.length - 1) / page ≤ (0 + len - 1) / page :=
            Nat.div_le_div_right (by omega)
          exact stuck (.inr (by simp only [List.length_nil] at reached; omega))
      · rcases room with rfl | room
        · simp at filled
        · exact stuck (.inr (by omega))

theorem write_safe_other (other : (fs.inodes inum).kind ≠ .file) :
    (∀ e fs', writeInode rootfs inum offset data fs = .error (.errno e) fs' →
      fs.SameFile rootfs fs' inum) ↔ fs.WriteSafe inum offset data := by
  refine iff_of_true (fun e fs' run => ?_) (.inr (.inl other))
  rcases error_of_wp (writeInode_touches_other small used other) run e rfl with
    rfl | ⟨notPages, size, same, writes⟩
  · exact ⟨rfl, fun _ _ => rfl⟩
  · have node := writes.node
    cases src : (fs.inodes inum).src with
    | pages ps => exact absurd src (notPages ps)
    | embedded base len => exact absurd (placed.embedded inum base len used src).1 other
    | none =>
      refine ⟨by rw [node]; exact same src, fun offset len => ?_⟩
      rw [readInode_none small used src,
        readInode_pages small (by rw [node]; exact used) writes.src]
      simp

end File

/-- A write that fails leaves the file as it was exactly if it was safe. -/
theorem failed_write_keeps_file_iff (unpacked : Unpacked rootfs fs) (inum offset : Nat)
    (data : List UInt8) :
    (∀ e fs', writeInode rootfs inum offset data fs = .error (.errno e) fs' →
      fs.SameFile rootfs fs' inum) ↔ fs.WriteSafe inum offset data := by
  obtain ⟨sound, placed⟩ := unpacked.sound
  cases found : fs.inode inum with
  | none =>
    refine iff_of_true (fun e fs' run => ?_) (.inl found)
    have same : e = .enoent ∧ fs' = fs := by
      have failed : wp (writeInode rootfs inum offset data) (fun _ _ => False)
          (fun stop fs' => stop = .errno .enoent ∧ fs' = fs) fs := by
        rw [writeInode_unused found]
        exact ⟨rfl, rfl⟩
      obtain ⟨stop, same⟩ := error_of_wp failed run
      exact ⟨by cases stop; rfl, same⟩
    rw [same.2]
    exact ⟨rfl, fun _ _ => rfl⟩
  | some node =>
    obtain ⟨small, used, rfl⟩ := inode_some found
    by_cases file : (fs.inodes inum).kind = .file
    · cases src : (fs.inodes inum).src with
      | none => exact write_safe_none placed small used file src
      | embedded base len => exact write_safe_embedded placed small used src
      | pages ps => exact write_safe_pages small used sound file src
    · exact write_safe_other placed small used file

/-- An empty file `/a` and nothing else. -/
def newFile : Option Ramfs := opStep [] ({} : Ramfs).boot (.openPath [slash, 0x61] oCreat)

theorem newFile_made : newFile.isSome = true := by decide +kernel

theorem newFile_unpacked : Unpacked [] (newFile.get newFile_made) :=
  ⟨{}, .move .start _ (Option.some_get newFile_made).symm trivial⟩

/-- The file after a byte far behind its end could not be written. -/
def stretchedFile : Option Ramfs := newFile.bind (opStep [] · (.write 2 (2 ^ 20) [1]))

theorem stretchedFile_made : stretchedFile.isSome = true := by decide +kernel

theorem stretchedFile_unpacked : Unpacked [] (stretchedFile.get stretchedFile_made) := by
  obtain ⟨fs, made, written⟩ := Option.bind_eq_some_iff.mp (Option.some_get stretchedFile_made).symm
  exact ⟨{}, .move (.move .start _ made trivial) _ written trivial⟩

/-- There is room for one byte at the beginning of the new file. The byte behind the end fails once
more, and this time the file already has the size that this leaves. -/
theorem failed_write_keeps_file_first :
    (∃ fs, Unpacked [] fs ∧
      ∀ e fs', writeInode [] 2 0 [1] fs = .error (.errno e) fs' → fs.SameFile [] fs' 2) ∧
    ∃ fs fs', Unpacked [] fs ∧ writeInode [] 2 (2 ^ 20) [1] fs = .error (.errno .enospc) fs' ∧
      fs.SameFile [] fs' 2 := by
  constructor
  · have src : ((newFile.get newFile_made).inodes 2).src = .none := by decide +kernel
    have free : 0 < (newFile.get newFile_made).freeCount := by decide +kernel
    refine ⟨_, newFile_unpacked,
      (failed_write_keeps_file_iff newFile_unpacked 2 0 [1]).mpr (.inr (.inr ?_))⟩
    rw [src]
    exact .inr (by simpa using free)
  · have src : ((stretchedFile.get stretchedFile_made).inodes 2).src = .pages [] := by
      decide +kernel
    have size : ((stretchedFile.get stretchedFile_made).inodes 2).size = 2 ^ 20 + 1 := by
      decide +kernel
    have fails : wp (writeInode [] 2 (2 ^ 20) [1]) (fun _ _ => False)
        (fun stop _ => stop = .errno .enospc) (stretchedFile.get stretchedFile_made) := by
      decide +kernel
    obtain ⟨stop, fs', run, rfl⟩ := exists_error_of_wp fails
    refine ⟨_, fs', stretchedFile_unpacked, run,
      (failed_write_keeps_file_iff stretchedFile_unpacked 2 _ _).mpr (.inr (.inr ?_)) _ _ run⟩
    rw [src]
    -- No page of the file is behind its last one, and none may be added there.
    exact .inr ⟨by rw [size]; decide, .inl (by decide), fun j _ inside => by simp at inside⟩

/-- A byte far behind the end of a new file cannot be written, but the file is as long as if it were. -/
theorem failed_write_sets_size : ∃ fs fs', Unpacked [] fs ∧
    writeInode [] 2 (2 ^ 20) [1] fs = .error (.errno .enospc) fs' ∧
    (fs.inodes 2).size = 0 ∧ (fs'.inodes 2).size = 2 ^ 20 + 1 := by
  have size : ((newFile.get newFile_made).inodes 2).size = 0 := by decide +kernel
  have fails : wp (writeInode [] 2 (2 ^ 20) [1]) (fun _ _ => False)
      (fun stop fs' => stop = .errno .enospc ∧ (fs'.inodes 2).size = 2 ^ 20 + 1)
      (newFile.get newFile_made) := by decide +kernel
  obtain ⟨stop, fs', run, rfl, sized⟩ := exists_error_of_wp fails
  exact ⟨_, fs', newFile_unpacked, run, size, sized⟩

end Unchanged

end Rel4.Vfs
