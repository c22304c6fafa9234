import Mathlib.Data.Fintype.List
import Mathlib.Data.List.GetD
import Rel4.Proof.FileOps

/-! What a write does to the pages of a file, whether it succeeds or runs out of space. -/

namespace Rel4.Vfs

open Lib
open Function (update update_eq_self update_idem update_of_ne update_self)

variable {fs fs' : Ramfs} {inum idx inner pos q size : Nat} {p : Fin maxDataPages}
  {old new later ps : List (Fin maxDataPages)} {data bytes : List UInt8}

section Bytes

/-- The bytes at all positions once some have been written. -/
def overlay (before : Nat → UInt8) (pos : Nat) (data : List UInt8) : Nat → UInt8 :=
  fun q => if pos ≤ q ∧ q < pos + data.length then data.getD (q - pos) 0 else before q

@[simp] theorem overlay_nil (before : Nat → UInt8) (pos : Nat) : overlay before pos [] = before := by
  funext q
  exact if_neg (by simp)

/-- Two pieces written one behind the other are one piece. -/
theorem overlay_append (before : Nat → UInt8) (pos : Nat) (first second : List UInt8) :
    overlay (overlay before pos first) (pos + first.length) second =
      overlay before pos (first ++ second) := by
  funext q
  unfold overlay
  rw [List.length_append]
  by_cases early : q < pos + first.length
  · by_cases inside : pos ≤ q
    · rw [if_neg (by omega), if_pos ⟨inside, early⟩, if_pos ⟨inside, by omega⟩,
        List.getD_append _ _ _ _ (by omega)]
    · rw [if_neg (by omega), if_neg (by omega), if_neg (by omega)]
  · by_cases inside : q < pos + first.length + second.length
    · rw [if_pos ⟨by omega, inside⟩, if_pos ⟨by omega, by omega⟩,
        List.getD_append_right _ _ _ _ (by omega)]
      congr 1
      omega
    · rw [if_neg (by omega), if_neg (by omega), if_neg (by omega)]

/-- The byte that a list of pages has at a position; there are none beyond the last page. -/
def Ramfs.view (fs : Ramfs) (ps : List (Fin maxDataPages)) (pos : Nat) : UInt8 :=
  (ps[pos / page]?).elim 0 fun p => fs.pages p (pos % page)

theorem view_some (there : ps[q / page]? = some p) : fs.view ps q = fs.pages p (q % page) := by
  rw [Ramfs.view, there, Option.elim_some]

theorem view_none (absent : ps[q / page]? = none) : fs.view ps q = 0 := by
  rw [Ramfs.view, absent, Option.elim_none]

theorem page_pos : 0 < page := by decide

/-- Bytes stored in one page of a list change just these positions. -/
theorem view_storePage (nodup : ps.Nodup) (there : ps[idx]? = some p)
    (fits : inner + bytes.length ≤ page) :
    (fs.storePage p inner bytes).view ps = overlay (fs.view ps) (idx * page + inner) bytes := by
  funext q
  have split : page * (q / page) + q % page = q := Nat.div_add_mod q page
  have small : q % page < page := Nat.mod_lt _ page_pos
  unfold overlay
  by_cases same : q / page = idx
  · -- In the page itself, positions count from its beginning.
    subst same
    have shift : q / page * page = page * (q / page) := Nat.mul_comm ..
    rw [view_some there, view_some there]
    simp only [Ramfs.storePage, update_self]
    by_cases inside : inner ≤ q % page ∧ q % page < inner + bytes.length
    · rw [if_pos inside, if_pos ⟨by omega, by omega⟩]
      congr 1
      omega
    · rw [if_neg inside, if_neg (by omega)]
  · -- No other page of the list is the same one.
    have outside : ¬ (idx * page + inner ≤ q ∧ q < idx * page + inner + bytes.length) := by
      rintro ⟨after, before⟩
      apply same
      apply Nat.div_eq_of_lt_le
      · omega
      · rw [Nat.succ_mul]
        omega
    rw [if_neg outside]
    cases other : ps[q / page]? with
    | none => rw [view_none other, view_none other]
    | some p' =>
      have distinct : p' ≠ p := by
        rintro rfl
        have small := (List.getElem?_eq_some_iff.mp other).1
        exact same ((List.getElem?_inj small nodup).mp (other.trans there.symm))
      rw [view_some other, view_some other]
      simp only [Ramfs.storePage, update_of_ne distinct]

end Bytes

section Growing

/-- Pages that were free are now the last ones of an inode, and all zero. -/
def Ramfs.grown (fs : Ramfs) (inum : Nat) (old new : List (Fin maxDataPages)) : Ramfs :=
  { fs.updInode inum fun node => { node with src := .pages (old ++ new) } with
    pages := fun p => if p ∈ new then fun _ => 0 else fs.pages p
    pageUsed := fun p => decide (p ∈ new) || fs.pageUsed p }

/-- Pages that may be taken together. -/
structure Ramfs.FreshPages (fs : Ramfs) (new : List (Fin maxDataPages)) : Prop where
  nodup : new.Nodup
  free : ∀ p ∈ new, fs.pageUsed p = false

theorem grown_nil (src : (fs.inodes inum).src = .pages old) : fs.grown inum old [] = fs := by
  refine Ramfs.ext ?_ rfl (funext fun p => by simp [Ramfs.grown])
    (funext fun p => by simp [Ramfs.grown])
  show update fs.inodes inum { fs.inodes inum with src := .pages (old ++ []) } = fs.inodes
  rw [List.append_nil, ← src]
  exact update_eq_self ..

theorem grown_src : ((fs.grown inum old new).inodes inum).src = .pages (old ++ new) := by
  simp [Ramfs.grown]

theorem grown_grown :
    (fs.grown inum old new).grown inum (old ++ new) later = fs.grown inum old (new ++ later) := by
  refine Ramfs.ext ?_ rfl (funext fun p => ?_) (funext fun p => ?_)
  · simp [Ramfs.grown, Ramfs.updInode]
  · by_cases first : p ∈ new <;> by_cases second : p ∈ later <;> simp [Ramfs.grown, first, second]
  · by_cases first : p ∈ new <;> by_cases second : p ∈ later <;> simp [Ramfs.grown, first, second]

theorem Ramfs.FreshPages.append (first : fs.FreshPages new)
    (second : (fs.grown inum old new).FreshPages later) : fs.FreshPages (new ++ later) := by
  have apart {p} (member : p ∈ later) : p ∉ new ∧ fs.pageUsed p = false := by
    simpa [Ramfs.grown] using second.free p member
  refine ⟨List.nodup_append.mpr ⟨first.nodup, second.nodup, ?_⟩, fun p member => ?_⟩
  · rintro p mine q theirs rfl
    exact (apart theirs).1 mine
  · rcases List.mem_append.mp member with mine | theirs
    · exact first.free p mine
    · exact (apart theirs).2

theorem wp_allocPage {post : Fin maxDataPages → Ramfs → Prop} {fail : Stop → Ramfs → Prop} :
    wp allocPage post fail fs ↔
      (∀ p, (List.finRange maxDataPages).find? (fun i => !fs.pageUsed i) = some p →
        post p { fs with
          pageUsed := update fs.pageUsed p true
          pages := update fs.pages p fun _ => 0 }) ∧
      ((List.finRange maxDataPages).find? (fun i => !fs.pageUsed i) = none →
        fail (.errno .enospc) fs) := by
  unfold allocPage
  simp only [wp_bind, wp_get]
  cases (List.finRange maxDataPages).find? fun i => !fs.pageUsed i <;> simp

/-- A page that is taken and put at the end of an inode. -/
theorem grown_one (fs : Ramfs) (inum : Nat) (old : List (Fin maxDataPages)) (p : Fin maxDataPages) :
    ({ fs with
        pageUsed := update fs.pageUsed p true
        pages := update fs.pages p fun _ => 0 } : Ramfs).updInode inum
      (fun node => { node with src := .pages (old ++ [p]) }) = fs.grown inum old [p] := by
  refine Ramfs.ext rfl rfl (funext fun p' => ?_) (funext fun p' => ?_)
  · by_cases same : p' = p <;> simp [Ramfs.grown, Ramfs.updInode, same]
  · by_cases same : p' = p <;> simp [Ramfs.grown, Ramfs.updInode, same]

/-- Pages are added one by one, until there are enough or none is free. -/
theorem extendPages_spec (missing : Nat) (src : (fs.inodes inum).src = .pages old) :
    wp (extendPages inum missing old)
      (fun ps fs' => ∃ new, fs.FreshPages new ∧ new.length = missing ∧ ps = old ++ new ∧
        fs' = fs.grown inum old new)
      (fun stop fs' => stop = .errno .enospc ∧ ∃ new, fs.FreshPages new ∧ new.length < missing ∧
        fs' = fs.grown inum old new ∧ ∀ p, fs'.pageUsed p = true) fs := by
  induction missing generalizing fs old with
  | zero =>
    simp only [extendPages, wp_pure]
    exact ⟨[], ⟨List.nodup_nil, by simp⟩, rfl, by simp, (grown_nil src).symm⟩
  | succ missing ih =>
    simp only [extendPages, wp_bind, wp_allocPage, wp_modifyInode]
    refine ⟨fun p found => ?_, fun none => ?_⟩
    · have free : fs.FreshPages [p] := by
        refine ⟨by simp, fun q member => ?_⟩
        rw [List.mem_singleton.mp member]
        simpa using List.find?_some found
      rw [grown_one]
      refine wp_mono (ih grown_src) ?_ ?_
      · rintro ps fs' ⟨new, fresh, count, rfl, rfl⟩
        exact ⟨p :: new, free.append fresh, by simp [count], by simp, by rw [grown_grown]; rfl⟩
      · rintro stop fs' ⟨rfl, new, fresh, few, rfl, full⟩
        exact ⟨rfl, p :: new, free.append fresh, by simp [few], by rw [grown_grown]; rfl, full⟩
    · refine ⟨trivial, [], ⟨List.nodup_nil, by simp⟩, by simp, (grown_nil src).symm, fun p => ?_⟩
      simpa using List.find?_eq_none.mp none p (List.mem_finRange p)

/-- The new pages of a file read as zeros, and its old ones as before. -/
theorem view_grown (apart : ∀ p ∈ old, p ∉ new) :
    (fs.grown inum old new).view (old ++ new) = fs.view old := by
  funext q
  by_cases inside : q / page < old.length
  · have there : old[q / page]? = some (old.get ⟨q / page, inside⟩) := by simp [inside]
    have there' : (old ++ new)[q / page]? = some (old.get ⟨q / page, inside⟩) := by
      rw [List.getElem?_append_left inside, there]
    rw [view_some there, view_some there']
    simp only [Ramfs.grown]
    rw [if_neg (apart _ (List.get_mem ..))]
  · have beyond : old[q / page]? = none := List.getElem?_eq_none (by omega)
    rw [view_none beyond]
    cases there : (old ++ new)[q / page]? with
    | none => exact view_none there
    | some p =>
      rw [view_some there]
      rw [List.getElem?_append_right (by omega)] at there
      simp only [Ramfs.grown]
      rw [if_pos (List.mem_of_getElem? there)]

end Growing

section Chunks

/-- A write has set the size of a file, given it pages and changed bytes in its pages, and
nothing else. -/
structure Ramfs.Writes (fs fs' : Ramfs) (inum size : Nat) (old new : List (Fin maxDataPages)) :
    Prop where
  inodes : fs'.inodes = Function.update fs.inodes inum
    { fs.inodes inum with size, src := .pages (old ++ new) }
  dirents : fs'.dirents = fs.dirents
  fresh : fs.FreshPages new
  pageUsed : fs'.pageUsed = fun p => decide (p ∈ new) || fs.pageUsed p
  pages : ∀ p, p ∉ old ++ new → fs'.pages p = fs.pages p

theorem freshPages_nil : fs.FreshPages [] := ⟨List.nodup_nil, by simp⟩

theorem Ramfs.FreshPages.writes (fresh : fs.FreshPages new) :
    fs.Writes (fs.grown inum old new) inum (fs.inodes inum).size old new :=
  ⟨rfl, rfl, fresh, rfl, fun p other => by
    simp only [Ramfs.grown]
    rw [if_neg fun member => other (List.mem_append_right _ member)]⟩

/-- Size and place of the bytes may be set without any page. -/
theorem writes_updInode (fs : Ramfs) (inum size : Nat) (old : List (Fin maxDataPages)) :
    fs.Writes (fs.updInode inum fun node => { node with size, src := .pages old }) inum size old [] :=
  ⟨by rw [List.append_nil]; rfl, rfl, freshPages_nil, by simp [Ramfs.updInode], fun _ _ => rfl⟩

theorem Ramfs.Writes.node (writes : fs.Writes fs' inum size old new) :
    fs'.inodes inum = { fs.inodes inum with size, src := .pages (old ++ new) } := by
  rw [writes.inodes, update_self]

theorem Ramfs.Writes.src (writes : fs.Writes fs' inum size old new) :
    (fs'.inodes inum).src = .pages (old ++ new) := by
  rw [writes.node]

theorem Ramfs.Writes.stores (writes : fs.Writes fs' inum size old new) (member : p ∈ old ++ new) :
    fs.Writes (fs'.storePage p inner bytes) inum size old new := by
  refine ⟨writes.inodes, writes.dirents, writes.fresh, writes.pageUsed, fun q other => ?_⟩
  have distinct : q ≠ p := by
    rintro rfl
    exact other member
  simp only [Ramfs.storePage, update_of_ne distinct]
  exact writes.pages q other

theorem Ramfs.Writes.trans {fs'' : Ramfs} {size' : Nat} (first : fs.Writes fs' inum size old new)
    (second : fs'.Writes fs'' inum size' (old ++ new) later) :
    fs.Writes fs'' inum size' old (new ++ later) := by
  have fresh : (fs.grown inum old new).FreshPages later :=
    ⟨second.fresh.nodup, fun p member => by
      have free := second.fresh.free p member
      rwa [first.pageUsed] at free⟩
  refine ⟨?_, second.dirents.trans first.dirents, first.fresh.append fresh, ?_, fun p other => ?_⟩
  · rw [second.inodes, first.inodes, update_idem, update_self, List.append_assoc]
  · rw [second.pageUsed, first.pageUsed]
    funext p
    by_cases mine : p ∈ new <;> by_cases theirs : p ∈ later <;> simp [mine, theirs]
  · rw [← List.append_assoc] at other
    rw [second.pages p other, first.pages p fun member => other (List.mem_append_left _ member)]

/-- Pages of a file: all different, and all marked. -/
structure Ramfs.OwnPages (fs : Ramfs) (ps : List (Fin maxDataPages)) : Prop where
  nodup : ps.Nodup
  used : ∀ p ∈ ps, fs.pageUsed p = true

theorem Ramfs.OwnPages.apart (own : fs.OwnPages old) (fresh : fs.FreshPages new) :
    ∀ p ∈ old, p ∉ new := fun p mine theirs => by
  cases (own.used p mine).symm.trans (fresh.free p theirs)

theorem Ramfs.Writes.own (own : fs.OwnPages old) (writes : fs.Writes fs' inum size old new) :
    fs'.OwnPages (old ++ new) := by
  refine ⟨List.nodup_append.mpr ⟨own.nodup, writes.fresh.nodup, ?_⟩, fun p member => ?_⟩
  · rintro p mine q theirs rfl
    exact own.apart writes.fresh p mine theirs
  · rw [writes.pageUsed]
    rcases List.mem_append.mp member with mine | theirs
    · simp [own.used p mine]
    · simp [theirs]

/-- Where a write that ran out of space has stopped: this many bytes are written. -/
structure Ramfs.Stuck (fs' : Ramfs) (old new : List (Fin maxDataPages)) (pos done : Nat) : Prop where
  full : maxFilePages ≤ (pos + done) / page ∨
    (∀ p, fs'.pageUsed p = true) ∧ (old ++ new).length ≤ (pos + done) / page
  stored : 0 < done → (pos + done - 1) / page < (old ++ new).length
  high : maxFilePages ≤ pos / page → new = []

/-- How many pages a file has once a write has gone through. -/
def reach (pages pos len : Nat) : Nat :=
  if len = 0 then pages else max pages ((pos + len - 1) / page + 1)

/-- All of the data has been written. -/
structure Ramfs.Wrote (fs fs' : Ramfs) (inum size pos : Nat) (data : List UInt8)
    (old new : List (Fin maxDataPages)) : Prop where
  writes : fs.Writes fs' inum size old new
  view : fs'.view (old ++ new) = overlay (fs.view old) pos data
  length : (old ++ new).length = reach old.length pos data.length

/-- Some bytes have been written, and for the next one there was no room. -/
structure Ramfs.Jammed (fs fs' : Ramfs) (inum size pos : Nat) (data : List UInt8)
    (old new : List (Fin maxDataPages)) (done : Nat) : Prop where
  writes : fs.Writes fs' inum size old new
  few : done < data.length
  view : fs'.view (old ++ new) = overlay (fs.view old) pos (data.take done)
  stuck : fs'.Stuck old new pos done

/-- The first chunk of a write stays in its page. -/
theorem chunk_page {chunk : Nat} (some : 0 < chunk) (fits : chunk ≤ page - pos % page) :
    (pos + chunk - 1) / page = pos / page := by
  have split := Nat.div_add_mod pos page
  have small := Nat.mod_lt pos page_pos
  apply Nat.div_eq_of_lt_le
  · rw [Nat.mul_comm]
    omega
  · rw [Nat.succ_mul, Nat.mul_comm]
    omega

theorem reach_chunk {pages chunk len : Nat} (some : 0 < chunk) (fits : chunk ≤ page - pos % page)
    (within : chunk ≤ len) :
    reach (max pages (pos / page + 1)) (pos + chunk) (len - chunk) = reach pages pos len := by
  unfold reach
  rw [if_neg (show ¬ len = 0 by omega)]
  by_cases last : len - chunk = 0
  · rw [if_pos last, show len = chunk by omega, chunk_page some fits]
  · have later : pos / page ≤ (pos + len - 1) / page := Nat.div_le_div_right (by omega)
    rw [if_neg last, show pos + chunk + (len - chunk) - 1 = pos + len - 1 by omega]
    omega

theorem writes_refl (src : (fs.inodes inum).src = .pages old) :
    fs.Writes fs inum (fs.inodes inum).size old [] := by
  have writes : fs.Writes (fs.grown inum old []) inum (fs.inodes inum).size old [] :=
    freshPages_nil.writes
  rwa [grown_nil src] at writes

theorem writeChunks_spec (fuel : Nat) (enough : data.length ≤ fuel)
    (src : (fs.inodes inum).src = .pages old) (own : fs.OwnPages old) :
    wp (writeChunks inum fuel pos data old)
      (fun _ fs' => ∃ new, fs.Wrote fs' inum (fs.inodes inum).size pos data old new)
      (fun stop fs' => stop = .errno .enospc ∧
        ∃ new done, fs.Jammed fs' inum (fs.inodes inum).size pos data old new done) fs := by
  induction fuel generalizing fs pos data old with
  | zero =>
    obtain rfl := List.length_eq_zero_iff.mp (Nat.le_zero.mp enough)
    simp only [writeChunks, wp_pure]
    exact ⟨[], writes_refl src, by simp, by simp [reach]⟩
  | succ fuel ih =>
    simp only [writeChunks, wp_ite, wp_pure, wp_bind, wp_err]
    refine ⟨fun some => ⟨fun high => ?_, fun low => ?_⟩, fun none => ?_⟩
    · have some' := List.length_pos_of_ne_nil some
      exact ⟨trivial, [], 0, writes_refl src, some', by simp, .inl high, by simp, fun _ => rfl⟩
    · have some' := List.length_pos_of_ne_nil some
      refine wp_mono (extendPages_spec _ src) ?_ ?_
      · rintro ps fs₁ ⟨new, fresh, count, rfl, rfl⟩
        have length : (old ++ new).length = max old.length (pos / page + 1) := by
          rw [List.length_append, count]
          omega
        cases there : (old ++ new)[pos / page]? with
        | none => exact absurd (List.getElem?_eq_none_iff.mp there) (by omega)
        | some p =>
          simp only [wp_modify, wp_bind]
          -- The chunk goes to its page, and the rest of the data to a file that has grown.
          set chunk := min data.length (page - pos % page) with chunkEq
          have inPage : pos % page < page := Nat.mod_lt _ page_pos
          have taken : (data.take chunk).length = chunk := by
            rw [List.length_take]
            omega
          have first : fs.Writes
              ((fs.grown inum old new).storePage p (pos % page) (data.take chunk)) inum
              (fs.inodes inum).size old new :=
            fresh.writes.stores (List.mem_of_getElem? there)
          have own' := first.own own
          have seen : ((fs.grown inum old new).storePage p (pos % page) (data.take chunk)).view
              (old ++ new) = overlay (fs.view old) pos (data.take chunk) := by
            rw [view_storePage own'.nodup there (by omega), view_grown (own.apart fresh),
              Nat.div_add_mod']
          have joined (rest : List UInt8) :
              overlay (overlay (fs.view old) pos (data.take chunk)) (pos + chunk) rest =
                overlay (fs.view old) pos (data.take chunk ++ rest) := by
            have := overlay_append (fs.view old) pos (data.take chunk) rest
            rwa [taken] at this
          have start : chunk ≤ page - pos % page := by omega
          refine wp_mono (ih (by rw [List.length_drop]; omega) first.src own') ?_ ?_
          · rintro _ fs' ⟨later, second, view, reached⟩
            rw [first.node] at second
            refine ⟨new ++ later, first.trans second, ?_, ?_⟩
            · rw [← List.append_assoc, view, seen, joined, List.take_append_drop]
            · rw [← List.append_assoc, reached, length, List.length_drop]
              exact reach_chunk (by omega) start (by omega)
          · rintro stop fs' ⟨rfl, later, done, second, few, view, stuck⟩
            rw [List.length_drop] at few
            rw [first.node] at second
            have sum : pos + (chunk + done) = pos + chunk + done := by omega
            refine ⟨rfl, new ++ later, chunk + done, first.trans second, by omega, ?_, ?_, ?_, ?_⟩
            · rw [← List.append_assoc, view, seen, joined, List.take_add]
            · rw [← List.append_assoc, sum]
              exact stuck.full
            · intro _
              rw [← List.append_assoc, sum]
              by_cases more : 0 < done
              · exact stuck.stored more
              · have last : pos + chunk + done - 1 = pos + chunk - 1 := by omega
                rw [last, chunk_page (by omega) start, List.length_append]
                omega
            · exact fun high => absurd high low
      · rintro stop fs' ⟨rfl, new, fresh, few, rfl, full⟩
        refine ⟨rfl, new, 0, fresh.writes, some', ?_, .inr ⟨full, ?_⟩, by simp,
          fun high => absurd high low⟩
        · simpa using view_grown (own.apart fresh)
        · rw [List.length_append, Nat.add_zero]
          omega
    · obtain rfl : data = [] := not_not.mp none
      exact ⟨[], writes_refl src, by simp, by simp [reach]⟩

theorem Ramfs.view_congr (same : fs'.pages = fs.pages) : fs'.view = fs.view := by
  funext ps q
  simp only [Ramfs.view, same]

theorem Ramfs.Writes.before {start : Ramfs} {size' : Nat} (first : start.Writes fs inum size' old [])
    (second : fs.Writes fs' inum size old new) : start.Writes fs' inum size old new :=
  first.trans (by rwa [List.append_nil])

/-- What was set before the bytes were written belongs to the same write. -/
theorem Ramfs.Wrote.before {start : Ramfs} {size' : Nat} (first : start.Writes fs inum size' old [])
    (same : fs.pages = start.pages) (wrote : fs.Wrote fs' inum size pos data old new) :
    start.Wrote fs' inum size pos data old new :=
  ⟨first.before wrote.writes, Ramfs.view_congr same ▸ wrote.view, wrote.length⟩

theorem Ramfs.Jammed.before {start : Ramfs} {size' done : Nat}
    (first : start.Writes fs inum size' old []) (same : fs.pages = start.pages)
    (jammed : fs.Jammed fs' inum size pos data old new done) :
    start.Jammed fs' inum size pos data old new done :=
  ⟨first.before jammed.writes, jammed.few, Ramfs.view_congr same ▸ jammed.view, jammed.stuck⟩

/-- The size a write gives a file; a sum that is too large saturates. -/
def endOf (offset : Nat) (data : List UInt8) : Nat := min (offset + data.length) usizeMax

theorem writePaged_spec {offset : Nat} (used : (fs.inodes inum).used = true)
    (file : (fs.inodes inum).kind = .file) (src : (fs.inodes inum).src = .pages old)
    (own : fs.OwnPages old) :
    wp (writePaged inum offset data)
      (fun n fs' => n = data.length ∧
        ∃ new, fs.Wrote fs' inum (max (fs.inodes inum).size (endOf offset data)) offset data old new)
      (fun stop fs' => stop = .errno .enospc ∧ ∃ new done,
        fs.Jammed fs' inum (max (fs.inodes inum).size (endOf offset data)) offset data old new done)
      fs := by
  unfold writePaged
  simp only [wp_bind, wp_get, wp_ite, wp_err, wp_modifyInode]
  refine ⟨fun bad => absurd bad (by simp [used, file]), fun _ => ?_⟩
  set sized := fs.updInode inum fun node =>
    { node with size := max node.size (min (offset + data.length) usizeMax) } with sizedEq
  have size : (sized.inodes inum).size = max (fs.inodes inum).size (endOf offset data) := by
    simp [sizedEq, endOf]
  have src' : (sized.inodes inum).src = .pages old := by simp [sizedEq, src]
  have first : fs.Writes sized inum (max (fs.inodes inum).size (endOf offset data)) old [] := by
    have writes := writes_updInode fs inum (max (fs.inodes inum).size (endOf offset data)) old
    rw [← src] at writes
    exact writes
  rw [src']
  simp only [wp_bind]
  refine wp_mono (writeChunks_spec _ le_rfl src' ⟨own.nodup, own.used⟩) ?_ ?_
  · rintro _ fs' ⟨new, wrote⟩
    rw [size] at wrote
    exact ⟨rfl, new, wrote.before first rfl⟩
  · rintro stop fs' ⟨rfl, new, done, jammed⟩
    rw [size] at jammed
    exact ⟨rfl, new, done, jammed.before first rfl⟩

theorem reach_reach (pages pos first second : Nat) :
    reach (reach pages pos first) (pos + first) second = reach pages pos (first + second) := by
  unfold reach
  have later : (pos + first - 1) / page ≤ (pos + (first + second) - 1) / page :=
    Nat.div_le_div_right (by omega)
  by_cases none : second = 0
  · simp [none]
  · rw [if_neg none, if_neg (show ¬ first + second = 0 by omega), Nat.add_assoc]
    split_ifs <;> omega

/-- Two writes, one behind the other, are one write. -/
theorem Ramfs.Wrote.trans {fs'' : Ramfs} {size' : Nat}
    (first : fs.Wrote fs' inum size pos data old new)
    (second : fs'.Wrote fs'' inum size' (pos + data.length) bytes (old ++ new) later) :
    fs.Wrote fs'' inum size' pos (data ++ bytes) old (new ++ later) := by
  refine ⟨first.writes.trans second.writes, ?_, ?_⟩
  · rw [← List.append_assoc, second.view, first.view, overlay_append]
  · rw [← List.append_assoc, second.length, first.length, reach_reach, List.length_append]

/-- A file has no more pages than there are. -/
theorem Ramfs.OwnPages.length (own : fs.OwnPages ps) : ps.length ≤ maxDataPages := by
  have := own.nodup.length_le_card
  rwa [Fintype.card_fin] at this

theorem Ramfs.Wrote.small (own : fs.OwnPages old) (wrote : fs.Wrote fs' inum size pos data old new) 
    (some : data ≠ []) : pos + data.length ≤ maxDataPages * page := by
  have count := (wrote.writes.own own).length
  have some' := List.length_pos_of_ne_nil some
  rw [wrote.length, reach, if_neg (by omega)] at count
  have last : (pos + data.length - 1) / page < maxDataPages := by omega
  have := (Nat.div_lt_iff_lt_mul page_pos).mp last
  omega

theorem pages_few : maxDataPages < maxFilePages := by
  unfold maxDataPages maxFilePages
  omega

/-- The byte a write stopped at has no page. -/
theorem Ramfs.Jammed.missing {done : Nat} (own : fs.OwnPages old)
    (jammed : fs.Jammed fs' inum size pos data old new done) :
    (old ++ new).length ≤ (pos + done) / page := by
  rcases jammed.stuck.full with high | ⟨-, few⟩
  · have := (jammed.writes.own own).length
    have := pages_few
    omega
  · exact few

end Chunks

section Conversion

variable {rootfs : List UInt8} {offset len copied : Nat}

theorem slice_ok {first last : Nat} (order : first ≤ last) (within : last ≤ rootfs.length) :
    slice rootfs first last = .ok ((rootfs.drop first).take (last - first)) :=
  if_pos ⟨order, within⟩

theorem slice_panic {first last : Nat} (outside : rootfs.length < last) :
    slice rootfs first last = .error (.panic "range end index out of range for slice") :=
  if_neg (by omega)

/-- The copy of an archived file stops only for lack of pages, or at the end of the archive. -/
theorem copyEmbedded_spec (fuel : Nat) (enough : len - copied ≤ fuel) (within : copied ≤ len)
    (used : (fs.inodes inum).used = true) (file : (fs.inodes inum).kind = .file)
    (size : (fs.inodes inum).size = copied) (src : (fs.inodes inum).src = .pages old)
    (own : fs.OwnPages old) :
    wp (copyEmbedded rootfs inum offset len fuel copied)
      (fun _ fs' => ∃ new, fs.Wrote fs' inum len copied
        ((rootfs.drop (offset + copied)).take (len - copied)) old new)
      (fun stop fs' => (rootfs.length < offset + len ∧ ∃ text, stop = .panic text) ∨
        stop = .errno .enospc ∧ ∃ new size' q, q < len ∧ (old ++ new).length ≤ q / page ∧
          (maxFilePages ≤ q / page ∨ ∀ p, fs'.pageUsed p = true) ∧
          fs.Writes fs' inum size' old new) fs := by
  induction fuel generalizing fs old copied with
  | zero =>
    obtain rfl : copied = len := by omega
    simp only [copyEmbedded, wp_pure]
    rw [← size, Nat.sub_self, List.take_zero]
    exact ⟨[], writes_refl src, by simp, by simp [reach]⟩
  | succ fuel ih =>
    simp only [copyEmbedded, wp_ite, wp_pure]
    refine ⟨fun more => ?_, fun finished => ?_⟩
    · set chunk := min (len - copied) 512 with chunkEq
      by_cases inside : offset + copied + chunk ≤ rootfs.length
      · rw [slice_ok (by omega) inside]
        have cut : offset + copied + chunk - (offset + copied) = chunk := by omega
        rw [cut]
        simp only [wp_bind]
        set bytes := (rootfs.drop (offset + copied)).take chunk with bytesEq
        have length : bytes.length = chunk := by
          rw [bytesEq, List.length_take, List.length_drop]
          omega
        have some : bytes ≠ [] := List.ne_nil_of_length_pos (by omega)
        have rest : (rootfs.drop (offset + copied)).take (len - copied) =
            bytes ++ (rootfs.drop (offset + (copied + chunk))).take (len - (copied + chunk)) := by
          rw [show len - copied = chunk + (len - (copied + chunk)) by omega, List.take_add,
            List.drop_drop, Nat.add_assoc]
        refine wp_mono (writePaged_spec used file src own) ?_ ?_
        · rintro _ fs₁ ⟨-, new, first⟩
          -- There are too few pages for the sum to saturate.
          have small := first.small own some
          have sum : max (fs.inodes inum).size (endOf copied bytes) = copied + chunk := by
            simp only [endOf, length, size] at small ⊢
            simp only [maxDataPages, page, usizeMax] at small ⊢
            omega
          rw [sum] at first
          have node := first.writes.node
          refine wp_mono (ih (by omega) (by omega) ?_ ?_ ?_ first.writes.src (first.writes.own own)) ?_ ?_
          · rw [node]
            exact used
          · rw [node]
            exact file
          · rw [node]
          · rintro _ fs' ⟨later, second⟩
            rw [rest]
            exact ⟨new ++ later, first.trans (by rwa [length])⟩
          · rintro stop fs' (panic | ⟨rfl, later, size', q, small, missing, full, second⟩)
            · exact .inl panic
            · refine .inr ⟨rfl, new ++ later, size', q, small, ?_, full, first.writes.trans second⟩
              rwa [← List.append_assoc]
        · rintro stop fs' ⟨rfl, new, done, jammed⟩
          have few := jammed.few
          exact .inr ⟨rfl, new, _, copied + done, by omega, jammed.missing own,
            jammed.stuck.full.imp_right And.left, jammed.writes⟩
      · rw [slice_panic (by omega)]
        exact .inl ⟨by omega, _, rfl⟩
    · obtain rfl : copied = len := by omega
      rw [← size, Nat.sub_self, List.take_zero]
      exact ⟨[], writes_refl src, by simp, by simp [reach]⟩

theorem wp_makeWritable_pages {post : Unit → Ramfs → Prop} {fail : Stop → Ramfs → Prop}
    (small : inum < maxInodes) (used : (fs.inodes inum).used = true)
    (src : (fs.inodes inum).src = .pages old) :
    wp (makeWritable rootfs inum) post fail fs ↔ post () fs := by
  unfold makeWritable Ramfs.inode
  simp [wp_orErr, small, used, src]

theorem wp_makeWritable_none {post : Unit → Ramfs → Prop} {fail : Stop → Ramfs → Prop}
    (small : inum < maxInodes) (used : (fs.inodes inum).used = true)
    (src : (fs.inodes inum).src = .none) :
    wp (makeWritable rootfs inum) post fail fs ↔
      post () (fs.updInode inum fun node => { node with src := .pages [] }) := by
  unfold makeWritable Ramfs.inode
  simp [wp_orErr, small, used, src]

theorem wp_makeWritable_embedded {post : Unit → Ramfs → Prop} {fail : Stop → Ramfs → Prop}
    {base : Nat} (small : inum < maxInodes) (used : (fs.inodes inum).used = true)
    (src : (fs.inodes inum).src = .embedded base len) :
    wp (makeWritable rootfs inum) post fail fs ↔
      wp (copyEmbedded rootfs inum base len len 0) post fail
        (fs.updInode inum fun node => { node with src := .pages [], size := 0 }) := by
  unfold makeWritable Ramfs.inode
  simp [wp_orErr, small, used, src]

/-- A write to a slot that is not in use does nothing. -/
theorem writeInode_unused {post : Nat → Ramfs → Prop} {fail : Stop → Ramfs → Prop}
    (unused : fs.inode inum = none) :
    wp (writeInode rootfs inum offset data) post fail fs ↔ fail (.errno .enoent) fs := by
  unfold writeInode makeWritable
  simp [wp_orErr, unused]

/-- Only files have bytes that can be written. -/
theorem wp_writePaged_other {post : Nat → Ramfs → Prop} {fail : Stop → Ramfs → Prop}
    (notFile : (fs.inodes inum).kind ≠ .file) :
    wp (writePaged inum offset data) post fail fs ↔ fail (.errno .eisdir) fs := by
  unfold writePaged
  simp [notFile]

/-- A write to a file that is not in the archive. -/
theorem writeInode_spec (small : inum < maxInodes) (used : (fs.inodes inum).used = true)
    (file : (fs.inodes inum).kind = .file)
    (here : (fs.inodes inum).src = .none ∧ old = [] ∨ (fs.inodes inum).src = .pages old)
    (own : fs.OwnPages old) :
    wp (writeInode rootfs inum offset data)
      (fun n fs' => n = data.length ∧
        ∃ new, fs.Wrote fs' inum (max (fs.inodes inum).size (endOf offset data)) offset data old new)
      (fun stop fs' => stop = .errno .enospc ∧ ∃ new done,
        fs.Jammed fs' inum (max (fs.inodes inum).size (endOf offset data)) offset data old new done)
      fs := by
  unfold writeInode
  simp only [wp_bind]
  rcases here with ⟨src, rfl⟩ | src
  · rw [wp_makeWritable_none small used src]
    set start := fs.updInode inum fun node => { node with src := .pages [] } with startEq
    have first : fs.Writes start inum (fs.inodes inum).size [] [] := writes_updInode ..
    have node := first.node
    refine wp_mono (writePaged_spec ?_ ?_ first.src ⟨own.nodup, own.used⟩) ?_ ?_
    · rw [node]
      exact used
    · rw [node]
      exact file
    · rw [node]
      rintro n fs' ⟨rfl, new, wrote⟩
      exact ⟨rfl, new, wrote.before first rfl⟩
    · rw [node]
      rintro stop fs' ⟨rfl, new, done, jammed⟩
      exact ⟨rfl, new, done, jammed.before first rfl⟩
  · rw [wp_makeWritable_pages small used src]
    exact writePaged_spec used file src own

/-- A write to a file that is still in the archive: all of it is copied first. -/
theorem writeInode_embedded_spec {base : Nat} (small : inum < maxInodes)
    (used : (fs.inodes inum).used = true) (file : (fs.inodes inum).kind = .file)
    (src : (fs.inodes inum).src = .embedded base len) :
    wp (writeInode rootfs inum offset data)
      (fun n fs' => n = data.length ∧ ∃ mid old new,
        fs.Wrote mid inum len 0 ((rootfs.drop base).take len) [] old ∧
        mid.Wrote fs' inum (max len (endOf offset data)) offset data old new)
      (fun stop fs' => (rootfs.length < base + len ∧ ∃ text, stop = .panic text) ∨
        stop = .errno .enospc ∧
          ((∃ new size' q, q < len ∧ new.length ≤ q / page ∧
            (maxFilePages ≤ q / page ∨ ∀ p, fs'.pageUsed p = true) ∧ fs.Writes fs' inum size' [] new) ∨
          ∃ mid old new done,
            fs.Wrote mid inum len 0 ((rootfs.drop base).take len) [] old ∧
            mid.Jammed fs' inum (max len (endOf offset data)) offset data old new done)) fs := by
  unfold writeInode
  simp only [wp_bind]
  rw [wp_makeWritable_embedded small used src]
  set start := fs.updInode inum fun node => { node with src := .pages [], size := 0 } with startEq
  have first : fs.Writes start inum 0 [] [] := writes_updInode ..
  have node := first.node
  have own : fs.OwnPages [] := ⟨List.nodup_nil, by simp⟩
  refine wp_mono (copyEmbedded_spec len (by omega) (by omega) ?_ ?_ ?_ first.src (first.own own)) ?_ ?_
  · rw [node]
    exact used
  · rw [node]
    exact file
  · rw [node]
  · rintro _ mid ⟨old, copy⟩
    rw [Nat.add_zero, Nat.sub_zero] at copy
    have copied : fs.Wrote mid inum len 0 ((rootfs.drop base).take len) [] old := copy.before first rfl
    have node' := copied.writes.node
    have src' := copied.writes.src
    refine wp_mono (writePaged_spec ?_ ?_ src' (copied.writes.own own)) ?_ ?_
    · rw [node']
      exact used
    · rw [node']
      exact file
    · rw [node']
      rintro n fs' ⟨rfl, new, wrote⟩
      exact ⟨rfl, mid, old, new, copied, wrote⟩
    · rw [node']
      rintro stop fs' ⟨rfl, new, done, jammed⟩
      exact .inr ⟨rfl, .inr ⟨mid, old, new, done, copied, jammed⟩⟩
  · rintro stop fs' (panic | ⟨rfl, new, size', q, small, missing, full, writes⟩)
    · exact .inl panic
    · exact .inr ⟨rfl, .inl ⟨new, size', q, small, missing, full, first.before writes⟩⟩

end Conversion

end Rel4.Vfs
