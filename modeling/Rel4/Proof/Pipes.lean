import Rel4.Lib.Ring
import Rel4.Proof.ServerRules

/-! Pipes hand on what is written to them, in order and without loss. -/

namespace Rel4.Vfs

open Lib
open Function (update update_of_ne update_self)

variable {α : Type} {s s' : Server} {file i p n : Nat} {kind : OpenKind}

section Bytes

variable {pipe : Pipe}

/-- The bytes in a pipe, from the oldest on. -/
def Pipe.contents (pipe : Pipe) : List UInt8 := ringContents pipeBuf pipe.buf pipe.readPos pipe.len

/-- The positions of a pipe lie in its buffer. -/
structure Pipe.Fits (pipe : Pipe) : Prop where
  pos : pipe.readPos < pipeBuf
  len : pipe.len ≤ pipeBuf

/-- Both pipes count the same ends. -/
def Pipe.SameEnds (pipe pipe' : Pipe) : Prop := ∀ kind, pipe'.users kind = pipe.users kind

theorem Pipe.Fits.closed : Pipe.Fits {} := ⟨by decide, by decide⟩

/-- Bytes come out in the order they went in. -/
theorem Pipe.pull_spec (fits : pipe.Fits) (enough : n ≤ pipe.len) :
    pipe.contents = (pipe.pull n).1 ++ (pipe.pull n).2.contents ∧ (pipe.pull n).1.length = n ∧
      (pipe.pull n).2.Fits ∧ pipe.SameEnds (pipe.pull n).2 := by
  induction n generalizing pipe with
  | zero => exact ⟨rfl, rfl, fits, fun _ => rfl⟩
  | succ n ih =>
    obtain ⟨more, len⟩ : ∃ more, pipe.len = more + 1 := ⟨pipe.len - 1, by omega⟩
    have fits' : Pipe.Fits { pipe with readPos := (pipe.readPos + 1) % pipeBuf, len := pipe.len - 1 } :=
      ⟨Nat.mod_lt _ (by decide), by have := fits.len; dsimp only; omega⟩
    obtain ⟨split, length, kept, ends⟩ := ih fits' (by dsimp only; omega)
    refine ⟨?_, by simp [Pipe.pull, length], kept, ends⟩
    unfold Pipe.contents at split ⊢
    rw [len, ringContents_pop fits.pos]
    rw [len, Nat.add_sub_cancel] at split
    rw [split]
    simp [Pipe.pull, len]

/-- What is accepted goes behind what is there, as far as there is room. -/
theorem Pipe.push_spec (fits : pipe.Fits) (data : List UInt8) :
    (pipe.push data).2.contents = pipe.contents ++ data.take (pipe.push data).1 ∧
      (pipe.push data).1 ≤ data.length ∧ (pipe.push data).2.Fits ∧ pipe.SameEnds (pipe.push data).2 := by
  induction data generalizing pipe with
  | nil => exact ⟨by simp [Pipe.push], Nat.zero_le _, fits, fun _ => rfl⟩
  | cons byte rest ih =>
    unfold Pipe.push
    split_ifs with room
    · have fits' : Pipe.Fits
          { pipe with
            buf := update pipe.buf ((pipe.readPos + pipe.len) % pipeBuf) byte
            len := pipe.len + 1 } := ⟨fits.pos, room⟩
      obtain ⟨split, length, kept, ends⟩ := ih fits'
      refine ⟨?_, Nat.succ_le_succ length, kept, ends⟩
      dsimp only
      rw [split, List.take_succ_cons]
      unfold Pipe.contents
      rw [ringContents_push room, List.append_assoc, List.singleton_append]
    · exact ⟨by simp, Nat.zero_le _, fits, fun _ => rfl⟩

end Bytes

section Ends

/-- The kinds of the two ends of a pipe. -/
def OpenKind.IsPipe (kind : OpenKind) : Prop := kind = .pipeRead ∨ kind = .pipeWrite

/-- An open file is an end of a pipe. -/
def OpenFile.isEnd (kind : OpenKind) (p : Nat) (f : OpenFile) : Bool :=
  f.used && f.kind == kind && f.aux == p

/-- How many open files are ends of a pipe. -/
def Server.ends (s : Server) (kind : OpenKind) (p : Nat) : Nat := s.openCount (OpenFile.isEnd kind p)

theorem isEnd_unused {f : OpenFile} (unused : f.used = false) : f.isEnd kind p = false := by
  simp [OpenFile.isEnd, unused]

/-- Neither pipes nor the files that are their ends change. -/
structure SamePipes (s s' : Server) : Prop where
  pipes : s'.pipes = s.pipes
  isEnd : ∀ i kind p, kind.IsPipe → (s'.files i).isEnd kind p = (s.files i).isEnd kind p

instance : Std.Refl SamePipes := ⟨fun _ => ⟨rfl, fun _ _ _ _ => rfl⟩⟩

instance : IsTrans Server SamePipes := ⟨fun _ _ _ first second =>
  ⟨second.pipes.trans first.pipes, fun i kind p isPipe =>
    (second.isEnd i kind p isPipe).trans (first.isEnd i kind p isPipe)⟩⟩

theorem SamePipes.updFile {change : OpenFile → OpenFile}
    (same : ∀ kind p, kind.IsPipe → (change (s.files i)).isEnd kind p = (s.files i).isEnd kind p) :
    SamePipes s (s.updFile i change) := by
  refine ⟨rfl, fun j kind p isPipe => ?_⟩
  rw [updFile_files]
  split_ifs with here
  · rw [here, same kind p isPipe]
  · rfl

theorem SamePipes.ends (same : SamePipes s s') (isPipe : kind.IsPipe) : s'.ends kind p = s.ends kind p :=
  openCount_congr fun i => same.isEnd i kind p isPipe

theorem isEnd_outline {f f' : OpenFile} (same : f'.outline = f.outline) :
    f'.isEnd kind p = f.isEnd kind p := by
  unfold OpenFile.outline at same
  unfold OpenFile.isEnd
  cases used : f.used <;> cases used' : f'.used <;> simp_all

theorem always_samePipes {prog : Srv α} (always : Always SameOutline prog) : Always SamePipes prog :=
  always.mono fun _ _ same => ⟨same.pipes, fun i _ _ _ => isEnd_outline (same.outline i)⟩

theorem always_onFs (prog : Fs α) : Always SamePipes (onFs prog) := by
  intro s
  unfold Follows wp onFs
  cases prog s.fs <;> exact ⟨rfl, fun _ _ _ _ => rfl⟩

/-- A file that is no end of a pipe may be opened. -/
theorem SamePipes.openFile {new : OpenFile} (unused : (s.files i).used = false)
    (other : ¬ new.kind.IsPipe) : SamePipes s (s.updFile i fun _ => new) := by
  refine .updFile fun kind p isPipe => ?_
  have differs : new.kind ≠ kind := fun same => other (same ▸ isPipe)
  rw [isEnd_unused unused]
  simp [OpenFile.isEnd, differs]

theorem always_allocFile {node aux : Nat} {readable writable : Bool} (other : ¬ kind.IsPipe) :
    Always SamePipes (allocFile kind node aux readable writable) := by
  intro s
  unfold Follows
  rw [wp_allocFile]
  exact ⟨fun i free => .openFile (freeFile_some free).2 other, fun _ => Std.Refl.refl s⟩

end Ends

section Quiet

variable {rootfs : List UInt8} {msg : Message} {maxLen : Nat}

theorem always_writeRamFile : Always SamePipes (writeRamFile rootfs file maxLen) := by
  have finish (reply : Reply) : Always SamePipes (do releaseFileIo file; pure reply : Srv Reply) :=
    always_bind (always_samePipes always_releaseFileIo) fun _ => always_pure _
  unfold writeRamFile
  refine always_bind (always_samePipes always_acquireFileIo) fun ready => always_ite (always_pure _) ?_
  refine always_bind always_get fun s => ?_
  split
  · refine always_bind always_get fun s => always_bind (always_onFs _) fun written => ?_
    dsimp only
    split
    · exact always_bind (always_samePipes always_addFileOffset) fun _ => always_bind (always_pure _) finish
    · exact always_bind (always_pure _) finish
  · exact finish _

theorem always_handleProcFork : Always SamePipes (handleProcFork msg) := by
  unfold handleProcFork
  exact always_ite (always_pure _) (always_ite (always_pure _) (always_bind (always_onFs _) fun _ =>
    always_ite (always_pure _) (always_pure _)))

theorem always_handleProcExit : Always SamePipes (handleProcExit msg) := by
  unfold handleProcExit
  exact always_ite (always_pure _) (always_ite (always_pure _) (always_bind (always_onFs _) fun _ =>
    always_ite (always_pure _) (always_pure _)))

theorem openTarget_spec {inum : Nat} {kind : FileKind} :
    wp (openTarget inum kind) (fun target s' => SamePipes s s' ∧ ¬ target.1.IsPipe)
      (fun _ s' => SamePipes s s') s := by
  cases kind with
  | file | directory => exact ⟨Std.Refl.refl s, by simp [OpenKind.IsPipe]⟩
  | device =>
    unfold openTarget
    rw [wp_bind]
    exact wp_mono (always_onFs _ s) (fun _ _ same => ⟨same, by simp [OpenKind.IsPipe]⟩) fun _ _ => id

theorem always_openInode {flags inum size : Nat} {kind : FileKind} :
    Always SamePipes (openInode flags inum kind size) := by
  intro s
  unfold openInode Follows
  rw [wp_bind]
  refine wp_mono openTarget_spec ?_ fun _ _ => id
  rintro ⟨fileKind, node⟩ mid ⟨same, other⟩
  refine ((always_bind (always_allocFile other) fun file => ?_) mid).after same
  split
  · exact always_pure _
  · exact always_ite (always_bind (always_onFs _) fun _ => always_pure _) (always_pure _)

theorem always_handleOpen : Always SamePipes (handleOpen msg) := by
  unfold handleOpen
  refine always_ite (always_pure _) ?_
  dsimp only
  split
  · refine always_bind (always_onFs _) fun opened => ?_
    split
    · exact always_pure _
    · exact always_openInode
  · exact always_pure _

theorem always_handleChdir : Always SamePipes (handleChdir msg) := by
  unfold handleChdir
  refine always_ite (always_pure _) ?_
  dsimp only
  split
  · refine always_bind always_get fun s => ?_
    split
    · exact always_pure _
    · split
      · refine always_ite (always_pure _) (always_bind (always_onFs _) fun _ =>
          always_ite (always_pure _) (always_ite ?_ (always_pure _)))
        exact always_bind (always_onFs _) fun _ => always_pure _
      · exact always_pure _
  · exact always_pure _

theorem always_handleUnlink : Always SamePipes (handleUnlink msg) := by
  unfold handleUnlink
  refine always_ite (always_pure _) ?_
  dsimp only
  split
  · refine always_bind (always_onFs _) fun _ => ?_
    split <;> exact always_pure _
  · exact always_pure _

theorem always_handleMkdir : Always SamePipes (handleMkdir msg) := by
  unfold handleMkdir
  refine always_ite (always_pure _) ?_
  split
  · refine always_bind (always_onFs _) fun _ => ?_
    split <;> exact always_pure _
  · exact always_pure _

theorem always_handleExecOpen : Always SamePipes (handleExecOpen msg) := by
  unfold handleExecOpen
  refine always_ite (always_pure _) ?_
  split
  · refine always_bind (always_onFs _) fun _ => ?_
    split
    · exact always_pure _
    · exact always_ite (always_pure _) (always_bind (always_onFs _) fun _ => always_pure _)
  · exact always_pure _

theorem always_handleExecClose : Always SamePipes (handleExecClose msg) := by
  unfold handleExecClose
  exact always_ite (always_pure _) (always_bind (always_onFs _) fun _ =>
    always_ite (always_pure _) (always_pure _))

end Quiet

section Invariant

variable {pipe : Pipe} {ends ends' : OpenKind → Nat} {accepted returned : List UInt8}

/-- A pipe counts its ends, of which there is one of each kind at most; and while there is one, what was
accepted is what was returned and what the pipe holds. -/
structure Pipe.InOrder (pipe : Pipe) (ends : OpenKind → Nat) (accepted returned : List UInt8) : Prop where
  counted : ∀ kind, kind.IsPipe → pipe.users kind = ends kind ∧ ends kind ≤ 1
  fits : pipe.Fits
  fifo : ∀ kind, kind.IsPipe → ends kind ≠ 0 → accepted = returned ++ pipe.contents

theorem Pipe.InOrder.of_ends (inOrder : pipe.InOrder ends accepted returned)
    (same : ∀ kind, kind.IsPipe → ends' kind = ends kind) : pipe.InOrder ends' accepted returned where
  counted kind isPipe := by
    rw [same kind isPipe]
    exact inOrder.counted kind isPipe
  fits := inOrder.fits
  fifo kind isPipe := by
    rw [same kind isPipe]
    exact inOrder.fifo kind isPipe

/-- A pipe without ends may hold anything. -/
theorem Pipe.InOrder.idle (none : ∀ kind, kind.IsPipe → ends kind = 0) :
    Pipe.InOrder {} ends accepted returned where
  counted kind isPipe := by
    rw [none kind isPipe]
    rcases isPipe with rfl | rfl <;> exact ⟨rfl, Nat.zero_le 1⟩
  fits := .closed
  fifo kind isPipe some := absurd (none kind isPipe) some

/-- One of its ends is closed. -/
theorem Pipe.InOrder.leave (inOrder : pipe.InOrder ends accepted returned)
    (less : ∀ kind', kind'.IsPipe → ends' kind' + (if kind = kind' then 1 else 0) = ends kind') :
    (pipe.leave kind).InOrder ends' accepted returned where
  counted kind' isPipe := by
    have users : (pipe.leave kind).users kind' = pipe.users kind' - if kind = kind' then 1 else 0 := by
      rcases isPipe with rfl | rfl <;> cases kind <;> rfl
    have := inOrder.counted kind' isPipe
    have := less kind' isPipe
    omega
  fits := by cases kind <;> exact ⟨inOrder.fits.pos, inOrder.fits.len⟩
  fifo kind' isPipe some := by
    have := less kind' isPipe
    have contents : (pipe.leave kind).contents = pipe.contents := by cases kind <;> rfl
    rw [contents]
    exact inOrder.fifo kind' isPipe (by omega)

/-- The bytes that writers of each pipe have been told are accepted, and those its readers were given,
since the pipe was made. -/
structure Traffic where
  accepted : Nat → List UInt8 := fun _ => []
  returned : Nat → List UInt8 := fun _ => []

variable {t : Traffic}

/-- Every pipe is in order, and every end belongs to one. -/
structure PipeInv (s : Server) (t : Traffic) : Prop where
  placed : ∀ i, (s.files i).used = true → (s.files i).kind.IsPipe → (s.files i).aux < maxPipes
  inOrder : ∀ p < maxPipes, (s.pipes p).InOrder (s.ends · p) (t.accepted p) (t.returned p)

theorem PipeInv.same (inv : PipeInv s t) (same : SamePipes s s') : PipeInv s' t where
  placed i used isPipe := by
    -- A file that is an end now was the same end before.
    have now : (s'.files i).isEnd (s'.files i).kind (s'.files i).aux = true := by
      simp [OpenFile.isEnd, used]
    rw [same.isEnd i _ _ isPipe] at now
    simp only [OpenFile.isEnd, Bool.and_eq_true, beq_iff_eq] at now
    obtain ⟨⟨wasUsed, kind⟩, aux⟩ := now
    rw [← aux]
    exact inv.placed i wasUsed (kind ▸ isPipe)
  inOrder p small := by
    rw [same.pipes]
    exact (inv.inOrder p small).of_ends fun _ => same.ends

theorem PipeInv.always {prog : Srv α} (inv : PipeInv s t) (always : Always SamePipes prog) :
    wp prog (fun _ s' => PipeInv s' t) (fun _ _ => True) s :=
  wp_mono (always s) (fun _ _ => inv.same) fun _ _ _ => trivial

/-- A server without files and pipes. -/
theorem PipeInv.empty (files : s.files = fun _ => {}) (pipes : s.pipes = fun _ => {}) : PipeInv s t := by
  refine ⟨fun i used => ?_, fun p _ => ?_⟩
  · simp [files] at used
  · rw [pipes]
    exact .idle fun kind _ => by simp [Server.ends, Server.openCount, files, OpenFile.isEnd]

theorem PipeInv.closeFile (inv : PipeInv s t) (valid : s.validFile file = true) :
    PipeInv (s.closeFile file) t := by
  obtain ⟨small, used⟩ := validFile_iff.mp valid
  have ends (kind p) : (s.closeFile file).ends kind p +
      (if (s.files file).kind = kind ∧ (s.files file).aux = p then 1 else 0) = s.ends kind p := by
    have counted : (s.closeFile file).ends kind p + _ = s.ends kind p + _ :=
      openCount_updFile small fun _ => {}
    simpa [OpenFile.isEnd, used] using counted
  refine ⟨fun i isUsed => ?_, fun p isPipe => ?_⟩
  · have other : (s.closeFile file).files i = s.files i := by
      unfold Server.closeFile at isUsed ⊢
      simp only [updPipe_files, updFile_files] at isUsed ⊢
      split_ifs at isUsed ⊢
      rfl
    rw [other] at isUsed ⊢
    exact inv.placed i isUsed
  · by_cases here : (s.files file).aux = p
    · have left : (s.closeFile file).pipes p = (s.pipes p).leave (s.files file).kind := by
        simp [Server.closeFile, here, isPipe]
      rw [left]
      exact (inv.inOrder p isPipe).leave fun kind _ => by simpa [here] using ends kind p
    · have same : (s.closeFile file).pipes p = s.pipes p := by simp [Server.closeFile, Ne.symm here]
      rw [same]
      exact (inv.inOrder p isPipe).of_ends fun kind _ => by simpa [here] using ends kind p

end Invariant

section Pairs

variable {t : Traffic} {r w : Nat} {msg : Message}

/-- The two ends of a pipe. -/
def readEnd (p : Nat) : OpenFile := .new .pipeRead 0 p true false
def writeEnd (p : Nat) : OpenFile := .new .pipeWrite 0 p false true

/-- A server with a new pipe. -/
def Server.paired (s : Server) (p r w : Nat) : Server :=
  (((s.updPipe p fun _ => {}).updFile r fun _ => readEnd p).updFile w fun _ => writeEnd p).updPipe p
    fun pipe => { pipe with readers := 1, writers := 1 }

/-- A pipe and two slots that are free for it. -/
structure Server.CanPair (s : Server) (p r w : Nat) : Prop where
  pipe : p < maxPipes
  unread : (s.pipes p).readers = 0
  unwritten : (s.pipes p).writers = 0
  read : r < maxOpenFiles ∧ (s.files r).used = false
  write : w < maxOpenFiles ∧ (s.files w).used = false
  apart : w ≠ r

/-- No file and no pipe has been taken or given back. -/
structure Server.SameTables (s s' : Server) : Prop where
  fs : s'.fs = s.fs
  files : s.SameFiles s'
  pipe : ∀ p, s'.pipes p = s.pipes p ∨
    (s.pipes p).readers = 0 ∧ (s.pipes p).writers = 0 ∧ s'.pipes p = {}

theorem Server.SameTables.refl (s : Server) : s.SameTables s := ⟨rfl, .refl s, fun _ => .inl rfl⟩

theorem Server.SameTables.cleared (unread : (s.pipes p).readers = 0) (unwritten : (s.pipes p).writers = 0)
    (fs : s'.fs = s.fs) (files : s.SameFiles s')
    (pipes : ∀ q, s'.pipes q = if q = p then {} else s.pipes q) : s.SameTables s' := by
  refine ⟨fs, files, fun q => ?_⟩
  rw [pipes q]
  split_ifs with here
  · exact .inr ⟨here ▸ unread, here ▸ unwritten, rfl⟩
  · exact .inl rfl

/-- A request for a pipe is granted, or leaves nothing behind. -/
theorem handlePipe_spec :
    wp (handlePipe msg)
      (fun reply s' => (∃ p r w, s.CanPair p r w ∧ s' = s.paired p r w ∧
          reply = { status := statusOk, first := r, second := w }) ∨
        reply.status ≠ statusOk ∧ s.SameTables s')
      (fun _ _ => False) s := by
  have refused : Reply.err.status ≠ statusOk := by decide
  unfold handlePipe
  simp only [wp_bind, wp_ite, wp_pure, wp_allocPipe]
  refine ⟨fun _ => .inr ⟨refused, .refl s⟩, fun _ => ⟨fun p freePipe => ?_, fun _ => .inr ⟨refused, .refl s⟩⟩⟩
  obtain ⟨small, unread, unwritten⟩ := freePipe_some freePipe
  simp only [wp_bind, wp_allocFile]
  refine ⟨fun r freeRead => ?_, fun _ => ?_⟩
  rotate_left
  · simp only [wp_clearPipe, wp_pure, if_pos small]
    refine .inr ⟨refused, .cleared unread unwritten rfl (.refl s) fun q => ?_⟩
    simp only [updPipe_pipes]
    split_ifs <;> rfl
  obtain ⟨smallRead, unusedRead⟩ := freeFile_some freeRead
  refine ⟨fun w freeWrite => ?_, fun _ => ?_⟩
  rotate_left
  · -- The end that was opened already is closed again.
    rw [wp_releaseFile_new]
    · simp only [wp_clearPipe, wp_pure, if_pos small]
      refine .inr ⟨refused, .cleared unread unwritten rfl ?_ fun q => ?_⟩
      · refine .of_cleared [r] (by simpa using unusedRead) fun i => ?_
        by_cases here : i = r <;> simp [here]
      · simp only [updPipe_pipes, updFile_pipes]
        split_ifs <;> rfl
    all_goals simp [Server.validFile, smallRead, OpenFile.new, Pipe.users, OpenFile.released]
  obtain ⟨smallWrite, unusedWrite⟩ := freeFile_some freeWrite
  have apart : w ≠ r := by
    rintro rfl
    simp [OpenFile.new] at unusedWrite
  simp only [wp_bind, wp_openPipe small, wp_pure, wp_ite]
  refine ⟨fun never => absurd never (by simp), fun _ => .inl ⟨p, r, w, ?_, rfl, rfl⟩⟩
  refine ⟨small, unread, unwritten, ⟨smallRead, unusedRead⟩, ⟨smallWrite, ?_⟩, apart⟩
  simpa [apart] using unusedWrite

theorem PipeInv.sameTables (inv : PipeInv s t) (same : s.SameTables s') : PipeInv s' t := by
  have ends (kind p) : s'.ends kind p = s.ends kind p :=
    openCount_congr (same.files.keeps fun _ => isEnd_unused)
  refine ⟨fun i used => ?_, fun p small => ?_⟩
  · rcases same.files i with same | ⟨-, unused⟩
    · rw [same] at used ⊢
      exact inv.placed i used
    · cases unused.symm.trans used
  · have inOrder := inv.inOrder p small
    rcases same.pipe p with kept | ⟨unread, unwritten, cleared⟩
    · rw [kept]
      exact inOrder.of_ends fun kind _ => ends kind p
    · rw [cleared]
      refine .idle fun kind isPipe => ?_
      rw [ends, ← (inOrder.counted kind isPipe).1]
      rcases isPipe with rfl | rfl
      · exact unread
      · exact unwritten

/-- Nothing has gone through a pipe yet. -/
def Traffic.restart (t : Traffic) (p : Nat) : Traffic where
  accepted := Function.update t.accepted p []
  returned := Function.update t.returned p []

theorem paired_ends (can : s.CanPair p r w) (q : Nat) (isPipe : kind.IsPipe) :
    (s.paired p r w).ends kind q = s.ends kind q + if q = p then 1 else 0 := by
  have second : (s.paired p r w).ends kind q = _ + _ :=
    openCount_open can.write.1 (isEnd_unused (by simpa [can.apart] using can.write.2)) (writeEnd p)
  have first : ((s.updPipe p fun _ => {}).updFile r fun _ => readEnd p).openCount (OpenFile.isEnd kind q) = _ + _ :=
    openCount_open can.read.1 (isEnd_unused can.read.2) (readEnd p)
  rw [second, first, Server.ends]
  -- Just one of the two new files is an end of this kind.
  rcases isPipe with rfl | rfl <;> simp [OpenFile.isEnd, readEnd, writeEnd, OpenFile.new, eq_comm (a := p)]

theorem PipeInv.paired (inv : PipeInv s t) (can : s.CanPair p r w) :
    PipeInv (s.paired p r w) (t.restart p) := by
  have files (i) : (s.paired p r w).files i =
      if i = w then writeEnd p else if i = r then readEnd p else s.files i := by
    simp only [Server.paired, updPipe_files, updFile_files]
  refine ⟨fun i used => ?_, fun q small => ?_⟩
  · rw [files] at used ⊢
    split_ifs at used ⊢ with isWrite isRead
    · exact fun _ => can.pipe
    · exact fun _ => can.pipe
    · exact inv.placed i used
  · have inOrder := inv.inOrder q small
    by_cases here : q = p
    · subst here
      have new : (s.paired q r w).pipes q = { readers := 1, writers := 1 } := by simp [Server.paired]
      have one (kind : OpenKind) (isPipe : kind.IsPipe) : (s.paired q r w).ends kind q = 1 := by
        rw [paired_ends can q isPipe, ← (inOrder.counted kind isPipe).1]
        rcases isPipe with rfl | rfl <;> simp [Pipe.users, can.unread, can.unwritten]
      rw [new]
      refine ⟨fun kind isPipe => ?_, ⟨by decide, by decide⟩, fun _ _ _ => ?_⟩
      · rw [one kind isPipe]
        rcases isPipe with rfl | rfl <;> exact ⟨rfl, Nat.le_refl 1⟩
      · simp [Traffic.restart, Pipe.contents, ringContents]
    · have same : (s.paired p r w).pipes q = s.pipes q := by simp [Server.paired, here]
      simp only [same, Traffic.restart, update_of_ne here]
      exact inOrder.of_ends fun kind isPipe => by simp [paired_ends can q isPipe, here]

end Pairs

section Traffic

variable {t : Traffic} {msg : Message} {rootfs : List UInt8} {console : Console} {maxLen : Nat}

/-- The pipe a request is about, if its file is an end of this kind. -/
def Server.target (s : Server) (kind : OpenKind) (msg : Message) : Option Nat :=
  (s.fileSnapshot (msg.mrs 2)).bind fun f => if f.kind = kind then some f.aux else none

/-- What the host sees of a request: bytes it was given, bytes that were accepted, or a new pipe. -/
def Traffic.observe (t : Traffic) (s s' : Server) (msg : Message) (reply : Reply) : Traffic :=
  if reply.status ≠ statusOk then t
  else
    match VfsOp.fromRaw msg.label with
    | some .read =>
      match s.target .pipeRead msg with
      | some p => { t with returned := Function.update t.returned p (t.returned p ++ s'.sharedBytes reply.first) }
      | none => t
    | some .write =>
      match s.target .pipeWrite msg with
      | some p => { t with accepted := Function.update t.accepted p (t.accepted p ++ s.sharedBytes reply.first) }
      | none => t
    | some .pipe => t.restart (s'.files reply.first).aux
    | _ => t

theorem sharedBytes_share {bytes : List UInt8} (length : bytes.length = n) :
    (s.share bytes).sharedBytes n = bytes := by
  subst length
  unfold Server.sharedBytes Server.share
  refine List.ext_getElem (by simp) fun i small _ => ?_
  simp only [List.length_map, List.length_range] at small
  simp [small]

theorem sharedBytes_take (n : Nat) (small : n ≤ maxLen) : (s.sharedBytes maxLen).take n = s.sharedBytes n := by
  unfold Server.sharedBytes
  rw [← List.map_take, List.take_range, Nat.min_eq_left small]

/-- A pipe that only gives or takes bytes. -/
theorem PipeInv.moved (inv : PipeInv s t) {t' : Traffic} {pipe : Pipe} (small : p < maxPipes)
    (files : s'.files = s.files) (pipes : s'.pipes = update s.pipes p pipe) (fits : pipe.Fits)
    (ends : (s.pipes p).SameEnds pipe) (others : ∀ q, q ≠ p → t'.accepted q = t.accepted q ∧
      t'.returned q = t.returned q)
    (here : t.accepted p = t.returned p ++ (s.pipes p).contents →
      t'.accepted p = t'.returned p ++ pipe.contents) : PipeInv s' t' := by
  have count (kind q) : s'.ends kind q = s.ends kind q := openCount_congr fun i => by rw [files]
  refine ⟨fun i => by rw [files]; exact inv.placed i, fun q isPipe => ?_⟩
  have inOrder := inv.inOrder q isPipe
  by_cases same : q = p
  · subst same
    rw [pipes, update_self]
    refine ⟨fun kind isEnd => ?_, fits, fun kind isEnd open' => ?_⟩
    · rw [count, ends kind]
      exact inOrder.counted kind isEnd
    · rw [count] at open'
      exact here (inOrder.fifo kind isEnd open')
  · rw [pipes, update_of_ne same, (others q same).1, (others q same).2]
    exact inOrder.of_ends fun kind _ => count kind q

/-- An open file with one reference more, and with one less: the last one closes it. -/
def Server.duplicated (s : Server) (file : Nat) : Server :=
  s.updFile file fun f => { f with refs := f.refs + 1 }
def Server.detached (s : Server) (file : Nat) : Server :=
  if 1 < (s.files file).refs then s.updFile file fun f => { f with refs := f.refs - 1 } else s.closeFile file

/-- What the host may rely on when a request has been served. A read says that a pipe has come to its end
only if it is empty and cannot be written to any more; a pipe that is made was not in use, and one that is not
leaves nothing behind; and an end has one reference more for every copy, and one less for every close. -/
structure Served (s : Server) (t : Traffic) (msg : Message) (reply : Reply) (s' : Server) : Prop where
  inv : PipeInv s' (t.observe s s' msg reply)
  answer : match VfsOp.fromRaw msg.label with
    | some .read => ∀ p, s.target .pipeRead msg = some p →
        reply.status = statusOk → reply.first = 0 → 0 < msg.mrs 3 →
        (s.pipes p).contents = [] ∧ s.ends .pipeWrite p = 0
    | some .pipe =>
        (reply.status = statusOk ∧ ∃ p < maxPipes, s.ends .pipeRead p = 0 ∧ s.ends .pipeWrite p = 0 ∧
          s.CanPair p reply.first reply.second ∧ s' = s.paired p reply.first reply.second) ∨
        reply.status ≠ statusOk ∧ s.SameTables s'
    | some .dup =>
        reply.status = statusOk ∧ s.validFile (msg.mrs 2) = true ∧ s' = s.duplicated (msg.mrs 2) ∨
        reply.status ≠ statusOk ∧ s' = s
    | some .close =>
        s.validFile (msg.mrs 2) = true ∧ s'.files = (s.detached (msg.mrs 2)).files ∧
          s'.pipes = (s.detached (msg.mrs 2)).pipes ∨
        reply.status ≠ statusOk ∧ s' = s
    | _ => True

theorem observe_refused {reply : Reply} (refused : reply.status ≠ statusOk) :
    t.observe s s' msg reply = t := if_pos refused

/-- Requests that are about pipes or about the references to open files. -/
def VfsOp.usesPipes : VfsOp → Bool
  | .read | .write | .pipe | .dup | .close => true
  | _ => false

theorem Served.of_inv {reply : Reply} (inv : PipeInv s' t)
    (other : (VfsOp.fromRaw msg.label).any VfsOp.usesPipes = false) : Served s t msg reply s' := by
  have silent : t.observe s s' msg reply = t := by
    unfold Traffic.observe
    split_ifs
    · rfl
    · split <;> simp_all [VfsOp.usesPipes]
  refine ⟨silent.symm ▸ inv, ?_⟩
  split <;> simp_all [VfsOp.usesPipes]

theorem contents_eq_nil {pipe : Pipe} (empty : pipe.len = 0) : pipe.contents = [] := by
  simp [Pipe.contents, ringContents, empty]

section

variable (inv : PipeInv s t)
include inv

/-- Nothing is done for a request that is refused. -/
theorem Served.refused {reply : Reply} (refused : reply.status ≠ statusOk) : Served s t msg reply s := by
  refine ⟨(observe_refused refused).symm ▸ inv, ?_⟩
  split
  · exact fun _ _ ok => absurd ok refused
  · exact .inr ⟨refused, .refl s⟩
  · exact .inr ⟨refused, rfl⟩
  · exact .inr ⟨refused, rfl⟩
  · trivial

theorem handlePipe_served (op : VfsOp.fromRaw msg.label = some .pipe) :
    wp (handlePipe msg) (Served s t msg) (fun _ _ => False) s := by
  refine wp_mono handlePipe_spec ?_ fun _ _ => id
  rintro reply s' (⟨p, r, w, can, rfl, rfl⟩ | ⟨refused, same⟩)
  · have end' : ((s.paired p r w).files r).aux = p := by
      simp [Server.paired, can.apart.symm, readEnd, OpenFile.new]
    have restarted : t.observe s (s.paired p r w) msg { status := statusOk, first := r, second := w } =
        t.restart p := by
      simp [Traffic.observe, op, end']
    have counted := (inv.inOrder p can.pipe).counted
    refine ⟨restarted ▸ inv.paired can, ?_⟩
    rw [op]
    refine .inl ⟨rfl, p, can.pipe, ?_, ?_, can, rfl⟩
    · exact (counted _ (.inl rfl)).1.symm.trans can.unread
    · exact (counted _ (.inr rfl)).1.symm.trans can.unwritten
  · refine ⟨observe_refused refused ▸ inv.sameTables same, ?_⟩
    rw [op]
    exact .inr ⟨refused, same⟩

theorem readPipe_served (op : VfsOp.fromRaw msg.label = some .read) (small : p < maxPipes)
    (target : s.target .pipeRead msg = some p) :
    wp (readPipe p (min (msg.mrs 3) maxIoBytes)) (Served s t msg) (fun _ _ => False) s := by
  have inOrder := inv.inOrder p small
  unfold readPipe
  simp only [wp_bind, wp_get, wp_ite, wp_pure, wp_set]
  refine ⟨fun large => absurd small (by omega), fun _ => ⟨fun empty => ⟨fun _ => ?_, fun unwritten => ?_⟩,
    fun filled => ?_⟩⟩
  · exact .refused inv (by decide)
  · have silent : t.observe s s msg { status := statusOk, second := FileKind.raw .file } = t := by
      simp [Traffic.observe, op, target, Server.sharedBytes]
    refine ⟨silent.symm ▸ inv, ?_⟩
    rw [op]
    intro q same _ _ _
    cases target.symm.trans same
    have none : (s.pipes p).users .pipeWrite = 0 := Nat.eq_zero_of_not_pos unwritten
    exact ⟨contents_eq_nil empty, (inOrder.counted _ (.inr rfl)).1.symm.trans none⟩
  · set n := min (min (msg.mrs 3) maxIoBytes) (s.pipes p).len with count
    obtain ⟨split, length, fits, ends⟩ := Pipe.pull_spec inOrder.fits (show n ≤ _ from Nat.min_le_right _ _)
    refine ⟨?_, ?_⟩
    · have given : ((s.updPipe p fun _ => ((s.pipes p).pull n).2).share ((s.pipes p).pull n).1).sharedBytes n =
          ((s.pipes p).pull n).1 := sharedBytes_share length
      refine inv.moved small rfl rfl fits ends (fun q other => ?_) fun fifo => ?_
      · simp [Traffic.observe, op, target, other]
      · simp only [Traffic.observe, op, target, ne_eq, not_true_eq_false, if_false, update_self, given]
        rw [fifo, split, List.append_assoc]
    · rw [op]
      intro q same _ none some
      -- Some bytes are there and some are asked for.
      have : 0 < maxIoBytes := by decide
      dsimp only at none
      omega

theorem writePipe_served (op : VfsOp.fromRaw msg.label = some .write)
    (small : p < maxPipes) (target : s.target .pipeWrite msg = some p) :
    wp (writePipe p (min (msg.mrs 3) maxIoBytes)) (Served s t msg) (fun _ _ => False) s := by
  unfold writePipe
  simp only [wp_bind, wp_get, wp_ite, wp_pure, wp_set]
  refine ⟨fun large => absurd small (by omega), fun _ => ⟨fun _ => ?_, fun _ => ⟨fun _ => ?_, fun _ => ?_⟩⟩⟩
  · exact .refused inv (by decide)
  · exact .refused inv (by decide)
  · set data := s.sharedBytes (min (msg.mrs 3) maxIoBytes) with given
    obtain ⟨split, length, fits, ends⟩ := Pipe.push_spec (inv.inOrder p small).fits data
    refine ⟨?_, by rw [op]; trivial⟩
    rw [given, Server.sharedBytes, List.length_map, List.length_range] at length
    have taken : data.take ((s.pipes p).push data).1 = s.sharedBytes ((s.pipes p).push data).1 :=
      sharedBytes_take _ length
    refine inv.moved small rfl rfl fits ends (fun q other => ?_) fun fifo => ?_
    · simp [Traffic.observe, op, target, other]
    · simp only [Traffic.observe, op, target, ne_eq, not_true_eq_false, if_false, update_self]
      rw [fifo, split, taken, List.append_assoc]

theorem handleRead_served (op : VfsOp.fromRaw msg.label = some .read) :
    wp (handleRead rootfs console msg) (Served s t msg) (fun _ _ => True) s := by
  -- A read from something else is none of a pipe.
  have other (handler : Srv Reply) (quiet : Always SamePipes handler) (none : s.target .pipeRead msg = none) :
      wp handler (Served s t msg) (fun _ _ => True) s := by
    refine wp_mono (quiet s) (fun reply s' same => ?_) fun _ _ _ => trivial
    have silent : t.observe s s' msg reply = t := by simp [Traffic.observe, op, none]
    refine ⟨silent.symm ▸ inv.same same, ?_⟩
    rw [op]
    intro p is
    cases none.symm.trans is
  unfold handleRead
  simp only [wp_bind, wp_get, wp_ite, wp_pure]
  refine ⟨fun _ => .refused inv (by decide), fun _ => ?_⟩
  cases found : s.fileSnapshot (msg.mrs 2) with
  | none => exact .refused inv (by decide)
  | some f =>
    obtain ⟨-, used, rfl⟩ := fileSnapshot_some found
    simp only [wp_ite, wp_pure]
    refine ⟨fun _ => .refused inv (by decide), fun _ => ?_⟩
    have target : s.target .pipeRead msg =
        if (s.files (msg.mrs 2)).kind = .pipeRead then some (s.files (msg.mrs 2)).aux else none := by
      simp [Server.target, found]
    cases kind : (s.files (msg.mrs 2)).kind with
    | ramFile | ramDir => exact other _ (always_samePipes always_readRamFile) (by simp [target, kind])
    | pipeRead =>
      have small := inv.placed _ used (.inl kind)
      exact wp_mono (readPipe_served inv op small (by simp [target, kind])) (fun _ _ => id)
        fun _ _ => False.elim
    | console =>
      refine other _ (always_bind (always_samePipes (always_share _)) fun _ => always_pure _) ?_
      simp [target, kind]
    | closed | pipeWrite => exact other _ (always_pure _) (by simp [target, kind])

theorem handleWrite_served (op : VfsOp.fromRaw msg.label = some .write) :
    wp (handleWrite rootfs console msg) (Served s t msg) (fun _ _ => True) s := by
  have other (handler : Srv Reply) (quiet : Always SamePipes handler) (none : s.target .pipeWrite msg = none) :
      wp handler (Served s t msg) (fun _ _ => True) s := by
    refine wp_mono (quiet s) (fun reply s' same => ?_) fun _ _ _ => trivial
    have silent : t.observe s s' msg reply = t := by simp [Traffic.observe, op, none]
    exact ⟨silent.symm ▸ inv.same same, by rw [op]; trivial⟩
  unfold handleWrite
  simp only [wp_bind, wp_get, wp_ite, wp_pure]
  refine ⟨fun _ => .refused inv (by decide), fun _ => ?_⟩
  cases found : s.fileSnapshot (msg.mrs 2) with
  | none => exact .refused inv (by decide)
  | some f =>
    obtain ⟨-, used, rfl⟩ := fileSnapshot_some found
    simp only [wp_ite, wp_pure]
    refine ⟨fun _ => .refused inv (by decide), fun _ => ?_⟩
    have target : s.target .pipeWrite msg =
        if (s.files (msg.mrs 2)).kind = .pipeWrite then some (s.files (msg.mrs 2)).aux else none := by
      simp [Server.target, found]
    cases kind : (s.files (msg.mrs 2)).kind with
    | ramFile => exact other _ always_writeRamFile (by simp [target, kind])
    | pipeWrite =>
      have small := inv.placed _ used (.inr kind)
      exact wp_mono (writePipe_served inv op small (by simp [target, kind])) (fun _ _ => id)
        fun _ _ => False.elim
    | console | closed | pipeRead | ramDir => exact other _ (always_pure _) (by simp [target, kind])

/-- A copy of an end is the same end, with one reference more. -/
theorem handleDup_served (op : VfsOp.fromRaw msg.label = some .dup) :
    wp (handleDup msg) (Served s t msg) (fun _ _ => True) s := by
  unfold handleDup retainFile
  simp only [wp_bind, wp_get, wp_ite, wp_pure, wp_set]
  refine ⟨fun _ => .refused inv (by decide), fun _ => ⟨fun _ => ?_, fun can => ?_⟩⟩
  · exact ⟨fun _ => .refused inv (by decide), fun can => absurd rfl can⟩
  · refine ⟨fun cannot => absurd cannot (by decide), fun _ => ?_⟩
    obtain ⟨small, used, -⟩ : _ ∧ _ ∧ _ := by simpa only [not_or] using can
    have valid : s.validFile (msg.mrs 2) = true :=
      validFile_iff.mpr ⟨Nat.lt_of_not_le small, by simpa using used⟩
    have silent : t.observe s (s.duplicated (msg.mrs 2)) msg { status := statusOk, first := msg.mrs 2 } = t := by
      simp [Traffic.observe, op]
    refine ⟨silent.symm ▸ inv.same (.updFile fun _ _ _ => rfl), ?_⟩
    rw [op]
    exact .inl ⟨rfl, valid, rfl⟩

/-- A close takes one reference away, and the last one closes the end. -/
theorem handleClose_served (op : VfsOp.fromRaw msg.label = some .close) :
    wp (handleClose msg) (Served s t msg) (fun _ _ => True) s := by
  have silent (s' : Server) (reply : Reply) : t.observe s s' msg reply = t := by
    simp [Traffic.observe, op]
  unfold handleClose
  simp only [wp_bind, wp_ite, wp_pure]
  refine ⟨fun _ => .refused inv (by decide), fun _ => ?_⟩
  rw [wp_detachFile]
  refine ⟨fun _ => .refused inv (by decide), fun valid more => ?_, fun valid last => ?_⟩
  · refine ⟨(silent _ _).symm ▸ inv.same (.updFile fun _ _ _ => rfl), ?_⟩
    rw [op]
    exact .inl ⟨valid, by simp [Server.detached, more], by simp [Server.detached, more]⟩
  · have closed (fs : Ramfs) (reply : Reply) : Served s t msg reply { s.closeFile (msg.mrs 2) with fs } := by
      have kept : SamePipes (s.closeFile (msg.mrs 2)) { s.closeFile (msg.mrs 2) with fs } :=
        ⟨rfl, fun _ _ _ _ => rfl⟩
      refine ⟨(silent _ _).symm ▸ (inv.closeFile valid).same kept, ?_⟩
      rw [op]
      exact .inl ⟨valid, by simp [Server.detached, last], by simp [Server.detached, last]⟩
    cases (s.files (msg.mrs 2)).released with
    | invalid | done => exact closed _ _
    | inode inum =>
      simp only [wp_bind, wp_onFs, wp_release, wp_ite, wp_pure]
      exact ⟨fun _ => closed _ _, fun _ => closed _ _⟩

end

theorem handleProcInit_same :
    wp (handleProcInit msg) (fun _ s' => SamePipes s s') (fun _ _ => False) s := by
  refine wp_mono handleProcInit_spec ?_ fun _ _ => id
  rintro reply s' (⟨i, j, k, can, rfl, -⟩ | ⟨-, -, pipes, same⟩)
  · have first : SamePipes s { s with fs := s.fs.retained rootIno } := ⟨rfl, fun _ _ _ _ => rfl⟩
    refine trans_of SamePipes first (trans_of SamePipes (.openFile ?_ ?_) (trans_of SamePipes
      (.openFile ?_ ?_) (.openFile ?_ ?_)))
    all_goals simp [consoleFile, OpenFile.new, OpenKind.IsPipe, can.apart, can.first.2, can.second.2, can.third.2]
  · exact ⟨pipes, fun i _ _ _ => same.keeps (fun _ => isEnd_unused) i⟩

theorem handleInit_inv (inv : PipeInv s t) :
    wp (handleInit rootfs console msg) (fun _ s' => PipeInv s' t) (fun _ _ => True) s := by
  unfold handleInit
  rw [wp_ite]
  refine ⟨fun _ => inv, fun _ => ?_⟩
  unfold resetAll
  rw [wp_bind, wp_modify]
  have empty : PipeInv { s with files := fun _ => {}, pipes := fun _ => {} } t := .empty rfl rfl
  refine empty.always (always_bind (always_onFs _) fun _ =>
    always_bind (always_onFs _) fun _ => always_ite (always_pure _) (always_bind (always_onFs _) fun _ => ?_))
  split
  · exact always_pure _
  · refine always_bind (always_onFs _) fun _ => ?_
    split
    · exact always_pure _
    · exact always_ite (always_pure _) (always_pure _)

/-- The words of an answer, however it is sent. -/
def RequestResult.mrs : RequestResult → Reply
  | .reply mrs => mrs
  | .deferred _ mrs => mrs

theorem handleHostRequest_served {handler : Srv Reply} {post : Reply → Server → Prop}
    (refused : post .err s) (handled : wp handler post (fun _ _ => True) s) :
    wp (handleHostRequest msg handler) (fun result s' => post result.mrs s') (fun _ _ => True) s := by
  unfold handleHostRequest
  cases hostRequest msg with
  | none => exact refused
  | some request =>
    simp only [wp_bind, wp_ite, wp_pure]
    exact wp_mono handled (fun reply s' good => ⟨fun _ => good, fun _ => good⟩) fun _ _ => id

/-- Whatever is asked for, pipes stay in order. -/
theorem handleRequest_served (inv : PipeInv s t) :
    wp (handleRequest rootfs console msg) (fun result s' => Served s t msg result.mrs s')
      (fun _ _ => True) s := by
  have host {handler : Srv Reply} (handled : wp handler (Served s t msg) (fun _ _ => True) s) :
      wp (handleHostRequest msg handler) (fun result s' => Served s t msg result.mrs s') (fun _ _ => True) s :=
    handleHostRequest_served (.refused inv (by decide)) handled
  unfold handleRequest
  cases op : VfsOp.fromRaw msg.label with
  | none => exact .of_inv inv (by rw [op]; rfl)
  | some which =>
    have plain {handler : Srv Reply} (other : which.usesPipes = false)
        (kept : wp handler (fun _ s' => PipeInv s' t) (fun _ _ => True) s) :
        wp handler (Served s t msg) (fun _ _ => True) s :=
      wp_mono kept (fun _ _ inv' => .of_inv inv' (by rw [op]; exact other)) fun _ _ => id
    have quiet {handler : Srv Reply} (other : which.usesPipes = false) (always : Always SamePipes handler) :
        wp handler (Served s t msg) (fun _ _ => True) s := plain other (inv.always always)
    cases which with
    | init =>
      simp only [wp_map]
      exact plain rfl (handleInit_inv inv)
    | procInit =>
      simp only [wp_map]
      exact plain rfl (wp_mono handleProcInit_same (fun _ _ => inv.same) fun _ _ => False.elim)
    | procFork =>
      simp only [wp_map]
      exact quiet rfl always_handleProcFork
    | procExit =>
      simp only [wp_map]
      exact quiet rfl always_handleProcExit
    | «open» => exact host (quiet rfl always_handleOpen)
    | close => exact host (handleClose_served inv op)
    | dup => exact host (handleDup_served inv op)
    | read => exact host (handleRead_served inv op)
    | write => exact host (handleWrite_served inv op)
    | fstat => exact host (quiet rfl (always_samePipes always_handleFstat))
    | chdir => exact host (quiet rfl always_handleChdir)
    | pipe => exact host (wp_mono (handlePipe_served inv op) (fun _ _ => id) fun _ _ => False.elim)
    | unlink => exact host (quiet rfl always_handleUnlink)
    | mkdir => exact host (quiet rfl always_handleMkdir)
    | execOpen => exact host (quiet rfl always_handleExecOpen)
    | execRead => exact host (quiet rfl (always_samePipes always_handleExecRead))
    | execClose => exact host (quiet rfl always_handleExecClose)
    | getcwd => exact .of_inv inv (by rw [op]; rfl)
    | lseek => exact host (quiet rfl (always_samePipes always_handleLseek))

end Traffic

section Runs

variable {rootfs : List UInt8} {t : Traffic}

/-- A request, with what the console says to it and what the host has left in the shared buffer. -/
structure Call where
  msg : Message
  console : Console
  shared : Nat → UInt8

/-- The state in which a request is found. -/
def Server.asked (s : Server) (call : Call) : Server := { s with shared := call.shared }

/-- Serve one request, and keep a record of what goes through the pipes. -/
def serve (rootfs : List UInt8) (state : Server × Traffic) (call : Call) : Option (Server × Traffic) :=
  match handleRequest rootfs call.console call.msg (state.1.asked call) with
  | .ok result s' => some (s', state.2.observe (state.1.asked call) s' call.msg result.mrs)
  | .error _ _ => none

theorem PipeInv.asked (inv : PipeInv s t) (call : Call) : PipeInv (s.asked call) t :=
  inv.same ⟨rfl, fun _ _ _ _ => rfl⟩

theorem served_of_ok {call : Call} {result : RequestResult} (inv : PipeInv s t)
    (done : handleRequest rootfs call.console call.msg (s.asked call) = .ok result s') :
    Served (s.asked call) t call.msg result.mrs s' :=
  (ok_of_wp (handleRequest_served (inv.asked call)) done :)

theorem serve_inv {state : Server × Traffic} (run : Run (serve rootfs) (fun _ _ => True) ({}, {}) state) :
    PipeInv state.1 state.2 := by
  refine run.keeps (fun state => PipeInv state.1 state.2) (.empty rfl rfl) ?_
  intro state call next inv served _
  unfold serve at served
  split at served
  case h_1 result s' done =>
    cases served
    exact (served_of_ok inv done).inv
  case h_2 => cases served

end Runs

/-- In every run of the server, while a pipe has an end, its readers have been given a beginning of what
its writers were told is accepted, and the rest is in its buffer; it has one open file for each end at
most; and no request reports an end of file too early, gives a pipe away that is in use, or leaves
something behind when it fails to make one. -/
theorem pipes_are_fifos (rootfs : List UInt8) {s : Server} {t : Traffic}
    (run : Run (serve rootfs) (fun _ _ => True) ({}, {}) (s, t)) :
    (∀ p < maxPipes, s.ends .pipeRead p ≠ 0 ∨ s.ends .pipeWrite p ≠ 0 →
      t.accepted p = t.returned p ++ (s.pipes p).contents ∧
        (s.pipes p).contents.length = (s.pipes p).len ∧ (s.pipes p).len ≤ pipeBuf) ∧
    (∀ p < maxPipes, (s.pipes p).readers = s.ends .pipeRead p ∧ s.ends .pipeRead p ≤ 1 ∧
      (s.pipes p).writers = s.ends .pipeWrite p ∧ s.ends .pipeWrite p ≤ 1) ∧
    ∀ call result s', handleRequest rootfs call.console call.msg (s.asked call) = .ok result s' →
      Served (s.asked call) t call.msg result.mrs s' := by
  have inv : PipeInv s t := serve_inv run
  refine ⟨fun p small open' => ?_, fun p small => ?_, fun call result s' done => served_of_ok inv done⟩
  · have inOrder := inv.inOrder p small
    refine ⟨?_, ringContents_length _ _ _, inOrder.fits.len⟩
    rcases open' with open' | open'
    · exact inOrder.fifo _ (.inl rfl) open'
    · exact inOrder.fifo _ (.inr rfl) open'
  · have counted := (inv.inOrder p small).counted
    exact ⟨(counted _ (.inl rfl)).1, (counted _ (.inl rfl)).2, (counted _ (.inr rfl)).1, (counted _ (.inr rfl)).2⟩

/-- A request of the host with these words behind the first two. -/
def sampleCall (label : Nat) (words data : List Nat) : Call where
  msg := { label, length := 2 + words.length, mrs := fun i => (hostToVfs :: linuxAbiVersion :: words).getD i 0 }
  console := { init := true, read := fun _ => (.ok, []), write := fun _ => .ok }
  shared := fun i => .ofNat (data.getD i 0)

/-- A pipe is made, three bytes are written to it and two are read. -/
def sampleRun : Option (Server × Traffic) :=
  moves (serve []) ({}, {}) [sampleCall 11 [] [], sampleCall 8 [1, 3] [7, 8, 9], sampleCall 7 [0, 2] []]

theorem sampleRun_made : sampleRun.isSome = true := by decide +kernel

/-- The byte that was not read is in the pipe. -/
theorem pipes_are_fifos_sample : ∃ s t, Run (serve []) (fun _ _ => True) ({}, {}) (s, t) ∧
    t.accepted 0 = [7, 8, 9] ∧ t.returned 0 = [7, 8] ∧ (s.pipes 0).contents = [9] := by
  have run : Run (serve []) (fun _ _ => True) ({}, {}) (sampleRun.get sampleRun_made) :=
    Run.start.of_moves _ (Option.some_get sampleRun_made).symm
  have accepted : (sampleRun.get sampleRun_made).2.accepted 0 = [7, 8, 9] := by decide +kernel
  have returned : (sampleRun.get sampleRun_made).2.returned 0 = [7, 8] := by decide +kernel
  have small : 0 < maxPipes := by decide +kernel
  have open' : (sampleRun.get sampleRun_made).1.ends .pipeRead 0 ≠ 0 := by decide +kernel
  have fifo : (sampleRun.get sampleRun_made).2.accepted 0 = (sampleRun.get sampleRun_made).2.returned 0 ++
      ((sampleRun.get sampleRun_made).1.pipes 0).contents :=
    ((pipes_are_fifos [] run).1 0 small (.inl open')).1
  rw [accepted, returned] at fifo
  have left : ((sampleRun.get sampleRun_made).1.pipes 0).contents = [9] := by simpa using fifo.symm
  exact ⟨_, _, run, accepted, returned, left⟩

end Rel4.Vfs
