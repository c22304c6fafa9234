import Rel4.Lib.Count
import Rel4.Proof.Archive
import Rel4.Vfs.Server

/-! What the steps of a request do to the state of the server. -/

namespace Rel4.Vfs

open Lib

variable {α : Type} {s s' : Server} {fail : Stop → Server → Prop} {file i p : Nat}

section Rules

theorem wp_onFs (prog : Fs α) {post : α → Server → Prop} :
    wp (onFs prog) post fail s ↔
      wp prog (fun a fs => post a { s with fs }) (fun stop fs => fail stop { s with fs }) s.fs := by
  unfold wp onFs
  cases prog s.fs <;> rfl

@[simp] theorem updFile_files (change : OpenFile → OpenFile) :
    (s.updFile i change).files file = if file = i then change (s.files i) else s.files file := by
  unfold Server.updFile
  exact Function.update_apply ..

@[simp] theorem updFile_pipes (change : OpenFile → OpenFile) : (s.updFile i change).pipes = s.pipes := rfl
@[simp] theorem updFile_fs (change : OpenFile → OpenFile) : (s.updFile i change).fs = s.fs := rfl
@[simp] theorem updPipe_files (change : Pipe → Pipe) : (s.updPipe i change).files = s.files := rfl
@[simp] theorem updPipe_fs (change : Pipe → Pipe) : (s.updPipe i change).fs = s.fs := rfl

@[simp] theorem updPipe_pipes (change : Pipe → Pipe) :
    (s.updPipe i change).pipes p = if p = i then change (s.pipes i) else s.pipes p := by
  unfold Server.updPipe
  exact Function.update_apply ..

@[simp] theorem share_files (bytes : List UInt8) : (s.share bytes).files = s.files := rfl
@[simp] theorem share_pipes (bytes : List UInt8) : (s.share bytes).pipes = s.pipes := rfl
@[simp] theorem share_fs (bytes : List UInt8) : (s.share bytes).fs = s.fs := rfl

theorem freeFile_some (free : s.freeFile = some i) : i < maxOpenFiles ∧ (s.files i).used = false := by
  refine ⟨List.mem_range.mp (List.mem_of_find?_eq_some free), ?_⟩
  simpa using List.find?_some free

theorem freePipe_some (free : s.freePipe = some i) :
    i < maxPipes ∧ (s.pipes i).readers = 0 ∧ (s.pipes i).writers = 0 := by
  refine ⟨List.mem_range.mp (List.mem_of_find?_eq_some free), ?_⟩
  simpa using List.find?_some free

theorem fileSnapshot_some {f : OpenFile} (found : s.fileSnapshot i = some f) :
    i < maxOpenFiles ∧ (s.files i).used = true ∧ f = s.files i := by
  unfold Server.fileSnapshot Server.validFile at found
  split_ifs at found with valid
  simp only [Bool.and_eq_true, decide_eq_true_eq] at valid
  exact ⟨valid.1, valid.2, (Option.some.inj found).symm⟩

/-- How many entries of the table have a property. -/
def Server.openCount (s : Server) (q : OpenFile → Bool) : Nat :=
  (List.range maxOpenFiles).countP fun i => q (s.files i)

theorem openCount_congr {q : OpenFile → Bool} (same : ∀ i, q (s'.files i) = q (s.files i)) :
    s'.openCount q = s.openCount q := by
  simp only [Server.openCount, same]

theorem openCount_updFile {q : OpenFile → Bool} (small : i < maxOpenFiles) (change : OpenFile → OpenFile) :
    (s.updFile i change).openCount q + (if q (s.files i) then 1 else 0) =
      s.openCount q + if q (change (s.files i)) then 1 else 0 :=
  countP_update List.nodup_range (List.mem_range.mpr small)

theorem openCount_open {q : OpenFile → Bool} (small : i < maxOpenFiles) (without : q (s.files i) = false)
    (new : OpenFile) :
    (s.updFile i fun _ => new).openCount q = s.openCount q + if q new then 1 else 0 := by
  have counted : (s.updFile i fun _ => new).openCount q + _ = s.openCount q + _ := openCount_updFile small _
  simpa [without] using counted

/-- A file that was just opened. -/
def OpenFile.new (kind : OpenKind) (node aux : Nat) (readable writable : Bool) : OpenFile :=
  { used := true, refs := 1, kind, node, aux, readable, writable }

theorem wp_allocFile {kind : OpenKind} {node aux : Nat} {readable writable : Bool}
    {post : Option Nat → Server → Prop} :
    wp (allocFile kind node aux readable writable) post fail s ↔
      (∀ i, s.freeFile = some i →
        post (some i) (s.updFile i fun _ => .new kind node aux readable writable)) ∧
      (s.freeFile = none → post none s) := by
  unfold allocFile
  simp only [wp_bind, wp_get]
  cases s.freeFile with
  | some i => simp [OpenFile.new]
  | none => simp

theorem wp_allocPipe {post : Option Nat → Server → Prop} :
    wp allocPipe post fail s ↔
      (∀ i, s.freePipe = some i → post (some i) (s.updPipe i fun _ => {})) ∧
      (s.freePipe = none → post none s) := by
  unfold allocPipe
  simp only [wp_bind, wp_get]
  cases s.freePipe <;> simp

theorem wp_clearPipe {post : Unit → Server → Prop} :
    wp (clearPipe p) post fail s ↔ post () (if p < maxPipes then s.updPipe p fun _ => {} else s) := by
  unfold clearPipe
  split_ifs <;> rfl

theorem wp_openPipe {post : Bool → Server → Prop} (small : p < maxPipes) :
    wp (openPipe p) post fail s ↔
      post true (s.updPipe p fun p => { p with readers := 1, writers := 1 }) := by
  unfold openPipe
  rw [if_neg (by omega)]
  rfl

end Rules

section Closing

/-- How many ends of a kind a pipe counts. -/
def Pipe.users (pipe : Pipe) : OpenKind → Nat
  | .pipeRead => pipe.readers
  | .pipeWrite => pipe.writers
  | _ => 0

/-- The pipe with one end of a kind less. -/
def Pipe.leave (kind : OpenKind) (pipe : Pipe) : Pipe :=
  match kind with
  | .pipeRead => { pipe with readers := pipe.readers - 1 }
  | .pipeWrite => { pipe with writers := pipe.writers - 1 }
  | _ => pipe

/-- Nothing is counted below zero. -/
theorem Pipe.leave_idle {pipe : Pipe} {kind : OpenKind} (none : pipe.users kind = 0) :
    pipe.leave kind = pipe := by
  obtain ⟨buf, readPos, len, readers, writers⟩ := pipe
  cases kind <;> simp_all [Pipe.users, Pipe.leave]

/-- The server without an open file. -/
def Server.closeFile (s : Server) (file : Nat) : Server :=
  (s.updFile file fun _ => {}).updPipe (s.files file).aux fun pipe =>
    if (s.files file).aux < maxPipes then pipe.leave (s.files file).kind else pipe

theorem closeFile_fs : (s.closeFile file).fs = s.fs := rfl

theorem closeFile_idle (idle : (s.files file).aux < maxPipes →
    (s.pipes (s.files file).aux).users (s.files file).kind = 0) :
    s.closeFile file = s.updFile file fun _ => {} := by
  refine Server.ext rfl rfl ?_ rfl
  refine Function.update_eq_self_iff.mpr ?_
  split_ifs with small
  · exact Pipe.leave_idle (idle small)
  · rfl

/-- What is left to do for a file that was closed. -/
def OpenFile.released (old : OpenFile) : ReleaseResult :=
  match old.kind with
  | .ramFile | .ramDir => .inode old.node
  | _ => .done

theorem validFile_eq_false :
    s.validFile file = false ↔ maxOpenFiles ≤ file ∨ (s.files file).used = false := by
  simp [Server.validFile, Classical.or_iff_not_imp_left]

theorem validFile_iff :
    s.validFile file = true ↔ file < maxOpenFiles ∧ (s.files file).used = true := by
  simp [Server.validFile]

/-- The three things a close can come to. -/
theorem wp_detachFile {post : ReleaseResult → Server → Prop} :
    wp (detachFile file) post fail s ↔
      (s.validFile file = false → post .invalid s) ∧
      (s.validFile file = true → 1 < (s.files file).refs →
        post .done (s.updFile file fun f => { f with refs := f.refs - 1 })) ∧
      (s.validFile file = true → ¬ 1 < (s.files file).refs →
        post (s.files file).released (s.closeFile file)) := by
  unfold detachFile
  simp only [wp_bind, wp_get, wp_ite, wp_pure, wp_set]
  rw [← validFile_eq_false]
  cases valid : s.validFile file with
  | false => simp
  | true =>
    simp only [Bool.true_eq_false, false_imp_iff, not_false_eq_true, true_imp_iff, true_and]
    refine and_congr_right fun _ => imp_congr_right fun _ => ?_
    unfold OpenFile.released
    cases kind : (s.files file).kind with
    | pipeRead | pipeWrite =>
      simp only [wp_bind, wp_ite, wp_pure, wp_modify]
      by_cases some : (s.files file).aux < maxPipes ∧
          0 < (s.pipes (s.files file).aux).users (s.files file).kind
      · rw [kind, Pipe.users] at some
        simp [some, Server.closeFile, kind, Pipe.leave]
      · -- A pipe that counts no such end is left as it is.
        rw [closeFile_idle (by omega)]
        rw [kind, Pipe.users] at some
        simp [some]
    | closed | ramFile | ramDir | console =>
      rw [closeFile_idle (by simp [kind, Pipe.users])]
      rfl

/-- A file that was just opened is closed again without a trace. -/
theorem wp_releaseFile_new {post : Bool → Server → Prop} (valid : s.validFile file = true)
    (single : (s.files file).refs = 1)
    (idle : (s.pipes (s.files file).aux).users (s.files file).kind = 0)
    (done : (s.files file).released = .done) :
    wp (releaseFile file) post fail s ↔ post true (s.updFile file fun _ => {}) := by
  unfold releaseFile
  rw [wp_bind, wp_detachFile, closeFile_idle fun _ => idle]
  simp only [valid, single, Bool.true_eq_false, false_imp_iff, true_imp_iff, Nat.lt_irrefl, true_and,
    not_false_eq_true, done]
  rfl

/-- A file for the console. -/
def consoleFile : OpenFile := .new .console consoleIno 0 true true

theorem wp_releaseFile_console {post : Bool → Server → Prop} (small : file < maxOpenFiles)
    (here : s.files file = consoleFile) :
    wp (releaseFile file) post fail s ↔ post true (s.updFile file fun _ => {}) := by
  refine wp_releaseFile_new ?_ ?_ ?_ ?_ <;>
    simp [Server.validFile, small, here, consoleFile, OpenFile.new, Pipe.users, OpenFile.released]

/-- No file has been opened or closed. -/
def Server.SameFiles (s s' : Server) : Prop :=
  ∀ i, s'.files i = s.files i ∨ (s.files i).used = false ∧ (s'.files i).used = false

theorem Server.SameFiles.refl (s : Server) : s.SameFiles s := fun _ => .inl rfl

/-- Slots that were free are free again. -/
theorem Server.SameFiles.of_cleared (slots : List Nat) (unused : ∀ i ∈ slots, (s.files i).used = false)
    (files : ∀ i, s'.files i = if i ∈ slots then {} else s.files i) : s.SameFiles s' := by
  intro i
  rw [files]
  split_ifs with here
  · exact .inr ⟨unused i here, rfl⟩
  · exact .inl rfl

/-- What only open files have is the same. -/
theorem Server.SameFiles.keeps {q : OpenFile → Bool} (same : s.SameFiles s')
    (closed : ∀ f : OpenFile, f.used = false → q f = false) (i : Nat) :
    q (s'.files i) = q (s.files i) := by
  rcases same i with same | ⟨before, after⟩
  · rw [same]
  · rw [closed _ before, closed _ after]

/-- The server with files of the console for a first process, which stands in the root directory. -/
def Server.started (s : Server) (i j k : Nat) : Server :=
  ((({ s with fs := s.fs.retained rootIno } : Server).updFile i fun _ => consoleFile).updFile j
    fun _ => consoleFile).updFile k fun _ => consoleFile

/-- Slots that are free for the first process. -/
structure Server.CanStart (s : Server) (i j k : Nat) : Prop where
  root : s.fs.CanRetain rootIno
  first : i < maxOpenFiles ∧ (s.files i).used = false
  second : j < maxOpenFiles ∧ (s.files j).used = false
  third : k < maxOpenFiles ∧ (s.files k).used = false
  apart : j ≠ i ∧ k ≠ i ∧ k ≠ j

/-- The first process gets three files for the console, or nothing. -/
theorem handleProcInit_spec {msg : Message} :
    wp (handleProcInit msg)
      (fun reply s' => (∃ i j k, s.CanStart i j k ∧ s' = s.started i j k ∧
          reply = { status := statusOk, first := i, second := j, third := k }) ∨
        reply = .err ∧ s'.fs = s.fs ∧ s'.pipes = s.pipes ∧ s.SameFiles s')
      (fun _ _ => False) s := by
  unfold handleProcInit
  simp only [wp_bind, wp_ite, wp_pure, wp_onFs, wp_retain]
  refine ⟨fun _ => .inr ⟨trivial, trivial, trivial, .refl s⟩, fun _ => ?_⟩
  by_cases can : s.fs.CanRetain rootIno
  rotate_left
  · have kept : s.fs.retained rootIno = s.fs := if_neg can
    simp only [can, decide_false, Bool.not_false, not_true_eq_false, false_imp_iff, true_imp_iff, and_true, kept]
    exact .inr ⟨trivial, trivial, trivial, .refl s⟩
  simp only [can, decide_true, Bool.not_true, Bool.false_eq_true, not_false_eq_true, false_imp_iff, true_imp_iff,
    true_and, wp_allocFile]
  have undone := released_retained can
  set mid : Server := { s with fs := s.fs.retained rootIno } with midEq
  have files : mid.files = s.files := rfl
  -- Whatever fails, the files opened so far are closed again and the root is let go.
  refine ⟨fun i freeFirst => ?_, fun _ => ?_⟩
  rotate_left
  · simp only [wp_bind, wp_onFs, wp_release, wp_pure]
    exact .inr ⟨trivial, undone, rfl, .refl s⟩
  obtain ⟨smallFirst, unusedFirst⟩ := freeFile_some freeFirst
  simp only [wp_bind, wp_allocFile]
  refine ⟨fun j freeSecond => ?_, fun _ => ?_⟩
  rotate_left
  · rw [wp_releaseFile_console smallFirst (by simp [consoleFile])]
    simp only [wp_onFs, wp_release, wp_pure, updFile_fs]
    refine .inr ⟨trivial, undone, rfl, .of_cleared [i] (by simpa using unusedFirst) fun j => ?_⟩
    by_cases isFirst : j = i <;> simp [isFirst, files]
  obtain ⟨smallSecond, unusedSecond⟩ := freeFile_some freeSecond
  have apart : j ≠ i := by
    rintro rfl
    simp [OpenFile.new] at unusedSecond
  simp only [updFile_files, apart, if_false] at unusedSecond
  refine ⟨fun k freeThird => ?_, fun _ => ?_⟩
  rotate_left
  · rw [wp_releaseFile_console smallFirst (by simp [consoleFile, apart.symm])]
    rw [wp_releaseFile_console smallSecond (by simp [consoleFile, apart])]
    simp only [wp_onFs, wp_release, wp_pure, updFile_fs]
    refine .inr ⟨trivial, undone, rfl, .of_cleared [i, j] ?_ fun k => ?_⟩
    · simpa using ⟨unusedFirst, unusedSecond⟩
    · by_cases isFirst : k = i <;> by_cases isSecond : k = j <;> simp [isFirst, isSecond, files]
  obtain ⟨smallThird, unusedThird⟩ := freeFile_some freeThird
  have apart' : k ≠ i ∧ k ≠ j := by
    constructor <;> rintro rfl <;> simp [OpenFile.new] at unusedThird
  simp only [updFile_files, apart', if_false] at unusedThird
  simp only [wp_pure]
  exact .inl ⟨i, j, k, ⟨can, ⟨smallFirst, unusedFirst⟩, ⟨smallSecond, unusedSecond⟩, ⟨smallThird, unusedThird⟩,
    apart, apart'⟩, rfl, rfl⟩

end Closing

section Outline

variable {msg : Message} {rootfs : List UInt8} {maxLen : Nat}

/-- What matters about an open file for those who count them. -/
def OpenFile.outline (f : OpenFile) : Option (OpenKind × Nat × Nat) :=
  if f.used then some (f.kind, f.node, f.aux) else none

/-- The same files are open, on the same things. -/
structure SameOutline (s s' : Server) : Prop where
  fs : s'.fs = s.fs
  pipes : s'.pipes = s.pipes
  outline : ∀ i, (s'.files i).outline = (s.files i).outline

instance : Std.Refl SameOutline := ⟨fun _ => ⟨rfl, rfl, fun _ => rfl⟩⟩

instance : IsTrans Server SameOutline := ⟨fun _ _ _ first second =>
  ⟨second.fs.trans first.fs, second.pipes.trans first.pipes, fun i =>
    (second.outline i).trans (first.outline i)⟩⟩

theorem SameOutline.updFile {change : OpenFile → OpenFile}
    (same : (change (s.files i)).outline = (s.files i).outline) : SameOutline s (s.updFile i change) := by
  refine ⟨rfl, rfl, fun j => ?_⟩
  rw [updFile_files]
  split_ifs with here
  · rw [here, same]
  · rfl

theorem always_retainFile : Always SameOutline (retainFile file) := by
  intro s
  unfold Follows retainFile
  simp only [wp_bind, wp_get, wp_ite, wp_pure, wp_set]
  exact ⟨fun _ => Std.Refl.refl s, fun _ => .updFile rfl⟩

theorem always_setFileOffset {offset : Nat} : Always SameOutline (setFileOffset file offset) := by
  unfold setFileOffset
  exact always_ite (always_modify fun _ => .updFile rfl) (always_pure _)

theorem always_addFileOffset {amount : Nat} : Always SameOutline (addFileOffset file amount) := by
  unfold addFileOffset
  exact always_ite (always_modify fun _ => .updFile rfl) (always_pure _)

theorem always_releaseFileIo : Always SameOutline (releaseFileIo file) := by
  unfold releaseFileIo
  exact always_ite (always_modify fun _ => .updFile rfl) (always_pure _)

theorem always_acquireFileIo : Always SameOutline (acquireFileIo file) := by
  intro s
  unfold Follows acquireFileIo
  simp only [wp_bind, wp_get, wp_ite, wp_pure, wp_set]
  exact ⟨fun _ => Std.Refl.refl s, fun _ => ⟨fun _ => Std.Refl.refl s, fun _ => .updFile rfl⟩⟩

theorem always_share (bytes : List UInt8) :
    Always SameOutline (modify fun s => s.share bytes : Srv PUnit) :=
  always_modify fun _ => ⟨rfl, rfl, fun _ => rfl⟩

theorem always_readRamFile : Always SameOutline (readRamFile rootfs file maxLen) := by
  have finish (reply : Reply) : Always SameOutline (do releaseFileIo file; pure reply : Srv Reply) :=
    always_bind always_releaseFileIo fun _ => always_pure _
  unfold readRamFile
  refine always_bind always_acquireFileIo fun ready => always_ite (always_pure _) ?_
  refine always_bind always_get fun s => ?_
  split
  · refine always_bind always_get fun s => ?_
    dsimp only
    split
    · exact always_bind (always_share _) fun _ => always_bind always_addFileOffset fun _ =>
        always_bind (always_pure _) finish
    · exact always_bind (always_pure _) finish
    · exact always_bind (always_throw _) finish
  · exact finish _

theorem always_handleDup : Always SameOutline (handleDup msg) := by
  unfold handleDup
  exact always_ite (always_pure _) (always_bind always_retainFile fun _ =>
    always_ite (always_pure _) (always_pure _))

theorem always_handleFstat : Always SameOutline (handleFstat msg) := by
  unfold handleFstat
  refine always_ite (always_pure _) (always_bind always_get fun s => ?_)
  split
  · split
    all_goals first | exact always_pure _ | (split <;> exact always_pure _)
  · exact always_pure _

theorem always_handleExecRead : Always SameOutline (handleExecRead rootfs msg) := by
  unfold handleExecRead
  refine always_ite (always_pure _) (always_bind always_get fun s => ?_)
  split
  · exact always_bind (always_share _) fun _ => always_pure _
  · exact always_pure _
  · exact always_throw _

theorem always_handleLseek : Always SameOutline (handleLseek msg) := by
  unfold handleLseek
  refine always_ite (always_pure _) (always_bind always_get fun s => ?_)
  split
  · refine always_ite (always_pure _) ?_
    split
    · exact always_bind always_setFileOffset fun _ => always_pure _
    · exact always_pure _
  · exact always_pure _

end Outline

end Rel4.Vfs
