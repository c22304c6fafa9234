import Rel4.Host.FileCalls
import Rel4.Proof.ServerRules
import Rel4.Proof.UserMemory
import Rel4.Proof.WriteFails

/-!
Reading and writing a regular file through a descriptor.

The host cuts a call into requests, and what comes of them all is what one request for everything
would have come to. A read ends where the bytes of the file end, which a write that failed may have
left before the end its size tells.
-/

namespace Rel4.Host

open Lib Vfs

variable {c : Caller} {rootfs : List UInt8} {s : Server} {h h' : FileHost} {fs fs' : Ramfs}
  {file n offset id request fd len count done dst fuel : Nat} {bytes data : List UInt8}

section Requests

variable {console : Console} {fail : Stop → Server → Prop}

theorem wp_run {σ ε α : Type} {t : σ} (prog : EStateM ε σ α) :
    wp prog (fun a t' => prog t = .ok a t') (fun e t' => prog t = .error e t') t := by
  unfold wp
  split <;> assumption

theorem wp_trivial {σ ε α : Type} {t : σ} (prog : EStateM ε σ α) :
    wp prog (fun _ _ => True) (fun _ _ => True) t :=
  wp_mono (wp_run prog) (fun _ _ _ => trivial) fun _ _ _ => trivial

/-- An open file for a regular file, that no one else is reading or writing. -/
structure Opened (s : Server) (file n offset : Nat) : Prop where
  small : file < maxOpenFiles
  used : (s.files file).used = true
  kind : (s.files file).kind = .ramFile
  node : (s.files file).node = n
  reached : (s.files file).offset = offset
  word : offset ≤ usizeMax
  idle : (s.files file).busy = false

/-- The server after a transfer of some bytes. -/
def advanced (s : Server) (file count : Nat) : Server :=
  s.updFile file fun f => { f with offset := min (f.offset + count) usizeMax }

/-- A transfer changes neither what a file is nor what may be done with it. -/
theorem advanced_file : ((advanced s file count).files file) =
    { s.files file with offset := min ((s.files file).offset + count) usizeMax } := by
  simp [advanced]

theorem Opened.advanced (opened : Opened s file n offset) (fits : offset + count ≤ usizeMax) :
    Opened (advanced s file count) file n (offset + count) := by
  refine ⟨opened.small, ?_, ?_, ?_, ?_, fits, ?_⟩ <;> rw [advanced_file]
  · exact opened.used
  · exact opened.kind
  · exact opened.node
  · exact (congrArg (fun reached => min (reached + count) usizeMax) opened.reached).trans
      (Nat.min_eq_left fits)
  · exact opened.idle

theorem Opened.of_files {s' : Server} (opened : Opened s file n offset)
    (same : s'.files = s.files) : Opened s' file n offset := by
  obtain ⟨small, used, kind, node, reached, word, idle⟩ := opened
  constructor <;> first | rw [same] | skip
  all_goals assumption

theorem Opened.snapshot (opened : Opened s file n offset) :
    s.fileSnapshot file = some (s.files file) := by
  simp [Server.fileSnapshot, Server.validFile, opened.small, opened.used]

/-- A file that is in use for a transfer. -/
def marked (s : Server) (file : Nat) : Server := s.updFile file fun f => { f with busy := true }

theorem wp_acquireFileIo {post : Bool → Server → Prop} (opened : Opened s file n offset) :
    wp (acquireFileIo file) post fail s ↔ post true (marked s file) := by
  simp [acquireFileIo, marked, opened.used, opened.idle, Nat.not_le.mpr opened.small]

theorem wp_addFileOffset {post : Unit → Server → Prop} (small : file < maxOpenFiles) :
    wp (addFileOffset file count) post fail s ↔ post () (advanced s file count) := by
  simp [addFileOffset, advanced, small]

theorem wp_releaseFileIo {post : Unit → Server → Prop} (small : file < maxOpenFiles) :
    wp (releaseFileIo file) post fail s ↔
      post () (s.updFile file fun f => { f with busy := false }) := by
  simp [releaseFileIo, small]

theorem marked_snapshot (opened : Opened s file n offset) :
    (marked s file).fileSnapshot file = some { s.files file with busy := true } := by
  simp [Server.fileSnapshot, Server.validFile, marked, opened.small, opened.used]

/-- The mark is gone again after the transfer. -/
theorem advanced_marked (idle : (s.files file).busy = false) :
    (advanced (marked s file) file count).updFile file (fun f => { f with busy := false }) =
      advanced s file count := by
  unfold Host.advanced Host.marked Server.updFile
  simp only [Function.update_idem, Function.update_self]
  rw [← idle]

theorem wp_readRamFile (opened : Opened s file n offset) {post : Reply → Server → Prop}
    (read : s.fs.readInode rootfs n offset len = .ok bytes) :
    wp (readRamFile rootfs file len) post fail s ↔
      post { status := statusOk, first := bytes.length, second := OpenKind.ramFile.raw }
        (advanced (s.share bytes) file bytes.length) := by
  have again : (marked s file).fs.readInode rootfs (s.files file).node (s.files file).offset len =
      .ok bytes := by
    rw [opened.node, opened.reached]
    exact read
  have back : (advanced ((marked s file).share bytes) file bytes.length).updFile file _ =
      advanced (s.share bytes) file bytes.length := advanced_marked (s := s.share bytes) opened.idle
  unfold readRamFile
  simp only [wp_bind, wp_acquireFileIo opened, Bool.not_true, Bool.false_eq_true, if_false, wp_get,
    marked_snapshot opened, again, wp_modify, wp_addFileOffset opened.small, wp_pure,
    wp_releaseFileIo opened.small, back, opened.kind]

/-- A message from the host is a request that is answered later. -/
theorem wp_handleHostRequest {op : Nat} (some : id ≠ 0) {handler : Srv Reply}
    {post : RequestResult → Server → Prop} :
    wp (handleHostRequest (ioMessage op id file request) handler) post fail s ↔
      wp handler (fun reply => post (.deferred id reply)) fail s := by
  simp [handleHostRequest, hostRequest, ioMessage, hostToVfsAsync, hostToVfs, some]

theorem ioMessage_valid {op : Nat} (some : id ≠ 0) :
    validHost (ioMessage op id file request) = true := by
  simp [validHost, hostRequest, ioMessage, hostToVfsAsync, hostToVfs, some]

theorem ioMessage_words (op : Nat) : (ioMessage op id file request).mrs 2 = file ∧
    (ioMessage op id file request).mrs 3 = request := ⟨rfl, rfl⟩

/-- The answer to a read of a regular file. -/
theorem handleRequest_read (opened : Opened s file n offset)
    (readable : (s.files file).readable = true) (some : id ≠ 0)
    (read : s.fs.readInode rootfs n offset (min request maxIoBytes) = .ok bytes) :
    handleRequest rootfs console (ioMessage vfsOpRead id file request) s =
      .ok (.deferred id
          { status := statusOk, first := bytes.length, second := OpenKind.ramFile.raw })
        (advanced (s.share bytes) file bytes.length) := by
  have op : VfsOp.fromRaw (ioMessage vfsOpRead id file request).label = Option.some .read := rfl
  refine run_eq_ok_of_wp ?_
  simp only [handleRequest, op, wp_handleHostRequest some, handleRead, ioMessage_valid some,
    ioMessage_words, Bool.not_true, Bool.false_eq_true, if_false, wp_bind, wp_get, opened.snapshot,
    readable, opened.kind, wp_readRamFile opened read, and_self]

/-- The answer to a write to a regular file, by what the file system says. -/
theorem handleRequest_write (opened : Opened s file n offset)
    (writable : (s.files file).writable = true) (some : id ≠ 0)
    (shared : s.sharedBytes (min request maxIoBytes) = data) :
    wp (handleRequest rootfs console (ioMessage vfsOpWrite id file request))
      (fun result s' =>
        (∃ count fs', writeInode rootfs n offset data s.fs = .ok count fs' ∧
          result = .deferred id { status := statusOk, first := count, second := FileKind.raw .file } ∧
          s' = advanced { s with fs := fs' } file count) ∨
        ∃ e, result = .deferred id (.errCode e))
      (fun _ _ => True) s := by
  have op : VfsOp.fromRaw (ioMessage vfsOpWrite id file request).label = Option.some .write := rfl
  have again : (marked s file).sharedBytes (min request maxIoBytes) = data := shared
  simp only [handleRequest, op, wp_handleHostRequest some, handleWrite, ioMessage_valid some,
    ioMessage_words, Bool.not_true, Bool.false_eq_true, if_false, wp_bind, wp_get, opened.snapshot,
    writable, opened.kind, writeRamFile, wp_acquireFileIo opened, marked_snapshot opened,
    opened.node, opened.reached, again, wp_onFs, Vfs.wp_attempt]
  refine wp_mono (wp_run _) ?_ ?_
  · intro count fs' written
    have back : (advanced { marked s file with fs := fs' } file count).updFile file _ =
        advanced { s with fs := fs' } file count :=
      advanced_marked (s := { s with fs := fs' }) opened.idle
    simp only [wp_addFileOffset opened.small, wp_pure, wp_releaseFileIo opened.small, back]
    exact .inl ⟨count, fs', written, rfl, rfl⟩
  · intro stop fs' _
    cases stop with
    | errno e =>
      simp only [wp_pure, wp_releaseFileIo opened.small]
      exact .inr ⟨e, rfl⟩
    | _ => trivial

end Requests

/-- A descriptor that stands for a regular file, in a state that operations lead to. -/
structure Describes (c : Caller) (h : FileHost) (fd file n offset : Nat) : Prop where
  found : fdFile c.descriptors fd = some file
  opened : Opened h.server file n offset
  unpacked : Unpacked c.rootfs h.server.fs
  archive : c.rootfs.length ≤ usizeMax
  small : n < maxInodes
  used : (h.server.fs.inodes n).used = true
  kind : (h.server.fs.inodes n).kind = .file

/-- The part of the archive that a file has is all of it, wherever operations lead. -/
theorem Describes.regular (d : Describes c h fd file n offset) :
    h.server.fs.Regular c.rootfs n :=
  ⟨d.small, d.used, d.kind, fun base len src =>
    (d.unpacked.sound.2.embedded n base len d.used src).2⟩

/-- No file has more bytes than a word can count. -/
theorem Describes.bounded (d : Describes c h fd file n offset) :
    h.server.fs.stored n ≤ usizeMax := by
  have own := d.unpacked.sound.1.owned.own_used d.small d.used
  have archive := d.archive
  unfold Ramfs.stored
  cases src : (h.server.fs.inodes n).src with
  | none => exact Nat.zero_le _
  | embedded base length =>
    have inside := (d.regular.archived base length src).2
    dsimp only
    omega
  | pages ps =>
    rw [src] at own
    have few : ps.length ≤ maxDataPages := own.length
    have : maxDataPages * page ≤ usizeMax := by decide
    exact (Nat.mul_le_mul_right page few).trans this

section Reads

/-- The bytes that were shared last. -/
theorem sharedBytes_share (bytes : List UInt8) :
    (s.share bytes).sharedBytes bytes.length = bytes := by
  refine List.ext_getElem (by simp [Server.sharedBytes]) fun i low high => ?_
  simp [Server.sharedBytes, Server.share, List.getElem?_eq_getElem high]

/-- Where a read of a file ends: with its size, or earlier with its bytes. -/
def readEnd (fs : Ramfs) (n : Nat) : Nat := min (fs.inodes n).size (fs.stored n)

/-- The bytes that a read from a position on finds. -/
def fileBytes (rootfs : List UInt8) (fs : Ramfs) (n offset len : Nat) : List UInt8 :=
  (List.range' offset (min len (readEnd fs n - offset))).map (fs.byteOf rootfs n)

@[simp] theorem fileBytes_length :
    (fileBytes rootfs fs n offset len).length = min len (readEnd fs n - offset) := by
  simp [fileBytes]

/-- Only the number of bytes that are there matters. -/
theorem fileBytes_congr {len' : Nat}
    (same : min len (readEnd fs n - offset) = min len' (readEnd fs n - offset)) :
    fileBytes rootfs fs n offset len = fileBytes rootfs fs n offset len' := by
  rw [fileBytes, same, fileBytes]

/-- A piece, and what follows it. -/
theorem fileBytes_append (rootfs : List UInt8) {piece : Nat} (within : piece ≤ len)
    (full : piece ≤ readEnd fs n - offset) :
    fileBytes rootfs fs n offset piece ++ fileBytes rootfs fs n (offset + piece) (len - piece) =
      fileBytes rootfs fs n offset len := by
  unfold fileBytes
  rw [Nat.min_eq_left full, ← List.map_append, List.range'_append_1]
  congr 2
  omega

theorem fileBytes_getD {k : Nat} (low : k < min len (readEnd fs n - offset)) :
    (fileBytes rootfs fs n offset len).getD k 0 = fs.byteOf rootfs n (offset + k) := by
  simp [fileBytes, low]

/-- What a read of some bytes leaves: the bytes are in the memory, and the file is behind them. -/
structure Delivered (c : Caller) (h h' : FileHost) (file n offset dst : Nat) (bytes : List UInt8) :
    Prop where
  memory : h'.memory = h.memory.put c.child.pid dst bytes
  fs : h'.server.fs = h.server.fs
  opened : Opened h'.server file n (offset + bytes.length)
  readable : (h'.server.files file).readable = (h.server.files file).readable

theorem Delivered.none (opened : Opened h.server file n offset) :
    Delivered c h h file n offset dst [] := ⟨Memory.put_nil.symm, rfl, opened, rfl⟩

/-- Two reads, the second where the first ended. -/
theorem Delivered.append {h'' : FileHost} {xs ys : List UInt8}
    (first : Delivered c h h' file n offset dst xs)
    (second : Delivered c h' h'' file n (offset + xs.length) (dst + xs.length) ys) :
    Delivered c h h'' file n offset dst (xs ++ ys) := by
  refine ⟨?_, second.fs.trans first.fs, ?_, second.readable.trans first.readable⟩
  · rw [second.memory, first.memory, Memory.put_append.1]
  · rw [List.length_append, ← Nat.add_assoc]
    exact second.opened

theorem Delivered.describes (delivered : Delivered c h h' file n offset dst bytes)
    (d : Describes c h fd file n offset) : Describes c h' fd file n (offset + bytes.length) := by
  obtain ⟨found, -, unpacked, archive, small, used, kind⟩ := d
  rw [← delivered.fs] at unpacked used kind
  exact ⟨found, delivered.opened, unpacked, archive, small, used, kind⟩

/-- One round: a piece is asked for, and copied to where it belongs. -/
theorem readRound_asks (dst : Nat) (d : Describes c h fd file n offset)
    (readable : (h.server.files file).readable = true) (more : done < len) :
    let bytes := fileBytes c.rootfs h.server.fs n offset (min (len - done) pageSize)
    ∃ mid : FileHost, mid.memory = h.memory ∧
      mid.server = advanced (h.server.share bytes) file bytes.length ∧
      mid.server.sharedBytes (min bytes.length maxIoBytes) = bytes ∧
      readRound c fd dst len done h =
        let (copied, h) := copyVfsSharedBufferToChild c (dst + done) bytes.length mid
        if !copied then (.returned (some (-efault)), h)
        else if bytes.length = 0 ∨ len ≤ done + bytes.length ∨
            c.descriptors.fdSerial fd = false then
          (.returned (some ((done + bytes.length : Nat) : Int)), h)
        else (.again (done + bytes.length), h) := by
  intro bytes
  have pages : 0 < pageSize ∧ pageSize ≤ maxIoBytes := by decide
  have wanted : min (len - done) pageSize ≠ 0 := by omega
  have few : bytes.length ≤ min (len - done) pageSize := by simp [bytes]
  have read : h.server.fs.readInode c.rootfs n offset
      (min (min (len - done) pageSize) maxIoBytes) = .ok bytes := by
    rw [Nat.min_eq_left (by omega)]
    exact d.regular.read offset _
  let reply : Reply :=
    { status := statusOk, first := bytes.length, second := OpenKind.ramFile.raw }
  let mid := asked h (some reply) (advanced (h.server.share bytes) file bytes.length)
  have answer : vfsRpcLocked c vfsOpRead file (min (len - done) pageSize) h = (some reply, mid) := by
    rw [vfsRpcLocked, handleRequest_read d.opened readable h.someId read]
  refine ⟨mid, rfl, rfl, ?_, ?_⟩
  · rw [Nat.min_eq_left (by omega)]
    exact sharedBytes_share bytes
  · have ready : reply.status ≠ statusWouldBlock := by
      show statusOk ≠ statusWouldBlock
      decide
    have short : ¬ min (len - done) pageSize < reply.first := Nat.not_lt.mpr few
    rw [readRound, d.found]
    simp only [if_neg wanted, answer, if_neg ready, if_neg short, ne_eq, not_true_eq_false,
      if_false, reply]

/-- One round, with room for the piece: it arrives, and the loop ends or goes on. -/
theorem readRound_piece (dst : Nat) (d : Describes c h fd file n offset)
    (serial : c.descriptors.fdSerial fd = true)
    (readable : (h.server.files file).readable = true) (more : done < len) :
    let bytes := fileBytes c.rootfs h.server.fs n offset (min (len - done) pageSize)
    h.memory.Accessible c.child.pid (dst + done) bytes.length true →
    ∃ h', Delivered c h h' file n offset (dst + done) bytes ∧
      readRound c fd dst len done h =
        (if bytes.length = 0 ∨ len ≤ done + bytes.length then
            .returned (some ((done + bytes.length : Nat) : Int))
          else .again (done + bytes.length), h') := by
  intro bytes accessible
  obtain ⟨mid, memory, server, shared, round⟩ := readRound_asks dst d readable more
  rw [← memory] at accessible
  have copied : copyVfsSharedBufferToChild c (dst + done) bytes.length mid =
      (true, { mid with memory := mid.memory.put c.child.pid (dst + done) bytes }) := by
    rw [copyVfsSharedBufferToChild, shared, Memory.copyToChild_eq accessible]
  have there : Opened (h.server.share bytes) file n offset := d.opened.of_files rfl
  have bounded : offset + bytes.length ≤ usizeMax := by
    have := d.bounded
    have := d.opened.word
    simp only [bytes, fileBytes_length, readEnd]
    omega
  refine ⟨{ mid with memory := mid.memory.put c.child.pid (dst + done) bytes },
    ⟨by rw [memory], by rw [server]; rfl, server ▸ there.advanced bounded, ?_⟩, ?_⟩
  · rw [server, advanced_file]
    rfl
  · rw [round]
    simp only [copied, Bool.not_true, Bool.false_eq_true, if_false, serial, Bool.true_eq_false,
      or_false, bytes]
    split <;> rfl

/-- A read, by the rounds that are left: as many bytes arrive as there are. -/
theorem readRound_reads (serial : c.descriptors.fdSerial fd = true) (fuel : Nat) :
    ∀ (done offset : Nat) (h : FileHost), done ≤ len → len - done < fuel →
      Describes c h fd file n offset → (h.server.files file).readable = true →
      let bytes := fileBytes c.rootfs h.server.fs n offset (len - done)
      h.memory.Accessible c.child.pid (dst + done) bytes.length true →
      ∃ h', Delivered c h h' file n offset (dst + done) bytes ∧
        rounds (readRound c fd dst len) fuel done h =
          (some ((done + bytes.length : Nat) : Int), h') := by
  induction fuel with
  | zero => exact fun done offset h _ short => absurd short (Nat.not_lt_zero _)
  | succ fuel ih =>
    intro done offset h within enough d readable bytes accessible
    have length : bytes.length = min (len - done) (readEnd h.server.fs n - offset) :=
      fileBytes_length
    rcases Nat.lt_or_eq_of_le within with more | rfl
    rotate_left
    · have none : bytes = [] := by simp [bytes, fileBytes]
      rw [none]
      exact ⟨h, .none d.opened, by simp [rounds, readRound, d.found]⟩
    obtain ⟨h', delivered, step⟩ := readRound_piece dst d serial readable more
      (accessible.mono (Nat.le_refl _) (by rw [fileBytes_length, length]; omega))
    generalize piece : fileBytes c.rootfs h.server.fs n offset (min (len - done) pageSize) = xs
      at delivered step
    have size : xs.length = min (min (len - done) pageSize) (readEnd h.server.fs n - offset) := by
      rw [← piece, fileBytes_length]
    have positive : 0 < pageSize := by decide
    rw [rounds, step]
    by_cases last : xs.length = 0 ∨ len ≤ done + xs.length
    · -- The file is at its end, or everything has arrived: the piece is the whole.
      have all : xs = bytes := piece.symm.trans (fileBytes_congr (by omega))
      rw [if_pos last, all]
      rw [all] at delivered
      exact ⟨h', delivered, rfl⟩
    · rw [if_neg last]
      -- A piece that is not the last one has all its bytes, so the rest follows it.
      have joined : xs ++ fileBytes c.rootfs h'.server.fs n (offset + xs.length)
          (len - (done + xs.length)) = bytes := by
        have start : fileBytes c.rootfs h.server.fs n offset xs.length = xs :=
          (fileBytes_congr (by omega)).trans piece
        have within : xs.length ≤ len - done := by omega
        have full : xs.length ≤ readEnd h.server.fs n - offset := by omega
        have split := fileBytes_append c.rootfs within full
        rw [start, Nat.sub_sub] at split
        rwa [delivered.fs]
      have total := congrArg List.length joined
      rw [List.length_append] at total
      obtain ⟨h'', delivered', ran⟩ := ih (done + xs.length) (offset + xs.length) h' (by omega)
        (by omega) (delivered.describes d) (delivered.readable.trans readable) (by
          rw [delivered.memory]
          exact (accessible.mono (by omega) (by omega)).put)
      refine ⟨h'', ?_, ?_⟩
      · rw [← Nat.add_assoc] at delivered'
        exact joined ▸ delivered.append delivered'
      · show rounds _ fuel (done + xs.length) h' = _
        rw [ran, ← total, Nat.add_assoc]

/-- A read of a regular file, whatever its length. -/
theorem sysRead_reads (d : Describes c h fd file n offset)
    (serial : c.descriptors.fdSerial fd = true) (readable : (h.server.files file).readable = true)
    (enough : len < fuel) :
    let bytes := fileBytes c.rootfs h.server.fs n offset len
    h.memory.Accessible c.child.pid dst bytes.length true →
    ∃ h', Delivered c h h' file n offset dst bytes ∧
      sysRead c fuel fd dst len h = (some (bytes.length : Int), h') := by
  intro bytes accessible
  have there : ¬ (fdFile c.descriptors fd).isNone = true := by simp [d.found]
  by_cases none : len = 0
  · have empty : bytes = [] := by simp [bytes, fileBytes, none]
    rw [sysRead, if_neg there, if_pos none, empty]
    exact ⟨h, .none d.opened, rfl⟩
  · obtain ⟨h', delivered, ran⟩ := readRound_reads serial fuel 0 offset h (Nat.zero_le _)
      (by omega) d readable accessible
    refine ⟨h', delivered, ?_⟩
    rw [sysRead, if_neg there, if_neg none, vfsReadRequest, ran, Nat.zero_add]
    rfl

/-- A read into memory that cannot be written ends with an error. -/
theorem sysRead_refused (d : Describes c h fd file n offset)
    (readable : (h.server.files file).readable = true) (enough : len < fuel)
    (few : len ≤ pageSize) :
    let bytes := fileBytes c.rootfs h.server.fs n offset len
    h.memory.Accessible c.child.pid dst bytes.length false →
    ¬ h.memory.Accessible c.child.pid dst bytes.length true →
    (sysRead c fuel fd dst len h).1 = some (-efault) := by
  intro bytes present refused
  have some : 0 < len := by
    by_contra none
    refine refused fun a low high => ?_
    simp only [bytes, fileBytes_length] at high
    omega
  obtain ⟨fuel, rfl⟩ : ∃ k, fuel = k + 1 := ⟨fuel - 1, by omega⟩
  obtain ⟨mid, memory, -, shared, round⟩ := readRound_asks dst d readable some
  rw [show min (len - 0) pageSize = len by omega] at shared round
  have copied : (copyVfsSharedBufferToChild c (dst + 0) bytes.length mid).1 = false := by
    unfold copyVfsSharedBufferToChild
    rw [shared, memory]
    exact Memory.copyToChild_refused present refused
  have there : ¬ (fdFile c.descriptors fd).isNone = true := by simp [d.found]
  rw [sysRead, if_neg there, if_neg (Nat.ne_of_gt some), vfsReadRequest, rounds, round]
  simp only [bytes] at copied
  simp only [copied, Bool.not_false, if_true]

end Reads

section Writes

/-- An answer that is no error. -/
def Granted (answer : Option Reply) : Prop := ∃ reply, answer = some reply ∧ reply.status = statusOk

theorem errCode_refused {e : Errno} : ¬ Granted (some (.errCode e)) := by
  rintro ⟨reply, is, ok⟩
  obtain rfl := Option.some.inj is
  cases e <;> cases ok

/-- A write that succeeds takes all the bytes. -/
theorem writeInode_count (written : writeInode rootfs n offset data fs = .ok count fs') :
    count = data.length := by
  have always : wp (writeInode rootfs n offset data) (fun count _ => count = data.length)
      (fun _ _ => True) fs := by
    unfold writeInode
    rw [wp_bind]
    refine wp_mono (wp_trivial _) (fun _ fs _ => ?_) fun _ _ => id
    unfold writePaged
    simp only [wp_bind, wp_get, wp_ite, wp_err, implies_true, true_and]
    intro _
    refine wp_mono (wp_trivial _) (fun _ fs _ => ?_) fun _ _ => id
    split
    · rw [wp_bind]
      exact wp_mono (wp_trivial _) (fun _ _ _ => rfl) fun _ _ => id
    · exact trivial
  exact (ok_of_wp always written :)

/-- One request to write: the file system takes the bytes, or the answer says that it did not. -/
theorem rpc_write (c : Caller) (opened : Opened h.server file n offset)
    (writable : (h.server.files file).writable = true)
    (shared : h.server.sharedBytes (min request maxIoBytes) = data) :
    (∃ fs', writeInode c.rootfs n offset data h.server.fs = .ok data.length fs' ∧
      let reply := { status := statusOk, first := data.length, second := FileKind.raw .file }
      vfsRpcLocked c vfsOpWrite file request h =
        (some reply,
          asked h (some reply) (advanced { h.server with fs := fs' } file data.length))) ∨
    (∃ e server, vfsRpcLocked c vfsOpWrite file request h =
      (some (.errCode e), asked h (some (.errCode e)) server)) ∨
    ∃ server, vfsRpcLocked c vfsOpWrite file request h = (none, asked h none server) := by
  have ran : wp (handleRequest c.rootfs c.console _) _ _ h.server :=
    handleRequest_write opened writable h.someId shared
  unfold vfsRpcLocked
  unfold wp at ran
  split at ran
  · rename_i result server run
    rw [run]
    rcases ran with ⟨count, fs', written, rfl, rfl⟩ | ⟨e, rfl⟩
    · obtain rfl := writeInode_count written
      exact .inl ⟨fs', written, rfl⟩
    · exact .inr (.inl ⟨e, server, rfl⟩)
  · rename_i stop server run
    rw [run]
    exact .inr (.inr ⟨server, rfl⟩)

theorem loadBytes_length {memory : Memory} {pid va : Nat} :
    (memory.loadBytes pid va len).length = len := by
  simp [Memory.loadBytes]

/-- What a write of some bytes to a file comes to. -/
structure Stored (rootfs : List UInt8) (fs fs' : Ramfs) (n offset : Nat) (data : List UInt8) :
    Prop where
  unpacked : Unpacked rootfs fs'
  regular : fs'.Regular rootfs n
  size : (fs'.inodes n).size = max (fs.inodes n).size (offset + data.length)
  there : offset + data.length ≤ fs'.stored n
  byte : fs'.byteOf rootfs n = overlay (fs.byteOf rootfs n) offset data

theorem Stored.of_write (unpacked : Unpacked rootfs fs) (regular : fs.Regular rootfs n)
    (some : data ≠ []) (written : writeInode rootfs n offset data fs = .ok count fs') :
    Stored rootfs fs fs' n offset data := by
  obtain ⟨regular', size, covers, byte⟩ := regular.write unpacked.sound.1 some written
  obtain ⟨start, run⟩ := unpacked
  have stepped : opStep rootfs fs (.write n offset data) = Option.some fs' :=
    opStep_of_run rfl written
  exact ⟨⟨start, run.move _ stepped trivial⟩, regular', size, (Nat.le_max_right ..).trans covers,
    byte⟩

/-- Two writes, the second where the first ended. -/
theorem Stored.append {fs'' : Ramfs} {xs ys : List UInt8} (first : Stored rootfs fs fs' n offset xs)
    (second : Stored rootfs fs' fs'' n (offset + xs.length) ys) :
    Stored rootfs fs fs'' n offset (xs ++ ys) := by
  refine ⟨second.unpacked, second.regular, ?_, ?_, ?_⟩
  · rw [second.size, first.size, List.length_append]
    omega
  · rw [List.length_append, ← Nat.add_assoc]
    exact second.there
  · rw [second.byte, first.byte, overlay_append]

/-- What a write of some bytes leaves: they are in the file, and the file is behind them. -/
structure Taken (c : Caller) (h h' : FileHost) (fd file n offset : Nat) (data : List UInt8) :
    Prop where
  memory : h'.memory = h.memory
  describes : Describes c h' fd file n (offset + data.length)
  stored : Stored c.rootfs h.server.fs h'.server.fs n offset data
  writable : (h'.server.files file).writable = (h.server.files file).writable

/-- One round of a write: the next piece is in the file, or the call has met an error. -/
theorem writeRound_piece {buf : Nat} (d : Describes c h fd file n offset)
    (writable : (h.server.files file).writable = true) (more : done < len)
    (accessible : h.memory.Accessible c.child.pid (buf + done) (len - done) false) :
    let data := h.memory.loadBytes c.child.pid (buf + done) (min (len - done) maxIoBytes)
    (∃ h', Taken c h h' fd file n offset data ∧
      writeRound c fd buf len done h =
        (if len ≤ done + data.length then .returned (some ((done + data.length : Nat) : Int))
          else .again (done + data.length), h')) ∨
    ∃ result h', writeRound c fd buf len done h = (.returned result, h') ∧
      ∃ answer ∈ h'.answers, ¬ Granted answer := by
  intro data
  have positive : 0 < maxIoBytes := by decide
  have length : data.length = min (len - done) maxIoBytes := loadBytes_length
  have wanted : min (len - done) maxIoBytes ≠ 0 := by omega
  have whole : min (min (len - done) maxIoBytes) maxIoBytes = min (len - done) maxIoBytes := by
    omega
  let mid : FileHost := { h with server := h.server.share data }
  have copied : copyChildToVfsSharedBuffer c (buf + done) (min (len - done) maxIoBytes) h =
      (true, mid) := by
    rw [copyChildToVfsSharedBuffer,
      Memory.copyFromChild_eq (accessible.mono (Nat.le_refl _) (by omega)), whole]
  have shared : mid.server.sharedBytes (min (min (len - done) maxIoBytes) maxIoBytes) = data := by
    rw [whole, ← length]
    exact sharedBytes_share data
  have opened : Opened mid.server file n offset := d.opened.of_files rfl
  rw [writeRound, d.found]
  simp only [if_neg wanted, copied, Bool.not_true, Bool.false_eq_true, if_false]
  rcases rpc_write c opened writable shared with
    ⟨fs', written, answer⟩ | ⟨e, server, answer⟩ | ⟨server, answer⟩
  · have ready : statusOk ≠ statusWouldBlock ∧ statusOk ≠ statusBrokenPipe := by decide
    have full : ¬ (data.length = 0 ∨ min (len - done) maxIoBytes < data.length) := by omega
    have stored : Stored c.rootfs h.server.fs fs' n offset data :=
      .of_write d.unpacked d.regular (List.ne_nil_of_length_pos (by omega)) written
    let reply : Reply :=
      { status := statusOk, first := data.length, second := FileKind.raw .file }
    let after := asked mid (some reply) (advanced { mid.server with fs := fs' } file data.length)
    -- The file is as long as the bytes reach, and no file is longer than a word can count.
    have describes : Describes c { after with server := { mid.server with fs := fs' } } fd file n
        offset :=
      ⟨d.found, opened.of_files rfl, stored.unpacked, d.archive, d.small, stored.regular.used,
        stored.regular.kind⟩
    have fits : offset + data.length ≤ usizeMax := stored.there.trans describes.bounded
    refine .inl ⟨after, ⟨rfl, { describes with opened := describes.opened.advanced fits }, stored,
      by simp only [after, asked, advanced_file]; rfl⟩, ?_⟩
    simp only [answer, if_neg ready.1, if_neg ready.2, ne_eq, not_true_eq_false, if_false,
      if_neg full]
    split <;> rfl
  · have status : (Reply.errCode e).status ≠ statusWouldBlock ∧
        (Reply.errCode e).status ≠ statusBrokenPipe ∧ (Reply.errCode e).status ≠ statusOk := by
      cases e <;> decide
    simp only [answer, if_neg status.1, if_neg status.2.1, if_pos status.2.2]
    exact .inr ⟨_, _, rfl, _, List.mem_append_right _ (List.mem_singleton.mpr rfl), errCode_refused⟩
  · simp only [answer]
    refine .inr ⟨_, _, rfl, none, List.mem_append_right _ (List.mem_singleton.mpr rfl), ?_⟩
    rintro ⟨reply, is, -⟩
    cases is

/-- A write, by the rounds that are left: unless an error is met, all the bytes are in the file. -/
theorem writeRound_writes {buf : Nat} (fuel : Nat) :
    ∀ (done offset : Nat) (h : FileHost), done < len → len - done < fuel →
      Describes c h fd file n offset → (h.server.files file).writable = true →
      h.memory.Accessible c.child.pid (buf + done) (len - done) false →
      (∀ answer ∈ (rounds (writeRound c fd buf len) fuel done h).2.answers, Granted answer) →
      ∃ h', Taken c h h' fd file n offset
          (h.memory.loadBytes c.child.pid (buf + done) (len - done)) ∧
        rounds (writeRound c fd buf len) fuel done h = (some (len : Int), h') := by
  induction fuel with
  | zero => exact fun done offset h _ short => absurd short (Nat.not_lt_zero _)
  | succ fuel ih =>
    intro done offset h more enough d writable accessible granted
    rcases writeRound_piece d writable more accessible with
      ⟨h', taken, step⟩ | ⟨result, h', step, answer, mem, refused⟩
    rotate_left
    · rw [rounds, step] at granted
      exact absurd (granted answer mem) refused
    generalize piece : h.memory.loadBytes c.child.pid (buf + done) (min (len - done) maxIoBytes) =
      data at taken step
    have length : data.length = min (len - done) maxIoBytes := by rw [← piece, loadBytes_length]
    have positive : 0 < maxIoBytes := by decide
    rw [rounds, step] at granted ⊢
    by_cases last : len ≤ done + data.length
    · -- The piece is all that was left.
      have whole : h.memory.loadBytes c.child.pid (buf + done) (len - done) = data := by
        rw [← piece, show min (len - done) maxIoBytes = len - done by omega]
      rw [if_pos last, whole]
      exact ⟨h', taken, by rw [show done + data.length = len by omega]⟩
    · rw [if_neg last] at granted ⊢
      obtain ⟨h'', taken', ran⟩ := ih (done + data.length) (offset + data.length) h' (by omega)
        (by omega) taken.describes (taken.writable.trans writable)
        (taken.memory ▸ accessible.mono (by omega) (by omega)) granted
      have pieces : data ++ h.memory.loadBytes c.child.pid (buf + (done + data.length))
          (len - (done + data.length)) = h.memory.loadBytes c.child.pid (buf + done) (len - done) := by
        rw [← piece, loadBytes_length, ← Nat.add_assoc, Memory.loadBytes_append]
        congr 1
        omega
      rw [taken.memory] at taken'
      refine ⟨h'', ⟨taken'.memory.trans taken.memory, ?_, ?_, taken'.writable.trans taken.writable⟩,
        ran⟩
      · rw [← pieces, List.length_append, ← Nat.add_assoc]
        exact taken'.describes
      · rw [← pieces]
        exact taken.stored.append taken'.stored

/-- A write to a regular file that meets no error. -/
theorem sysWrite_writes {buf : Nat} (d : Describes c h fd file n offset)
    (writable : (h.server.files file).writable = true) (some : 0 < len) (enough : len < fuel)
    (accessible : h.memory.Accessible c.child.pid buf len false)
    (granted : ∀ answer ∈ (sysWrite c fuel fd buf len h).2.answers, Granted answer) :
    ∃ h', Taken c h h' fd file n offset (h.memory.loadBytes c.child.pid buf len) ∧
      sysWrite c fuel fd buf len h = (Option.some (len : Int), h') := by
  have call : sysWrite c fuel fd buf len h = rounds (writeRound c fd buf len) fuel 0 h := by
    rw [sysWrite, if_neg (by simp [d.found]), if_neg (Nat.ne_of_gt some), vfsWriteRequest]
  rw [call] at granted ⊢
  exact writeRound_writes fuel 0 offset h some (by omega) d writable accessible granted

end Writes

section Calls

/-- Every byte after a store, whichever process has it. -/
theorem byteAt_put_all {memory : Memory} {pid va p a : Nat}
    (accessible : memory.Accessible pid va bytes.length true) :
    (memory.put pid va bytes).byteAt p a =
      if p = pid ∧ va ≤ a ∧ a < va + bytes.length then bytes.getD (a - va) 0
      else memory.byteAt p a := by
  by_cases own : p = pid
  · subst own
    by_cases mapped : memory.pages p (a / pageSize) = none
    · -- An address without a page is none of the addresses stored to.
      have outside : ¬ (p = p ∧ va ≤ a ∧ a < va + bytes.length) := by
        rintro ⟨-, low, high⟩
        obtain ⟨page, is, -⟩ := accessible a low high
        rw [is] at mapped
        cases mapped
      rw [if_neg outside]
      simp [Memory.byteAt, Memory.put, Memory.mapBytes, mapped]
    · rw [Memory.byteAt_put mapped, overlaid]
      exact if_congr (by simp) rfl rfl
  · rw [if_neg fun is => own is.1]
    simp [Memory.byteAt, Memory.put, Memory.mapBytes, own]

/--
Through a descriptor of a regular file a read gives what the size of the file promises, if and only
if the file has all those bytes; a write that is not refused changes the file as it says. How they
are cut into pieces does not matter.
-/
theorem file_calls_transfer_iff (d : Describes c h fd file n offset) :
    (∀ fuel dst len, len < fuel → c.descriptors.fdSerial fd = true →
      (h.server.files file).readable = true → h.memory.Accessible c.child.pid dst len true →
      let count := min len ((h.server.fs.inodes n).size - offset)
      (∃ h', handleLinuxSyscall c fuel .read fd dst len h = (some (count : Int), h') ∧
        (∀ p a, h'.memory.byteAt p a =
          if p = c.child.pid ∧ dst ≤ a ∧ a < dst + count then
            h.server.fs.byteOf c.rootfs n (offset + (a - dst))
          else h.memory.byteAt p a) ∧
        (h'.server.files file).offset = offset + count ∧ h'.server.fs = h.server.fs) ↔
      ∀ q, offset ≤ q → q < offset + count → q < h.server.fs.stored n) ∧
    ∀ fuel buf len, 0 < len → len < fuel → (h.server.files file).writable = true →
      h.memory.Accessible c.child.pid buf len false →
      (∀ answer ∈ (handleLinuxSyscall c fuel .write fd buf len h).2.answers, Granted answer) →
      ∃ h', handleLinuxSyscall c fuel .write fd buf len h = (some (len : Int), h') ∧
        h'.memory = h.memory ∧ (h'.server.files file).offset = offset + len ∧
        Stored c.rootfs h.server.fs h'.server.fs n offset
          (h.memory.loadBytes c.child.pid buf len) := by
  refine ⟨?_, ?_⟩
  · intro fuel dst len enough serial readable accessible count
    let bytes := fileBytes c.rootfs h.server.fs n offset len
    have length : bytes.length =
        min len (min (h.server.fs.inodes n).size (h.server.fs.stored n) - offset) :=
      fileBytes_length
    have within : h.memory.Accessible c.child.pid dst bytes.length true :=
      accessible.mono (Nat.le_refl _) (by omega)
    obtain ⟨h', delivered, ran⟩ := sysRead_reads d serial readable enough within
    constructor
    · -- The call returns how many bytes there were, so none of those it should return was missing.
      rintro ⟨h'', ran', -⟩ q low high
      have same : bytes.length = count :=
        Int.ofNat.inj (Option.some.inj (Prod.mk.inj (ran.symm.trans ran')).1)
      omega
    · intro present
      have counted : count = bytes.length := by
        rcases Nat.eq_zero_or_pos count with none | some
        · omega
        · have last := present (offset + count - 1) (by omega) (by omega)
          omega
      rw [counted]
      refine ⟨h', ran, fun p a => ?_, delivered.opened.reached, delivered.fs⟩
      rw [delivered.memory, byteAt_put_all within]
      refine if_ctx_congr Iff.rfl (fun inside => fileBytes_getD ?_) fun _ => rfl
      have low : a - dst < bytes.length := by omega
      rwa [length] at low
  · intro fuel buf len some enough writable accessible granted
    obtain ⟨h', taken, ran⟩ := sysWrite_writes d writable some enough accessible granted
    refine ⟨h', ran, taken.memory, ?_, taken.stored⟩
    rw [taken.describes.opened.reached, loadBytes_length]

/-- No file is put in place from the archive. -/
def Op.plain : Op → Bool
  | .embedFile .. => false
  | _ => true

/-- A new file `/a`, after some writes to it, whatever came of them. -/
def fileAfter (writes : List (Nat × List UInt8)) : Option Ramfs :=
  moves (guarded (opStep []) fun _ => Op.plain) ({} : Ramfs).boot
    (.openPath [slash, 0x61] oCreat :: writes.map fun write => .write 2 write.1 write.2)

/-- The first process has the file open for reading and writing, and all pages begin like this. -/
def sampleHost (fs : Ramfs) (start : List UInt8) : FileHost where
  memory :=
    { pages := fun _ _ => some ⟨fun i => start.getD i 0, true, false⟩
      mappingCount := 0
      framePool := []
      freshFrames := 0 }
  server :=
    { fs
      files := fun _ =>
        { used := true, refs := 1, kind := .ramFile, node := 2, readable := true, writable := true } }
  nextVfsRequestId := 1
  someId := Nat.one_ne_zero

def sampleCaller : Caller where
  arch := .riscv64
  rootfs := []
  console := ⟨true, fun _ => (.ok, []), fun _ => .ok⟩
  child :=
    { pid := 1, entry := 0, brk := 0, heapStart := 0, heapMappedEnd := 0, elfPhdr := 0, elfPhent := 0,
      elfPhnum := 0, execPath := [] }
  descriptors := ⟨fun _ => 0, fun _ => true⟩

theorem sampleHost_describes {writes : List (Nat × List UInt8)} (start : List UInt8)
    (made : fileAfter writes = some fs) (used : (fs.inodes 2).used = true)
    (kind : (fs.inodes 2).kind = .file) :
    Describes sampleCaller (sampleHost fs start) 3 0 2 0 := by
  refine ⟨by decide +kernel, ⟨by decide +kernel, rfl, rfl, rfl, rfl, Nat.zero_le _, rfl⟩, ⟨{}, ?_⟩,
    Nat.zero_le _, by decide, used, kind⟩
  refine (Run.start.of_guarded _ made).mono fun _ op plain => ?_
  cases op <;> trivial

theorem sampleHost_accessible (fs : Ramfs) (start : List UInt8) (va len : Nat) (write : Bool) :
    (sampleHost fs start).memory.Accessible 1 va len write := fun _ _ _ => ⟨_, rfl, fun _ => rfl⟩

/-- The first byte of `/a` is there, and far behind it a write was refused that has set the size. -/
def jammedFile : Option Ramfs := fileAfter [(0, [5]), (1048576, [7])]

theorem jammedFile_made : jammedFile.isSome = true := by decide +kernel

def jammedFs : Ramfs := jammedFile.get jammedFile_made

theorem jammedFs_describes : Describes sampleCaller (sampleHost jammedFs []) 3 0 2 0 :=
  sampleHost_describes [] (Option.some_get jammedFile_made).symm (by decide +kernel)
    (by decide +kernel)

theorem jammedFs_size : (jammedFs.inodes 2).size = 1048577 := by decide +kernel

theorem jammedFs_stored : jammedFs.stored 2 = 4096 := by decide +kernel

/-- The byte that is there is read, and a byte that is written is stored. -/
theorem file_calls_transfer_first :
    (∃ h', handleLinuxSyscall sampleCaller 2 .read 3 4096 1 (sampleHost jammedFs []) =
      (some 1, h') ∧ h'.memory.byteAt 1 4096 = 5) ∧
    ∃ h', handleLinuxSyscall sampleCaller 2 .write 3 4096 1 (sampleHost jammedFs []) =
      (some 1, h') ∧ h'.server.fs.byteOf sampleCaller.rootfs 2 0 = 0 := by
  obtain ⟨reads, writes⟩ := file_calls_transfer_iff jammedFs_describes
  have count : min 1 (((sampleHost jammedFs []).server.fs.inodes 2).size - 0) = 1 := by
    show min 1 ((jammedFs.inodes 2).size - 0) = 1
    rw [jammedFs_size]
    rfl
  have read := reads 2 4096 1 (by decide) rfl rfl (sampleHost_accessible _ _ _ _ true)
  rw [count] at read
  obtain ⟨h', ran, memory, -⟩ := read.mpr fun q low high => by
    show q < jammedFs.stored 2
    rw [jammedFs_stored]
    omega
  have byte : jammedFs.byteOf [] 2 0 = 5 := by decide +kernel
  have answers : (handleLinuxSyscall sampleCaller 2 .write 3 4096 1
      (sampleHost jammedFs [])).2.answers =
      [some { status := statusOk, first := 1, second := FileKind.raw .file }] := by decide +kernel
  obtain ⟨h'', ran', -, -, stored⟩ := writes 2 4096 1 (by decide) (by decide) rfl
    (sampleHost_accessible _ _ _ _ false) (by simp [answers, Granted])
  refine ⟨⟨h', ran, ?_⟩, h'', ran', ?_⟩
  · rw [memory, if_pos ⟨rfl, by decide⟩]
    exact byte
  · rw [stored.byte]
    rfl

/-- `/a` is new, and the write far behind its end was refused. -/
def hollowFile : Option Ramfs := fileAfter [(1048576, [7])]

theorem hollowFile_made : hollowFile.isSome = true := by decide +kernel

/-- The file has the size of the refused write, and still a read finds nothing in it. -/
theorem read_short_of_size : ∃ fs, Describes sampleCaller (sampleHost fs []) 3 0 2 0 ∧
    (fs.inodes 2).size = 1048577 ∧ (sampleHost fs []).memory.Accessible 1 4096 1 true ∧
    (handleLinuxSyscall sampleCaller 2 .read 3 4096 1 (sampleHost fs [])).1 = some 0 :=
  ⟨_, sampleHost_describes [] (Option.some_get hollowFile_made).symm (by decide +kernel)
    (by decide +kernel), by decide +kernel, sampleHost_accessible _ _ _ _ _, by decide +kernel⟩

end Calls

section Vectors

variable {iovPtr iovcnt : Nat}

/-- The entries of an array of buffers. -/
def iovecs (memory : Memory) (pid iovPtr iovcnt : Nat) : List (Nat × Nat) :=
  (List.range iovcnt).map fun i =>
    (readU64 (memory.loadBytes pid (iovPtr + 16 * i) 16) 0,
      readU64 (memory.loadBytes pid (iovPtr + 16 * i) 16) 8)

/-- What writing the buffers one after the other transfers. -/
def gathered (memory : Memory) (pid : Nat) (entries : List (Nat × Nat)) : List UInt8 :=
  entries.flatMap fun entry => memory.loadBytes pid entry.1 entry.2

/-- A vectored write is a write of the first buffer. -/
theorem sysWritev_first (few : iovcnt < 8)
    (array : h.memory.Accessible c.child.pid iovPtr (16 * (iovcnt + 1)) false) :
    sysWritev c fuel fd iovPtr (iovcnt + 1) h =
      sysWrite c fuel fd (readU64 (h.memory.loadBytes c.child.pid iovPtr 16) 0)
        (readU64 (h.memory.loadBytes c.child.pid iovPtr 16) 8) h := by
  have first : h.memory.Accessible c.child.pid iovPtr 16 false :=
    array.mono (Nat.le_refl _) (by omega)
  rw [sysWritev, if_neg (Nat.succ_ne_zero _), if_neg (by omega), Memory.copyFromChild_eq first]

theorem iovecs_succ (memory : Memory) (pid iovPtr iovcnt : Nat) :
    ∃ rest, iovecs memory pid iovPtr (iovcnt + 1) =
      (readU64 (memory.loadBytes pid iovPtr 16) 0, readU64 (memory.loadBytes pid iovPtr 16) 8) ::
        rest := by
  rw [iovecs, List.range_succ_eq_map]
  exact ⟨_, rfl⟩

/-- What writing the buffers one after the other leaves, if it stops after some bytes. -/
structure Gathers (c : Caller) (h h' : FileHost) (file n offset : Nat)
    (entries : List (Nat × Nat)) (count : Nat) : Prop where
  memory : h'.memory = h.memory
  reached : (h'.server.files file).offset = offset + count
  stored : if count = 0 then h'.server.fs = h.server.fs
    else Stored c.rootfs h.server.fs h'.server.fs n offset
      ((gathered h.memory c.child.pid entries).take count)
  within : count ≤ (gathered h.memory c.child.pid entries).length

/--
A vectored write transfers the first buffer, which is a beginning of them all; it is empty although
there are bytes just if the first buffer is the wrong one to look at.
-/
theorem sysWritev_writes (d : Describes c h fd file n offset) (few : iovcnt ≤ 8)
    (array : h.memory.Accessible c.child.pid iovPtr (16 * iovcnt) false)
    (writable : (h.server.files file).writable = true) :
    let entries := iovecs h.memory c.child.pid iovPtr iovcnt
    (∀ entry ∈ entries, entry.2 < fuel ∧
      h.memory.Accessible c.child.pid entry.1 entry.2 false) →
    (∀ answer ∈ (sysWritev c fuel fd iovPtr iovcnt h).2.answers, Granted answer) →
    ∃ (count : Nat) (h' : FileHost),
      sysWritev c fuel fd iovPtr iovcnt h = (some (count : Int), h') ∧
      Gathers c h h' file n offset entries count ∧
      (((∃ entry ∈ entries, entry.2 ≠ 0) → 0 < count) ↔
        (∃ entry ∈ entries.head?, entry.2 ≠ 0) ∨ ∀ entry ∈ entries, entry.2 = 0) := by
  intro entries buffers granted
  cases iovcnt with
  | zero =>
    exact ⟨0, h, rfl, ⟨rfl, d.opened.reached, rfl, Nat.zero_le _⟩, by simp [entries, iovecs]⟩
  | succ iovcnt =>
    obtain ⟨rest, split⟩ := iovecs_succ h.memory c.child.pid iovPtr iovcnt
    rw [sysWritev_first (by omega) array] at granted ⊢
    generalize readU64 (h.memory.loadBytes c.child.pid iovPtr 16) 0 = base at granted split ⊢
    generalize readU64 (h.memory.loadBytes c.child.pid iovPtr 16) 8 = length at granted split ⊢
    have is : entries = (base, length) :: rest := split
    rw [is] at buffers ⊢
    have size : (h.memory.loadBytes c.child.pid base length).length = length := loadBytes_length
    by_cases empty : length = 0
    · -- The first buffer is empty, and the others are not looked at.
      subst empty
      refine ⟨0, h, ?_, ⟨rfl, d.opened.reached, rfl, Nat.zero_le _⟩, by simp⟩
      simp [sysWrite, d.found]
    · have first := buffers (base, length) (List.mem_cons_self ..)
      obtain ⟨h', taken, ran⟩ :=
        sysWrite_writes d writable (Nat.pos_of_ne_zero empty) first.1 first.2 granted
      refine ⟨length, h', ran, ⟨taken.memory, ?_, ?_, ?_⟩, by simp [empty, Nat.pos_of_ne_zero empty]⟩
      · rw [taken.describes.opened.reached, size]
      · rw [if_neg empty, gathered, List.flatMap_cons, List.take_append_of_le_length size.ge,
          List.take_of_length_le size.le]
        exact taken.stored
      · rw [gathered, List.flatMap_cons, List.length_append, size]
        exact Nat.le_add_right ..

/-- The addresses that an array of buffers describes, in order. -/
def described (entries : List (Nat × Nat)) : List Nat :=
  entries.flatMap fun entry => List.range' entry.1 entry.2

/-- A memory in which bytes have been stored one after the other, each at its own address. -/
def scattered (old : Nat → UInt8) (addrs : List Nat) (bytes : List UInt8) : Nat → UInt8 :=
  (addrs.zip bytes).foldl (fun memory store => Function.update memory store.1 store.2) old

/-- What reading into the buffers one after the other may leave, if it stops after some bytes. -/
structure Scatters (c : Caller) (h h' : FileHost) (n offset : Nat) (entries : List (Nat × Nat))
    (count : Nat) : Prop where
  room : count ≤ (described entries).length
  bytes : count ≤ readEnd h.server.fs n - offset
  some : (∃ entry ∈ entries, entry.2 ≠ 0) → offset < readEnd h.server.fs n → 0 < count
  memory : ∀ p a, h'.memory.byteAt p a =
    if p = c.child.pid then
      scattered (h.memory.byteAt p) (described entries)
        (fileBytes c.rootfs h.server.fs n offset count) a
    else h.memory.byteAt p a

/-- A vectored read stores at the array itself, so it is right just if that comes to the same. -/
theorem sysRead_scatters_iff (d : Describes c h fd file n offset)
    (serial : c.descriptors.fdSerial fd = true) (readable : (h.server.files file).readable = true)
    (enough : iovcnt < fuel) (few : iovcnt ≤ 8)
    (array : h.memory.Accessible c.child.pid iovPtr (16 * iovcnt) false) :
    let entries := iovecs h.memory c.child.pid iovPtr iovcnt
    let bytes := fileBytes c.rootfs h.server.fs n offset iovcnt
    (∃ (count : Nat) (h' : FileHost), sysRead c fuel fd iovPtr iovcnt h = (some (count : Int), h') ∧
      Scatters c h h' n offset entries count) ↔
    h.memory.Accessible c.child.pid iovPtr bytes.length true ∧
      bytes.length ≤ (described entries).length ∧
      ∀ a, overlaid iovPtr bytes a (h.memory.byteAt c.child.pid a) =
        scattered (h.memory.byteAt c.child.pid) (described entries) bytes a := by
  intro entries bytes
  have length : bytes.length = min iovcnt (readEnd h.server.fs n - offset) := fileBytes_length
  have again : fileBytes c.rootfs h.server.fs n offset bytes.length = bytes :=
    fileBytes_congr (by omega)
  by_cases accessible : h.memory.Accessible c.child.pid iovPtr bytes.length true
  · obtain ⟨h', delivered, ran⟩ := sysRead_reads d serial readable enough accessible
    have stored : ∀ p a, h'.memory.byteAt p a =
        if p = c.child.pid then overlaid iovPtr bytes a (h.memory.byteAt p a)
        else h.memory.byteAt p a := by
      intro p a
      rw [delivered.memory, byteAt_put_all accessible]
      by_cases own : p = c.child.pid
      · simp only [own, true_and, if_true, overlaid, bytes]
      · simp only [own, false_and, if_false]
    constructor
    · rintro ⟨count, h'', ran', scatters⟩
      obtain ⟨counted, rfl⟩ := Prod.mk.inj (ran.symm.trans ran')
      obtain rfl : bytes.length = count := Int.ofNat.inj (Option.some.inj counted)
      refine ⟨accessible, scatters.room, fun a => ?_⟩
      have here := (stored c.child.pid a).symm.trans (scatters.memory c.child.pid a)
      rwa [if_pos rfl, if_pos rfl, again] at here
    · rintro ⟨-, room, same⟩
      refine ⟨bytes.length, h', ran, room, by omega, ?_, fun p a => ?_⟩
      · rintro ⟨entry, mem, -⟩ more
        have : iovcnt ≠ 0 := by
          rintro rfl
          simp [entries, iovecs] at mem
        omega
      · rw [stored, again]
        exact if_ctx_congr Iff.rfl (fun own => own ▸ same a) fun _ => rfl
  · -- The array cannot be written, and the call says so.
    have present : h.memory.Accessible c.child.pid iovPtr bytes.length false :=
      array.mono (Nat.le_refl _) (by omega)
    have error := sysRead_refused d readable enough (few.trans (by decide)) present accessible
    refine iff_of_false ?_ fun all => accessible all.1
    rintro ⟨count, h', ran, -⟩
    rw [ran] at error
    have := Option.some.inj error
    unfold efault at this
    omega

/--
A vectored write transfers a beginning of the buffers, and at least a byte if there is one, exactly
unless only the first buffer is empty. A vectored read reads into the array, and is right if and
only if that can be written, describes as many bytes, and the bytes of the file do the same to the
memory there as in the buffers.
-/
theorem vectored_io_iff (d : Describes c h fd file n offset) (fuel iovPtr iovcnt : Nat)
    (few : iovcnt ≤ 8)
    (array : h.memory.Accessible c.child.pid iovPtr (16 * iovcnt) false) :
    let entries := iovecs h.memory c.child.pid iovPtr iovcnt
    ((h.server.files file).writable = true →
      (∀ entry ∈ entries, entry.2 < fuel ∧
        h.memory.Accessible c.child.pid entry.1 entry.2 false) →
      (∀ answer ∈ (handleLinuxSyscall c fuel .writev fd iovPtr iovcnt h).2.answers,
        Granted answer) →
      ∃ (count : Nat) (h' : FileHost),
        handleLinuxSyscall c fuel .writev fd iovPtr iovcnt h = (some (count : Int), h') ∧
        Gathers c h h' file n offset entries count ∧
        (((∃ entry ∈ entries, entry.2 ≠ 0) → 0 < count) ↔
          (∃ entry ∈ entries.head?, entry.2 ≠ 0) ∨ ∀ entry ∈ entries, entry.2 = 0)) ∧
    (iovcnt < fuel → c.descriptors.fdSerial fd = true →
      (h.server.files file).readable = true →
      let bytes := fileBytes c.rootfs h.server.fs n offset iovcnt
      ((∃ (count : Nat) (h' : FileHost),
        handleLinuxSyscall c fuel .readv fd iovPtr iovcnt h = (some (count : Int), h') ∧
        Scatters c h h' n offset entries count) ↔
      h.memory.Accessible c.child.pid iovPtr bytes.length true ∧
        bytes.length ≤ (described entries).length ∧
        ∀ a, overlaid iovPtr bytes a (h.memory.byteAt c.child.pid a) =
          scattered (h.memory.byteAt c.child.pid) (described entries) bytes a)) :=
  ⟨fun writable => sysWritev_writes d few array writable, fun enough serial readable =>
    sysRead_scatters_iff d serial readable enough few array⟩

/-- `/a` has the bytes 0, 7 and 8. -/
def shortFile : Option Ramfs := fileAfter [(1, [7, 8])]

theorem shortFile_made : shortFile.isSome = true := by decide +kernel

/-- Every page begins with an array of two buffers at `0x2000`: an empty one, and one for a byte. -/
def vectorHost : FileHost := sampleHost (shortFile.get shortFile_made)
  (wordBytes 0x2000 ++ wordBytes 0 ++ wordBytes 0x2000 ++ wordBytes 1)

theorem vectorHost_describes : Describes sampleCaller vectorHost 3 0 2 0 :=
  sampleHost_describes _ (Option.some_get shortFile_made).symm (by decide +kernel)
    (by decide +kernel)

/-- The first byte of the file is zero, as are the bytes at the array and at its buffer. -/
theorem vectorHost_scattered (a : Nat) : overlaid 0x1010 [0] a (vectorHost.memory.byteAt 1 a) =
    scattered (vectorHost.memory.byteAt 1) (described [(0x2000, 1)]) [0] a := by
  have array : vectorHost.memory.byteAt 1 0x1010 = 0 := by decide +kernel
  have buffer : vectorHost.memory.byteAt 1 0x2000 = 0 := by decide +kernel
  have update : scattered (vectorHost.memory.byteAt 1) (described [(0x2000, 1)]) [0] =
      vectorHost.memory.byteAt 1 := Function.update_eq_self_iff.mpr buffer.symm
  rw [update]
  by_cases here : a = 0x1010
  · rw [here, array]
    rfl
  · exact overlaid_outside (by simp; omega)

/--
One buffer that is not empty is written; a read into it returns as many bytes, and finds the memory
as it should be.
-/
theorem vectored_io_one :
    (∃ h', handleLinuxSyscall sampleCaller 10 .writev 3 0x1010 1 vectorHost = (some 1, h') ∧
      h'.memory = vectorHost.memory) ∧
    ∃ (count : Nat) (h' : FileHost),
      handleLinuxSyscall sampleCaller 10 .readv 3 0x1010 1 vectorHost = (some (count : Int), h') ∧
      Scatters sampleCaller vectorHost h' 2 0 [(0x2000, 1)] count := by
  have entries : iovecs vectorHost.memory sampleCaller.child.pid 0x1010 1 = [(0x2000, 1)] := by
    decide +kernel
  have written : handleLinuxSyscall sampleCaller 10 .writev 3 0x1010 1 vectorHost =
      (some 1, (handleLinuxSyscall sampleCaller 10 .writev 3 0x1010 1 vectorHost).2) :=
    Prod.ext (by decide +kernel) rfl
  have answers : (handleLinuxSyscall sampleCaller 10 .writev 3 0x1010 1 vectorHost).2.answers =
      [some { status := statusOk, first := 1, second := FileKind.raw .file }] := by decide +kernel
  have next : fileBytes sampleCaller.rootfs vectorHost.server.fs 2 0 1 = [0] := by decide +kernel
  obtain ⟨writes, reads⟩ := vectored_io_iff vectorHost_describes 10 0x1010 1 (by decide)
    (sampleHost_accessible _ _ _ _ _)
  rw [entries] at writes reads
  refine ⟨?_, (reads (by decide) rfl rfl).mpr ?_⟩
  · obtain ⟨count, h', ran, gathers, -⟩ := writes rfl
      (fun entry is => ⟨by simp [List.mem_singleton.mp is], sampleHost_accessible _ _ _ _ _⟩)
      (by simp [answers, Granted])
    rw [ran] at written
    exact ⟨h', ran.trans written, gathers.memory⟩
  · rw [next]
    exact ⟨sampleHost_accessible _ _ _ _ _, Nat.le_refl _, vectorHost_scattered⟩

/--
With an empty first buffer a vectored write writes nothing, although a write of the second one
writes a byte; and a vectored read overwrites the array of the buffers with the file, and leaves
the buffers as they are.
-/
theorem vectored_io_wrong :
    iovecs vectorHost.memory 1 0x1000 2 = [(0x2000, 0), (0x2000, 1)] ∧
      (handleLinuxSyscall sampleCaller 10 .writev 3 0x1000 2 vectorHost).1 = some 0 ∧
      (handleLinuxSyscall sampleCaller 10 .write 3 0x2000 1 vectorHost).1 = some 1 ∧
      (handleLinuxSyscall sampleCaller 10 .readv 3 0x1000 2 vectorHost).1 = some 2 ∧
      vectorHost.memory.byteAt 1 0x1001 = 0x20 ∧
      (handleLinuxSyscall sampleCaller 10 .readv 3 0x1000 2 vectorHost).2.memory.byteAt 1 0x1001 =
        7 := by
  refine ⟨?_, ?_, ?_, ?_, ?_, ?_⟩ <;> decide +kernel

end Vectors

end Rel4.Host
