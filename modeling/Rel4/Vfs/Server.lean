import Rel4.Vfs.Cpio

/-! The file server: its table of open files, its pipes, and the answer to every request. -/

namespace Rel4.Vfs

/-- Slots of the table of open files. -/
@[irreducible]
def maxOpenFiles : Nat := 128
/-- Slots for pipes. -/
@[irreducible]
def maxPipes : Nat := 32
/-- Bytes a pipe can hold. -/
def pipeBuf : Nat := 512
/-- Bytes of the buffer that is shared with the host. -/
def maxIoBytes : Nat := 16 * 1024

/-- What an open file stands for. -/
inductive OpenKind
  | closed
  | ramFile
  | ramDir
  | pipeRead
  | pipeWrite
  | console
deriving DecidableEq

def OpenKind.raw : OpenKind → Nat
  | closed => 0
  | ramFile => 1
  | ramDir => 2
  | pipeRead => 3
  | pipeWrite => 4
  | console => 5

@[ext]
structure OpenFile where
  used : Bool := false
  refs : Nat := 0
  kind : OpenKind := .closed
  node : Nat := 0
  aux : Nat := 0
  offset : Nat := 0
  readable : Bool := false
  writable : Bool := false
  busy : Bool := false
deriving DecidableEq

@[ext]
structure Pipe where
  buf : Nat → UInt8 := fun _ => 0
  readPos : Nat := 0
  len : Nat := 0
  readers : Nat := 0
  writers : Nat := 0

@[ext]
structure Server where
  fs : Ramfs := {}
  files : Nat → OpenFile := fun _ => {}
  pipes : Nat → Pipe := fun _ => {}
  shared : Nat → UInt8 := fun _ => 0

/-- Requests are served one at a time, and what was done before a panic stays done. -/
abbrev Srv := EStateM Stop Server

variable {α : Type}

/-- Run an operation on the file system. -/
def onFs (prog : Fs α) : Srv α := fun s =>
  match prog s.fs with
  | .ok value fs => .ok value { s with fs }
  | .error stop fs => .error stop { s with fs }

section Table

def Server.updFile (s : Server) (file : Nat) (change : OpenFile → OpenFile) : Server :=
  { s with files := Function.update s.files file (change (s.files file)) }

def Server.updPipe (s : Server) (pipe : Nat) (change : Pipe → Pipe) : Server :=
  { s with pipes := Function.update s.pipes pipe (change (s.pipes pipe)) }

/-- What became of a file that was let go. -/
inductive ReleaseResult
  | invalid
  | done
  | inode (inum : Nat)

/-- Forget all open files and pipes. -/
def resetAll : Srv Unit := modify fun s => { s with files := fun _ => {}, pipes := fun _ => {} }

def Server.validFile (s : Server) (file : Nat) : Bool := decide (file < maxOpenFiles) && (s.files file).used

def Server.fileSnapshot (s : Server) (file : Nat) : Option OpenFile :=
  if s.validFile file then some (s.files file) else none

/-- The first slot of the table that is free. -/
def Server.freeFile (s : Server) : Option Nat :=
  (List.range maxOpenFiles).find? fun i => !(s.files i).used

def allocFile (kind : OpenKind) (node aux : Nat) (readable writable : Bool) : Srv (Option Nat) := do
  let s ← get
  match s.freeFile with
  | some i =>
    set (s.updFile i fun _ => { used := true, refs := 1, kind, node, aux, readable, writable })
    return some i
  | none => return none

def retainFile (file : Nat) : Srv Bool := do
  let s ← get
  if maxOpenFiles ≤ file ∨ (s.files file).used = false ∨ (s.files file).refs = u16Max then return false
  set (s.updFile file fun f => { f with refs := f.refs + 1 })
  return true

/-- Give a reference to an open file back; with the last one the file is closed. -/
def detachFile (file : Nat) : Srv ReleaseResult := do
  let s ← get
  if maxOpenFiles ≤ file ∨ (s.files file).used = false then return .invalid
  let old := s.files file
  if 1 < old.refs then
    set (s.updFile file fun f => { f with refs := f.refs - 1 })
    return .done
  set (s.updFile file fun _ => {})
  match old.kind with
  | .ramFile | .ramDir => return .inode old.node
  | .pipeRead =>
    if old.aux < maxPipes ∧ 0 < (s.pipes old.aux).readers then
      modify fun s => s.updPipe old.aux fun p => { p with readers := p.readers - 1 }
    return .done
  | .pipeWrite =>
    if old.aux < maxPipes ∧ 0 < (s.pipes old.aux).writers then
      modify fun s => s.updPipe old.aux fun p => { p with writers := p.writers - 1 }
    return .done
  | _ => return .done

def releaseFile (file : Nat) : Srv Bool := do
  match ← detachFile file with
  | .done => return true
  | _ => return false

/-- The first pipe without a reader and without a writer. -/
def Server.freePipe (s : Server) : Option Nat :=
  (List.range maxPipes).find? fun i => (s.pipes i).readers == 0 && (s.pipes i).writers == 0

def allocPipe : Srv (Option Nat) := do
  let s ← get
  match s.freePipe with
  | some i =>
    set (s.updPipe i fun _ => {})
    return some i
  | none => return none

def clearPipe (pipe : Nat) : Srv Unit := do
  if pipe < maxPipes then modify fun s => s.updPipe pipe fun _ => {}

def openPipe (pipe : Nat) : Srv Bool := do
  if maxPipes ≤ pipe then return false
  modify fun s => s.updPipe pipe fun p => { p with readers := 1, writers := 1 }
  return true

def setFileOffset (file offset : Nat) : Srv Unit := do
  if file < maxOpenFiles then modify fun s => s.updFile file fun f => { f with offset }

def addFileOffset (file amount : Nat) : Srv Unit := do
  if file < maxOpenFiles then
    modify fun s => s.updFile file fun f => { f with offset := min (f.offset + amount) usizeMax }

def acquireFileIo (file : Nat) : Srv Bool := do
  if maxOpenFiles ≤ file then return false
  let s ← get
  if (s.files file).used = false ∨ (s.files file).busy = true then return false
  set (s.updFile file fun f => { f with busy := true })
  return true

def releaseFileIo (file : Nat) : Srv Unit := do
  if file < maxOpenFiles then modify fun s => s.updFile file fun f => { f with busy := false }

end Table

section Messages

/-- A message from the host. -/
structure Message where
  label : Nat
  length : Nat
  mrs : Nat → Nat

/-- The four words of an answer. -/
structure Reply where
  status : Nat
  first : Nat := 0
  second : Nat := 0
  third : Nat := 0
deriving DecidableEq

def statusOk : Nat := 0
def statusWouldBlock : Nat := 11
def statusBrokenPipe : Nat := 32

def Reply.ok : Reply := { status := statusOk }
def Reply.errCode (e : Errno) : Reply := { status := e.code }
def Reply.err : Reply := .errCode .einval

/-- The first word of a request of the host that waits for the answer, and of one that does not. -/
def hostToVfs : Nat := 0x6c78766673
def hostToVfsAsync : Nat := 0x6c7876667361
def linuxAbiVersion : Nat := 1

structure HostRequest where
  asyncRequest : Bool
  requestId : Nat

def hostRequest (msg : Message) : Option HostRequest :=
  if msg.mrs 0 = hostToVfs ∧ msg.mrs 1 = linuxAbiVersion then some { asyncRequest := false, requestId := 0 }
  else if msg.mrs 0 = hostToVfsAsync ∧ msg.mrs 1 ≠ 0 then
    some { asyncRequest := true, requestId := msg.mrs 1 }
  else none

def validHost (msg : Message) : Bool := (hostRequest msg).isSome

/-- Whether a path of this length fits the message behind its first words. -/
def pathMrsValid (msg : Message) (start pathLen : Nat) : Bool :=
  decide (0 < pathLen ∧ pathLen ≤ maxPathBytes ∧ start + (pathLen + 7) / 8 ≤ msg.length)

/-- The path in the words of a message, eight bytes in each. -/
def pathFromWords (words : Nat → Nat) (start len : Nat) : List UInt8 :=
  (List.range len).map fun i => .ofNat (words (start + i / 8) >>> (i % 8 * 8))

/-- The path of a request, if it is in order. -/
def Message.path (msg : Message) (start pathLen : Nat) : Option (List UInt8) :=
  if pathMrsValid msg start pathLen then some (pathFromWords msg.mrs start pathLen) else none

/-- A word of a message as an inode number or as flags. -/
def Message.word32 (msg : Message) (i : Nat) : Nat := msg.mrs i % 2 ^ 32

end Messages

section Pipes

/-- The loop of `readPipe`: take this many bytes out. -/
def Pipe.pull : Nat → Pipe → List UInt8 × Pipe
  | 0, pipe => ([], pipe)
  | n + 1, pipe =>
    let (rest, pipe') :=
      Pipe.pull n { pipe with readPos := (pipe.readPos + 1) % pipeBuf, len := pipe.len - 1 }
    (pipe.buf pipe.readPos :: rest, pipe')

/-- The loop of `writePipe`: put bytes in while there is room, and count them. -/
def Pipe.push : List UInt8 → Pipe → Nat × Pipe
  | [], pipe => (0, pipe)
  | byte :: rest, pipe =>
    if pipe.len < pipeBuf then
      let (n, pipe') := Pipe.push rest
        { pipe with
          buf := Function.update pipe.buf ((pipe.readPos + pipe.len) % pipeBuf) byte
          len := pipe.len + 1 }
      (n + 1, pipe')
    else (0, pipe)

/-- Leave bytes at the beginning of the shared buffer. -/
def Server.share (s : Server) (bytes : List UInt8) : Server :=
  { s with shared := fun i => bytes.getD i (s.shared i) }

/-- The first bytes of the shared buffer. -/
def Server.sharedBytes (s : Server) (len : Nat) : List UInt8 := (List.range len).map s.shared

def readPipe (pipe maxLen : Nat) : Srv Reply := do
  if maxPipes ≤ pipe then return .err
  let s ← get
  let p := s.pipes pipe
  if p.len = 0 then
    if 0 < p.writers then return { status := statusWouldBlock }
    return { status := statusOk, second := FileKind.raw .file }
  let n := min maxLen p.len
  let (bytes, p') := p.pull n
  set ((s.updPipe pipe fun _ => p').share bytes)
  return { status := statusOk, first := n, second := FileKind.raw .file }

def writePipe (pipe maxLen : Nat) : Srv Reply := do
  if maxPipes ≤ pipe then return .err
  let s ← get
  let p := s.pipes pipe
  if p.readers = 0 then return { status := statusBrokenPipe }
  if pipeBuf ≤ p.len then return { status := statusWouldBlock }
  let (n, p') := p.push (s.sharedBytes maxLen)
  set (s.updPipe pipe fun _ => p')
  return { status := statusOk, first := n, second := FileKind.raw .file }

def handlePipe (msg : Message) : Srv Reply := do
  if !validHost msg then return .err
  let some pipe ← allocPipe | return .err
  let some readFile ← allocFile .pipeRead 0 pipe true false
    | do
      clearPipe pipe
      return .err
  let some writeFile ← allocFile .pipeWrite 0 pipe false true
    | do
      let _ ← releaseFile readFile
      clearPipe pipe
      return .err
  if !(← openPipe pipe) then
    let _ ← releaseFile readFile
    let _ ← releaseFile writeFile
    clearPipe pipe
    return .err
  return { status := statusOk, first := readFile, second := writeFile }

end Pipes

section Files

def readRamFile (rootfs : List UInt8) (file maxLen : Nat) : Srv Reply := do
  if !(← acquireFileIo file) then return .err
  let some f := (← get).fileSnapshot file
    | do
      releaseFileIo file
      return .err
  let s ← get
  let reply ← match s.fs.readInode rootfs f.node f.offset maxLen with
    | .ok bytes => do
      modify fun s => s.share bytes
      addFileOffset file bytes.length
      pure { status := statusOk, first := bytes.length, second := f.kind.raw }
    | .error (.errno e) => pure (Reply.errCode e)
    | .error stop => throw stop
  releaseFileIo file
  return reply

def writeRamFile (rootfs : List UInt8) (file maxLen : Nat) : Srv Reply := do
  if !(← acquireFileIo file) then return .err
  let some f := (← get).fileSnapshot file
    | do
      releaseFileIo file
      return .err
  let data := (← get).sharedBytes maxLen
  let reply ← match ← onFs (attempt (writeInode rootfs f.node f.offset data)) with
    | .ok n => do
      addFileOffset file n
      pure { status := statusOk, first := n, second := FileKind.raw .file }
    | .error e => pure (Reply.errCode e)
  releaseFileIo file
  return reply

end Files

section Requests

/-- What the console has to say to a request; it has a state of its own that nothing else sees. -/
structure Console where
  init : Bool
  read : Nat → Reply × List UInt8
  write : Nat → Reply

/-- The path `/tmp`. -/
def tmpPath : List UInt8 := [slash, 0x74, 0x6d, 0x70]

def handleInit (rootfs : List UInt8) (console : Console) (msg : Message) : Srv Reply := do
  if !validHost msg then return .err
  resetAll
  onFs (modify fun fs => fs.reset.initRoot)
  if !(← onFs (unpack rootfs)) then return .err
  match ← onFs (attempt (ensureDir tmpPath)) with
  | .error _ => return .err
  | .ok _ =>
    match ← onFs (attempt installConsole) with
    | .error _ => return .err
    | .ok _ => if !console.init then return .err else return .ok

def handleProcInit (msg : Message) : Srv Reply := do
  if !validHost msg then return .err
  if !(← onFs (retain rootIno)) then return .err
  let some stdinFile ← allocFile .console consoleIno 0 true true
    | do
      let _ ← onFs (release rootIno)
      return .err
  let some stdoutFile ← allocFile .console consoleIno 0 true true
    | do
      let _ ← releaseFile stdinFile
      let _ ← onFs (release rootIno)
      return .err
  let some stderrFile ← allocFile .console consoleIno 0 true true
    | do
      let _ ← releaseFile stdinFile
      let _ ← releaseFile stdoutFile
      let _ ← onFs (release rootIno)
      return .err
  return { status := statusOk, first := stdinFile, second := stdoutFile, third := stderrFile }

def handleProcFork (msg : Message) : Srv Reply := do
  if !validHost msg then return .err
  let cwdInum := msg.word32 2
  if cwdInum = 0 then return .ok
  if ← onFs (retain cwdInum) then return .ok else return .err

def handleProcExit (msg : Message) : Srv Reply := do
  if !validHost msg then return .err
  let cwdInum := msg.word32 2
  if cwdInum = 0 then return .ok
  if ← onFs (release cwdInum) then return .ok else return .err

/-- What an open file for an inode stands for; the console needs no inode. -/
def openTarget (inum : Nat) : FileKind → Srv (OpenKind × Nat)
  | .file => pure (.ramFile, inum)
  | .directory => pure (.ramDir, inum)
  | .device => do
    let _ ← onFs (release inum)
    pure (.console, consoleIno)

/-- Second half of `handleOpen`: a slot of the table for an inode that was found. -/
def openInode (flags inum : Nat) (kind : FileKind) (size : Nat) : Srv Reply := do
  let (fileKind, node) ← openTarget inum kind
  let some file ← allocFile fileKind node 0 (openReadable flags) (openWritable flags)
    | do
      if fileKind ≠ .console then
        let _ ← onFs (release inum)
      return .err
  return { status := statusOk, first := file, second := kind.raw, third := size }

def handleOpen (msg : Message) : Srv Reply := do
  if !validHost msg then return .err
  let flags := msg.word32 2
  let some path := msg.path 4 (msg.mrs 3) | return .err
  match ← onFs (attempt (openPath path flags)) with
  | .error e => return .errCode e
  | .ok (inum, kind, size) => openInode flags inum kind size

def handleClose (msg : Message) : Srv Reply := do
  if !validHost msg then return .err
  match ← detachFile (msg.mrs 2) with
  | .invalid => return .errCode .ebadf
  | .done => return .ok
  | .inode inum => if ← onFs (release inum) then return .ok else return .err

def handleDup (msg : Message) : Srv Reply := do
  if !validHost msg then return .errCode .ebadf
  if !(← retainFile (msg.mrs 2)) then return .errCode .ebadf
  return { status := statusOk, first := msg.mrs 2 }

def handleRead (rootfs : List UInt8) (console : Console) (msg : Message) : Srv Reply := do
  if !validHost msg then return .err
  let file := msg.mrs 2
  let maxLen := min (msg.mrs 3) maxIoBytes
  let some f := (← get).fileSnapshot file | return .errCode .ebadf
  if !f.readable then return .errCode .ebadf
  match f.kind with
  | .ramFile | .ramDir => readRamFile rootfs file maxLen
  | .pipeRead => readPipe f.aux maxLen
  | .console =>
    let (reply, bytes) := console.read maxLen
    modify fun s => s.share bytes
    return reply
  | _ => return .err

def handleWrite (rootfs : List UInt8) (console : Console) (msg : Message) : Srv Reply := do
  if !validHost msg then return .err
  let file := msg.mrs 2
  let maxLen := min (msg.mrs 3) maxIoBytes
  let some f := (← get).fileSnapshot file | return .errCode .ebadf
  if !f.writable then return .errCode .ebadf
  match f.kind with
  | .ramFile => writeRamFile rootfs file maxLen
  | .pipeWrite => writePipe f.aux maxLen
  | .console => return console.write maxLen
  | _ => return .err

/-- Kind and number of links in one word. -/
def packStatKindNlink (kind nlink : Nat) : Nat := kind ||| nlink <<< 16

def handleFstat (msg : Message) : Srv Reply := do
  if !validHost msg then return .err
  let s ← get
  let some f := s.fileSnapshot (msg.mrs 2) | return .errCode .ebadf
  match f.kind with
  | .ramFile | .ramDir =>
    let some node := s.fs.inode f.node | return .err
    return {
      status := statusOk
      first := packStatKindNlink node.kind.raw node.nlink
      second := f.node
      third := node.size }
  | .pipeRead | .pipeWrite =>
    return {
      status := statusOk
      first := packStatKindNlink (FileKind.raw .file) 1
      second := 4 + f.aux
      third := 1 }
  | .console =>
    return {
      status := statusOk
      first := packStatKindNlink (FileKind.raw .device) 1
      second := consoleIno
      third := 1 }
  | .closed => return .err

def handleChdir (msg : Message) : Srv Reply := do
  if !validHost msg then return .err
  let oldCwd := msg.word32 2
  let some path := msg.path 4 (msg.mrs 3) | return .err
  let s ← get
  match s.fs.walk path with
  | .error e => return .errCode e
  | .ok inum =>
    let some node := s.fs.inode inum | return .err
    if node.kind ≠ .directory then return .errCode .enotdir
    if !(← onFs (retain inum)) then return .err
    if oldCwd ≠ 0 then
      let _ ← onFs (release oldCwd)
    return { status := statusOk, first := inum }

def handleUnlink (msg : Message) : Srv Reply := do
  if !validHost msg then return .err
  let flags := msg.word32 3
  let some path := msg.path 4 (msg.mrs 2) | return .err
  match ← onFs (attempt (unlink path flags)) with
  | .ok _ => return .ok
  | .error e => return .errCode e

def handleMkdir (msg : Message) : Srv Reply := do
  if !validHost msg then return .err
  let some path := msg.path 3 (msg.mrs 2) | return .err
  match ← onFs (attempt (mkdir path)) with
  | .ok _ => return .ok
  | .error e => return .errCode e

def handleExecOpen (msg : Message) : Srv Reply := do
  if !validHost msg then return .err
  let some path := msg.path 3 (msg.mrs 2) | return .err
  match ← onFs (attempt (openPath path 0)) with
  | .error e => return .errCode e
  | .ok (inum, kind, size) =>
    if kind = .file then return { status := statusOk, first := inum, second := size }
    let _ ← onFs (release inum)
    return .err

def handleExecRead (rootfs : List UInt8) (msg : Message) : Srv Reply := do
  if !validHost msg then return .err
  let request := min (msg.mrs 5) maxIoBytes
  match (← get).fs.readInode rootfs (msg.word32 2) (msg.mrs 3) request with
  | .ok bytes =>
    modify fun s => s.share bytes
    return { status := statusOk, first := bytes.length }
  | .error (.errno e) => return .errCode e
  | .error stop => throw stop

def handleExecClose (msg : Message) : Srv Reply := do
  if !validHost msg then return .err
  if ← onFs (release (msg.word32 2)) then return .ok else return .err

/-- A word read as a signed number. -/
def signedWord (word : Nat) : Int := (word : Int).bmod (2 ^ 64)

def handleLseek (msg : Message) : Srv Reply := do
  if !validHost msg then return .err
  let s ← get
  let some f := s.fileSnapshot (msg.mrs 2) | return .errCode .ebadf
  if f.kind ≠ .ramFile ∧ f.kind ≠ .ramDir then return .errCode .einval
  match s.fs.seek f.node f.offset (signedWord (msg.mrs 3)) (msg.mrs 4) with
  | .ok next =>
    setFileOffset (msg.mrs 2) next
    return { status := statusOk, first := next }
  | .error e => return .errCode e

/-- What is asked for; the order is that of the numbers in the label. -/
inductive VfsOp
  | init
  | procInit
  | procFork
  | procExit
  | open
  | close
  | dup
  | read
  | write
  | fstat
  | chdir
  | pipe
  | unlink
  | mkdir
  | execOpen
  | execRead
  | execClose
  | getcwd
  | lseek
deriving DecidableEq

def VfsOp.fromRaw (value : Nat) : Option VfsOp :=
  [.init, .procInit, .procFork, .procExit, .open, .close, .dup, .read, .write, .fstat, .chdir, .pipe, .unlink,
    .mkdir, .execOpen, .execRead, .execClose, .getcwd, .lseek][value]?

/-- How a request ends: with an answer to the call, or with one that was sent on its own. -/
inductive RequestResult
  | reply (mrs : Reply)
  | deferred (requestId : Nat) (mrs : Reply)

/-- Requests that the host may also send without waiting. -/
def handleHostRequest (msg : Message) (handler : Srv Reply) : Srv RequestResult := do
  let some request := hostRequest msg | return .reply .err
  let reply ← handler
  if request.asyncRequest then return .deferred request.requestId reply
  else return .reply reply

def handleRequest (rootfs : List UInt8) (console : Console) (msg : Message) : Srv RequestResult :=
  match VfsOp.fromRaw msg.label with
  | some .init => .reply <$> handleInit rootfs console msg
  | some .procInit => .reply <$> handleProcInit msg
  | some .procFork => .reply <$> handleProcFork msg
  | some .procExit => .reply <$> handleProcExit msg
  | some .open => handleHostRequest msg (handleOpen msg)
  | some .close => handleHostRequest msg (handleClose msg)
  | some .dup => handleHostRequest msg (handleDup msg)
  | some .read => handleHostRequest msg (handleRead rootfs console msg)
  | some .write => handleHostRequest msg (handleWrite rootfs console msg)
  | some .fstat => handleHostRequest msg (handleFstat msg)
  | some .chdir => handleHostRequest msg (handleChdir msg)
  | some .pipe => handleHostRequest msg (handlePipe msg)
  | some .unlink => handleHostRequest msg (handleUnlink msg)
  | some .mkdir => handleHostRequest msg (handleMkdir msg)
  | some .execOpen => handleHostRequest msg (handleExecOpen msg)
  | some .execRead => handleHostRequest msg (handleExecRead rootfs msg)
  | some .execClose => handleHostRequest msg (handleExecClose msg)
  | some .getcwd => return .reply .ok
  | some .lseek => handleHostRequest msg (handleLseek msg)
  | none => return .reply (.errCode .enosys)

end Requests

end Rel4.Vfs
