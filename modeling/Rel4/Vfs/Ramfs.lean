import Mathlib.Algebra.Group.Int.Defs
import Mathlib.Algebra.Group.Nat.Defs
import Mathlib.Data.List.DropRight
import Mathlib.Data.List.FinRange

/-! The file server's file system in memory: inodes, directory entries and data pages. -/

namespace Rel4.Vfs

/-- Inode slots; the first one is never used. -/
def maxInodes : Nat := 256
/-- Slots for directory entries. -/
@[irreducible]
def maxDirEntries : Nat := 1024
/-- Bytes of a name. -/
def nameMax : Nat := 64
/-- Data pages of the whole file system. -/
def maxDataPages : Nat := 128
/-- Bytes of a data page. -/
def page : Nat := 4096
/-- Pages one file may have. -/
def maxFilePages : Nat := 256
/-- Bytes of a path. -/
def maxPathBytes : Nat := 384
/-- The inode of the root directory. -/
def rootIno : Nat := 1
/-- The inode the console is given if it is free. -/
def consoleIno : Nat := 3
/-- The largest value of the counters of an inode. -/
def u16Max : Nat := 2 ^ 16 - 1
/-- The largest address-sized word. -/
def usizeMax : Nat := 2 ^ 64 - 1

/-- Why a request failed. -/
inductive Errno
  | enoent
  | ebadf
  | enomem
  | eexist
  | enotdir
  | eisdir
  | einval
  | enospc
  | enosys
  | enotempty
deriving DecidableEq

/-- The number an error is reported as. -/
def Errno.code : Errno → Nat
  | enoent => 2
  | ebadf => 9
  | enomem => 12
  | eexist => 17
  | enotdir => 20
  | eisdir => 21
  | einval => 22
  | enospc => 28
  | enosys => 38
  | enotempty => 39

def oAccmode : Nat := 3
def oWronly : Nat := 1
def oRdwr : Nat := 2
def oCreat : Nat := 0o100
def oExcl : Nat := 0o200
def oTrunc : Nat := 0o1000
def oDirectory : Nat := 0o200000
def atRemovedir : Nat := 0x200

/-- Whether a file is opened for reading. -/
def openReadable (flags : Nat) : Bool := flags &&& oAccmode != oWronly

/-- Whether a file is opened for writing. -/
def openWritable (flags : Nat) : Bool :=
  flags &&& oAccmode == oWronly || flags &&& oAccmode == oRdwr

/-- What an inode is. -/
inductive FileKind
  | directory
  | file
  | device
deriving DecidableEq

/-- The number a kind is reported as. -/
def FileKind.raw : FileKind → Nat
  | directory => 1
  | file => 2
  | device => 3

abbrev Name := List UInt8

def slash : UInt8 := 0x2f
def dot : UInt8 := 0x2e

/-- The names that stand for the directory itself and for the one above it. -/
def Name.isDot (name : Name) : Bool := name == [dot] || name == [dot, dot]

/-- Where the bytes of an inode are: nowhere yet, in the archive, or in data pages. -/
inductive InodeData
  | none
  | embedded (offset len : Nat)
  | pages (pages : List (Fin maxDataPages))
deriving DecidableEq

@[ext]
structure Inode where
  used : Bool := false
  kind : FileKind := .file
  nlink : Nat := 0
  refs : Nat := 0
  size : Nat := 0
  parent : Nat := 0
  src : InodeData := .none
deriving DecidableEq

@[ext]
structure Dirent where
  used : Bool := false
  parent : Nat := 0
  child : Nat := 0
  name : Name := []
deriving DecidableEq

@[ext]
structure Ramfs where
  inodes : Nat → Inode := fun _ => {}
  dirents : Nat → Dirent := fun _ => {}
  pages : Fin maxDataPages → Nat → UInt8 := fun _ _ => 0
  pageUsed : Fin maxDataPages → Bool := fun _ => false

/-- Why an operation stopped: with an answer for its caller, or for good. -/
inductive Stop
  | errno (e : Errno)
  | panic (text : String)
  | outOfFuel
deriving DecidableEq

/-- Operations on the file system; what they did before they stopped stays done. -/
abbrev Fs := EStateM Stop Ramfs

variable {α : Type}

def err (e : Errno) : Fs α := throw (.errno e)

/-- The value, or an error in its place. -/
def orErr (value : Option α) (e : Errno) : Fs α :=
  match value with
  | some value => pure value
  | none => err e

/-- Run an operation and look at its answer. -/
def attempt (prog : Fs α) : Fs (Except Errno α) := fun s =>
  match prog s with
  | .ok value s' => .ok (.ok value) s'
  | .error (.errno e) s' => .ok (.error e) s'
  | .error stop s' => .error stop s'

/-- Bytes of a slice; a slice that ends outside is a panic. -/
def slice (bytes : List UInt8) (first last : Nat) : Except Stop (List UInt8) :=
  if first ≤ last ∧ last ≤ bytes.length then .ok ((bytes.drop first).take (last - first))
  else .error (.panic "range end index out of range for slice")

def Ramfs.updInode (fs : Ramfs) (inum : Nat) (change : Inode → Inode) : Ramfs :=
  { fs with inodes := Function.update fs.inodes inum (change (fs.inodes inum)) }

def modifyInode (inum : Nat) (change : Inode → Inode) : Fs Unit :=
  modify fun fs => fs.updInode inum change

/-- Forget everything but the contents of the data pages. -/
def Ramfs.reset (fs : Ramfs) : Ramfs := { pages := fs.pages }

/-- Put the root directory in place; it starts with a reference of its own. -/
def Ramfs.initRoot (fs : Ramfs) : Ramfs :=
  fs.updInode rootIno fun _ =>
    { used := true, kind := .directory, nlink := 2, refs := 1, parent := rootIno }

/-- The inode in a slot that is in use. -/
def Ramfs.inode (fs : Ramfs) (inum : Nat) : Option Inode :=
  if inum < maxInodes ∧ (fs.inodes inum).used = true then some (fs.inodes inum) else none

/-- Take a reference, unless there are too many already. -/
def retain (inum : Nat) : Fs Bool := do
  let fs ← get
  if inum < maxInodes ∧ (fs.inodes inum).used ∧ (fs.inodes inum).refs ≠ u16Max then
    set (fs.updInode inum fun node => { node with refs := node.refs + 1 })
    return true
  else return false

/-- Give a reference back. -/
def release (inum : Nat) : Fs Bool := do
  let fs ← get
  if inum < maxInodes ∧ (fs.inodes inum).used then
    set (fs.updInode inum fun node => { node with refs := node.refs - 1 })
    return true
  else return false

section Paths

/-- The names in a path; the first argument is the beginning of the name being read. -/
def componentsFrom : Name → List UInt8 → List Name
  | [], [] => []
  | name, [] => [name]
  | name, byte :: rest =>
    if byte = slash then
      if name = [] then componentsFrom [] rest else name :: componentsFrom [] rest
    else componentsFrom (name ++ [byte]) rest

/-- The names in a path, which any number of slashes keep apart. -/
def components (path : List UInt8) : List Name := componentsFrom [] path

/-- The entry of a directory with a name. -/
def Ramfs.findDirent (fs : Ramfs) (dir : Nat) (name : Name) : Option Nat :=
  (List.range maxDirEntries).find? fun i =>
    (fs.dirents i).used && (fs.dirents i).parent == dir && (fs.dirents i).name == name

/-- The inode a directory has under a name. -/
def Ramfs.lookup (fs : Ramfs) (dir : Nat) (name : Name) : Option Nat :=
  (fs.findDirent dir name).map fun i => (fs.dirents i).child

/-- One step of a walk. -/
def Ramfs.walkName (fs : Ramfs) (cur : Nat) (name : Name) : Except Errno Nat :=
  if name = [dot] then .ok cur
  else if name = [dot, dot] then
    match fs.inode cur with
    | some node => .ok node.parent
    | none => .ok cur
  else
    match fs.lookup cur name with
    | some child => .ok child
    | none => .error .enoent

/-- The inode a path leads to, from the root. -/
def Ramfs.walk (fs : Ramfs) (path : List UInt8) : Except Errno Nat :=
  if path = [] then .error .enoent else (components path).foldlM fs.walkName rootIno

/-- The directory a path ends in, and the name it ends with. -/
def Ramfs.splitParent (fs : Ramfs) (path : List UInt8) : Option (Nat × Name) :=
  if path = [] then none
  else
    let trimmed := path.rdropWhile (· == slash)
    if trimmed = [] then some (rootIno, [])
    else
      let name := trimmed.rtakeWhile (· != slash)
      let start := trimmed.length - name.length
      let parentPath := if start ≤ 1 then [slash] else path.take (start - 1)
      match fs.walk parentPath with
      | .ok parent => some (parent, name)
      | .error _ => none

end Paths

section Entries

/-- Whether no entry lies in a directory. -/
def Ramfs.dirEmpty (fs : Ramfs) (dir : Nat) : Bool :=
  (List.range maxDirEntries).all fun i => !((fs.dirents i).used && (fs.dirents i).parent == dir)

def removeDirent (parent : Nat) (name : Name) : Fs Unit := do
  let fs ← get
  match fs.findDirent parent name with
  | some i => set { fs with dirents := Function.update fs.dirents i {} }
  | none => err .enoent

/-- The first inode slot that is free; the root's and the one before it are not looked for. -/
def Ramfs.freeInode (fs : Ramfs) : Option Nat :=
  (List.range' 1 (maxInodes - 1)).find? fun i => !(fs.inodes i).used

def allocInode (kind : FileKind) (parent : Nat) : Fs Nat := do
  let fs ← get
  match fs.freeInode with
  | some i =>
    set (fs.updInode i fun _ =>
      { used := true, kind, nlink := if kind = .directory then 2 else 1, parent })
    return i
  | none => err .enospc

/-- The first slot for an entry that is free. -/
def Ramfs.freeDirent (fs : Ramfs) : Option Nat :=
  (List.range maxDirEntries).find? fun i => !(fs.dirents i).used

def addDirent (parent child : Nat) (name : Name) : Fs Unit := do
  let fs ← get
  match fs.freeDirent with
  | some i =>
    set { fs with dirents := Function.update fs.dirents i { used := true, parent, child, name } }
  | none => err .enospc

/-- Make a new inode and name it. -/
def createFile (parent : Nat) (name : Name) (kind : FileKind) : Fs Nat := do
  if name.length = 0 ∨ nameMax < name.length then err .einval
  let fs ← get
  if (fs.lookup parent name).isSome then err .eexist
  let parentNode ← orErr (fs.inode parent) .enoent
  if parentNode.kind ≠ .directory then err .enotdir
  let inum ← allocInode kind parent
  addDirent parent inum name
  if kind = .directory then
    modifyInode parent fun node => { node with nlink := min (node.nlink + 1) u16Max }
  return inum

end Entries

section Data

instance (i : Fin maxDataPages) (pages : List (Fin maxDataPages)) : Decidable (i ∈ pages) :=
  inferInstance

/-- Take a page that is free, and zero it. -/
def allocPage : Fs (Fin maxDataPages) := do
  let fs ← get
  match (List.finRange maxDataPages).find? fun i => !fs.pageUsed i with
  | some i =>
    set { fs with
      pageUsed := Function.update fs.pageUsed i true
      pages := Function.update fs.pages i fun _ => 0 }
    return i
  | none => err .enospc

/-- Give the pages of an inode back. -/
def freeInodeData (inum : Nat) : Fs Unit := do
  let fs ← get
  match (fs.inodes inum).src with
  | .pages pages =>
    set { fs with pageUsed := fun i => if i ∈ pages then false else fs.pageUsed i }
  | _ => pure ()
  modifyInode inum fun node => { node with src := .none, size := 0 }

def truncate (inum : Nat) : Fs Unit := do
  freeInodeData inum
  modifyInode inum fun node => { node with size := 0, src := .pages [] }

/-- The bytes of a list of pages from a position on, as far as the pages go. -/
def Ramfs.readPages (fs : Ramfs) (pages : List (Fin maxDataPages)) : Nat → Nat → Nat → List UInt8
  | 0, _, _ => []
  | fuel + 1, pos, wanted =>
    if wanted = 0 then []
    else
      match pages[pos / page]? with
      | none => []
      | some i =>
        let inner := pos % page
        let chunk := min wanted (page - inner)
        (List.range' inner chunk).map (fs.pages i) ++
          readPages fs pages fuel (pos + chunk) (wanted - chunk)

/-- The bytes a read of some length finds at an offset. -/
def Ramfs.readInode (rootfs : List UInt8) (fs : Ramfs) (inum offset len : Nat) :
    Except Stop (List UInt8) :=
  match fs.inode inum with
  | none => .error (.errno .enoent)
  | some node =>
    if node.size ≤ offset then .ok []
    else
      let n := min len (node.size - offset)
      match node.src with
      | .embedded base _ => slice rootfs (base + offset) (base + offset + n)
      | .pages pages => .ok (fs.readPages pages n offset n)
      | .none => .ok []

/-- Give an inode this many pages more; each one is on record as soon as it is taken. -/
def extendPages (inum : Nat) : Nat → List (Fin maxDataPages) → Fs (List (Fin maxDataPages))
  | 0, pages => pure pages
  | missing + 1, pages => do
    let i ← allocPage
    modifyInode inum fun node => { node with src := .pages (pages ++ [i]) }
    extendPages inum missing (pages ++ [i])

/-- Overwrite part of a page. -/
def Ramfs.storePage (fs : Ramfs) (i : Fin maxDataPages) (inner : Nat) (bytes : List UInt8) :
    Ramfs :=
  { fs with pages := Function.update fs.pages i fun at' =>
      if inner ≤ at' ∧ at' < inner + bytes.length then bytes.getD (at' - inner) 0
      else fs.pages i at' }

/-- Write page by page, taking the pages that are missing on the way. -/
def writeChunks (inum : Nat) : Nat → Nat → List UInt8 → List (Fin maxDataPages) → Fs Unit
  | 0, _, _, _ => pure ()
  | fuel + 1, pos, data, pages => do
    if data ≠ [] then
      let pageIdx := pos / page
      if maxFilePages ≤ pageIdx then err .enospc
      let pages ← extendPages inum (pageIdx + 1 - pages.length) pages
      match pages[pageIdx]? with
      | some i =>
        let inner := pos % page
        let chunk := min data.length (page - inner)
        modify fun fs => fs.storePage i inner (data.take chunk)
        writeChunks inum fuel (pos + chunk) (data.drop chunk) pages
      | none => throw (.panic "index out of bounds")

/-- Write to an inode whose bytes are in pages. -/
def writePaged (inum offset : Nat) (data : List UInt8) : Fs Nat := do
  let fs ← get
  if !(fs.inodes inum).used || (fs.inodes inum).kind ≠ .file then err .eisdir
  let end' := min (offset + data.length) usizeMax
  modifyInode inum fun node => { node with size := max node.size end' }
  match ((← get).inodes inum).src with
  | .pages pages => writeChunks inum data.length offset data pages
  | _ => err .enomem
  return data.length

/-- Copy what is left of an archived file into pages, a buffer at a time. -/
def copyEmbedded (rootfs : List UInt8) (inum offset len : Nat) : Nat → Nat → Fs Unit
  | 0, _ => pure ()
  | fuel + 1, copied => do
    if copied < len then
      let chunk := min (len - copied) 512
      match slice rootfs (offset + copied) (offset + copied + chunk) with
      | .ok bytes =>
        -- The inode has pages by now, so the nested write finds nothing to prepare.
        let _ ← writePaged inum copied bytes
        copyEmbedded rootfs inum offset len fuel (copied + chunk)
      | .error stop => throw stop

/-- Move the bytes of an inode into pages. -/
def makeWritable (rootfs : List UInt8) (inum : Nat) : Fs Unit := do
  let node ← orErr ((← get).inode inum) .enoent
  match node.src with
  | .pages _ => pure ()
  | .none => modifyInode inum fun node => { node with src := .pages [] }
  | .embedded offset len =>
    modifyInode inum fun node => { node with src := .pages [], size := 0 }
    copyEmbedded rootfs inum offset len len 0

def writeInode (rootfs : List UInt8) (inum offset : Nat) (data : List UInt8) : Fs Nat := do
  makeWritable rootfs inum
  writePaged inum offset data

/-- The offset a seek leads to; the sum saturates at the largest signed word. -/
def Ramfs.seek (fs : Ramfs) (inum current : Nat) (offset : Int) (whence : Nat) :
    Except Errno Nat :=
  match fs.inode inum with
  | none => .error .enoent
  | some node =>
    let from' (base : Nat) : Except Errno Nat :=
      let base : Int := (base : Int).bmod (2 ^ 64)
      let next := max (-2 ^ 63) (min (base + offset) (2 ^ 63 - 1))
      if next < 0 then .error .einval else .ok next.toNat
    match whence % 2 ^ 32 with
    | 0 => from' 0
    | 1 => from' current
    | 2 => from' node.size
    | _ => .error .einval

end Data

section Operations

/-- Open a path, making the file if that is asked for; the inode is left with a reference more. -/
def openPath (path : List UInt8) (flags : Nat) : Fs (Nat × FileKind × Nat) := do
  let fs ← get
  match fs.walk path with
  | .ok inum =>
    if flags &&& oExcl ≠ 0 ∧ flags &&& oCreat ≠ 0 then err .eexist
    let node ← orErr (fs.inode inum) .enoent
    if flags &&& oDirectory ≠ 0 ∧ node.kind ≠ .directory then err .enotdir
    if node.kind = .directory ∧ (flags &&& oTrunc ≠ 0 ∨ openWritable flags) then err .eisdir
    if flags &&& oTrunc ≠ 0 ∧ node.kind = .file then truncate inum
    let _ ← retain inum
    let node ← orErr ((← get).inode inum) .enoent
    return (inum, node.kind, node.size)
  | .error e =>
    if e = .enoent ∧ flags &&& oCreat ≠ 0 then
      let (parent, name) ← orErr (fs.splitParent path) .enoent
      if name = [] ∨ name.isDot then err .einval
      let inum ← createFile parent name .file
      let _ ← retain inum
      return (inum, .file, 0)
    else err e

def mkdir (path : List UInt8) : Fs Nat := do
  let fs ← get
  match fs.walk path with
  | .ok _ => err .eexist
  | .error _ =>
    let (parent, name) ← orErr (fs.splitParent path) .enoent
    if name = [] ∨ name.isDot then err .einval
    createFile parent name .directory

/-- Second half of `unlink`: the last name of the path goes, and the inode with it if nothing
holds it and it is no directory. -/
def unlinkInode (path : List UInt8) (inum : Nat) : Fs Unit := do
  let (parent, name) ← orErr ((← get).splitParent path) .enoent
  removeDirent parent name
  modifyInode inum fun node => { node with nlink := node.nlink - 1 }
  let node := (← get).inodes inum
  if node.nlink = 0 ∧ node.refs = 0 ∧ node.kind ≠ .directory then
    freeInodeData inum
    modifyInode inum fun _ => {}

/-- Remove a file or, if the flags say so, an empty directory. -/
def unlink (path : List UInt8) (flags : Nat) : Fs Unit := do
  let fs ← get
  match fs.walk path with
  | .error _ => err .enoent
  | .ok inum =>
    let node ← orErr (fs.inode inum) .enoent
    if flags &&& atRemovedir ≠ 0 then
      if node.kind ≠ .directory then err .enotdir
      if !fs.dirEmpty inum then err .enotempty
    else if node.kind = .directory then err .eisdir
    unlinkInode path inum

/-- The directory a path leads to, made if it is not there. -/
def ensureDir (path : List UInt8) : Fs Nat := do
  let fs ← get
  match fs.walk path with
  | .ok inum =>
    let node ← orErr (fs.inode inum) .enoent
    if node.kind ≠ .directory then err .enotdir
    return inum
  | .error e => if e = .enoent then mkdir path else err e

/-- The path `/dev`. -/
def devPath : List UInt8 := [slash, 0x64, 0x65, 0x76]
/-- The name `console`. -/
def consoleName : Name := [0x63, 0x6f, 0x6e, 0x73, 0x6f, 0x6c, 0x65]

/-- Name the console, in the inode kept for it if that is free. -/
def installConsole : Fs Nat := do
  match (← get).walk (devPath ++ slash :: consoleName) with
  | .ok inum => return inum
  | .error _ =>
    let _ ← ensureDir devPath
    let fs ← get
    let dev := (fs.walk devPath).toOption.getD rootIno
    if consoleIno < maxInodes ∧ (fs.inodes consoleIno).used = false then
      modifyInode consoleIno fun _ =>
        { used := true, kind := .device, nlink := 1, parent := dev }
      addDirent dev consoleIno consoleName
      return consoleIno
    else createFile dev consoleName .device

/-- Name a file whose bytes are in the archive. -/
def embedFile (path : List UInt8) (offset len : Nat) : Fs Nat := do
  let fs ← get
  match fs.walk path with
  | .ok inum => return inum
  | .error _ =>
    let (parent, name) ← orErr (fs.splitParent path) .enoent
    if name = [] then return parent
    if (fs.inodes parent).used = false then err .enoent
    let inum ← createFile parent name .file
    modifyInode inum fun node => { node with size := len, src := .embedded offset len }
    return inum

def embedDir (path : List UInt8) : Fs Nat := ensureDir path

end Operations

end Rel4.Vfs
