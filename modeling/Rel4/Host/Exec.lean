import Rel4.Host.Memory

/-!
Loading a program: the checks of an image, its segments, the arguments, and the first contents of the stack.

Where the host stops for good, a function has no result.
-/

namespace Rel4.Host

def maxExecPathBytes : Nat := 384
def maxExecArgs : Nat := 32
def maxExecArgLen : Nat := 128

section Words

def readU16 (buf : List UInt8) (off : Nat) : Nat := (buf.getD off 0).toNat + 256 * (buf.getD (off + 1) 0).toNat

def readU32 (buf : List UInt8) (off : Nat) : Nat := readU16 buf off + 65536 * readU16 buf (off + 2)

def readU64 (buf : List UInt8) (off : Nat) : Nat := readU32 buf off + 4294967296 * readU32 buf (off + 4)

/-- The bytes of a word, the lowest first. -/
def wordBytes (value : Nat) : List UInt8 :=
  [UInt8.ofNat value, UInt8.ofNat (value / 256), UInt8.ofNat (value / 65536), UInt8.ofNat (value / 16777216),
    UInt8.ofNat (value / 4294967296), UInt8.ofNat (value / 1099511627776), UInt8.ofNat (value / 281474976710656),
    UInt8.ofNat (value / 72057594037927936)]

/-- The number of the first page that starts at or behind an address; the sum wraps around. -/
def alignUpPage (v : Nat) : Nat := (v + pageSize - 1) % 18446744073709551616 / pageSize

def saturatingAdd (x y : Nat) : Nat := min (x + y) 18446744073709551615

end Words

section Image

/-- A program header, as far as the loader reads it. -/
structure ProgramHeader where
  type : Nat
  flags : Nat
  offset : Nat
  vaddr : Nat
  filesz : Nat
  memsz : Nat
deriving DecidableEq

def elfPhnum (elf : List UInt8) : Nat := readU16 elf 56

end Image

section Load

variable (arch : Arch)

def ProgramHeader.writable (header : ProgramHeader) : Bool := header.flags &&& 2 ≠ 0

def ProgramHeader.executable (header : ProgramHeader) : Bool := header.flags &&& 1 ≠ 0

def ProgramHeader.start (header : ProgramHeader) : Nat := header.vaddr / pageSize

def ProgramHeader.stop (header : ProgramHeader) : Nat := alignUpPage (saturatingAdd header.vaddr header.memsz)

end Load

section Stack

variable (arch : Arch)

/-- A stack pointer that leaves room below another, above the end of the stack. -/
def roomBelow (sp stackBase size : Nat) : Option Nat :=
  if sp < size ∨ sp - size < stackBase then none else some (sp - size)

def pushCstr (child : Task) (sp stackBase : Nat) (bytes : List UInt8) (s : Memory) : Option Nat × Memory :=
  match roomBelow sp stackBase (bytes.length + 1) with
  | none => (none, s)
  | some sp =>
    let (text, s) := s.copyToChild arch child sp bytes
    if text then
      let (ended, s) := s.copyToChild arch child (sp + bytes.length) [0]
      (if ended then some sp else none, s)
    else (none, s)

/-- Push texts one below the other; the answer is the new stack pointer, and where each of them is. -/
def pushCstrs (child : Task) (stackBase : Nat) : List (List UInt8) → Nat → Memory → Option (Nat × List Nat) × Memory
  | [], sp, s => (some (sp, []), s)
  | bytes :: rest, sp, s =>
    match pushCstr arch child sp stackBase bytes s with
    | (none, s) => (none, s)
    | (some sp, s) =>
      let (result, s) := pushCstrs child stackBase rest sp s
      (result.map fun result => (result.1, sp :: result.2), s)

def writeU64At (child : Task) (sp stackBase value : Nat) (s : Memory) : Option Nat × Memory :=
  match roomBelow sp stackBase 8 with
  | none => (none, s)
  | some sp =>
    let (written, s) := s.copyToChild arch child sp (wordBytes value)
    (if written then some sp else none, s)

/-- Push words one below the other. -/
def pushWords (child : Task) (stackBase : Nat) : List Nat → Nat → Memory → Option Nat × Memory
  | [], sp, s => (some sp, s)
  | value :: rest, sp, s =>
    match writeU64At arch child sp stackBase value s with
    | (none, s) => (none, s)
    | (some sp, s) => pushWords child stackBase rest sp s

/-- The bytes that stand for random ones. -/
def stackRandom (pid : Nat) : List UInt8 :=
  ((List.range 16).foldl
    (fun acc _ =>
      let seed := (acc.1 * 1664525 + 1013904223) % 18446744073709551616
      (seed, acc.2 ++ [UInt8.ofNat (seed / 16777216)]))
    (pid * 0x9e3779b9 % 18446744073709551616, [])).2

def atNull : Nat := 0
def atPhdr : Nat := 3
def atPhent : Nat := 4
def atPhnum : Nat := 5
def atPagesz : Nat := 6
def atBase : Nat := 7
def atFlags : Nat := 8
def atEntry : Nat := 9
def atUid : Nat := 11
def atEuid : Nat := 12
def atGid : Nat := 13
def atEgid : Nat := 14
def atClktck : Nat := 17
def atSecure : Nat := 23
def atRandom : Nat := 25
def atExecfn : Nat := 31

/-- What a program is told about itself: pairs of a tag and a value. -/
def auxVector (child : Task) (randomPtr execfn : Nat) : List (Nat × Nat) :=
  [(atPhdr, child.elfPhdr), (atPhent, child.elfPhent), (atPhnum, child.elfPhnum), (atPagesz, pageSize), (atBase, 0),
    (atFlags, 0), (atEntry, child.entry), (atUid, 0), (atEuid, 0), (atGid, 0), (atEgid, 0), (atSecure, 0),
    (atClktck, 100), (atRandom, randomPtr), (atExecfn, execfn), (atNull, 0)]

/-- The path of the program, below the arguments and the environment. -/
def pushExecfn (child : Task) (stackBase sp : Nat) (s : Memory) : Option (Nat × Nat) × Memory :=
  if child.execPath = [] then (some (sp, 0), s)
  else
    let (result, s) := pushCstr arch child sp stackBase child.execPath s
    (result.map fun sp => (sp, sp), s)

/-- Below all texts: the random bytes, the vector, and the pointers to environment and arguments. -/
def pushTables (child : Task) (stackBase sp execfn : Nat) (argPtrs envPtrs : List Nat) (s : Memory) :
    Option Nat × Memory :=
  if sp < 16 ∨ (sp - 16) / 16 * 16 < stackBase then (none, s)
  else
    let sp := (sp - 16) / 16 * 16
    let (written, s) := s.copyToChild arch child sp (stackRandom child.pid)
    if written then
      let words := argPtrs.length :: argPtrs ++ 0 :: envPtrs ++
        0 :: (auxVector child sp execfn).flatMap fun pair => [pair.1, pair.2]
      pushWords arch child stackBase words.reverse sp s
    else (none, s)

/-- Fill the top of a new stack; the answer is the first stack pointer. -/
def setupLinuxStack (child : Task) (args envs : List (List UInt8)) (s : Memory) : Option Nat × Memory :=
  if child.heapStart < pageSize * childStackPages then (none, s)
  else
    let stackBase := child.heapStart - pageSize * childStackPages
    match pushCstrs arch child stackBase args child.heapStart s with
    | (none, s) => (none, s)
    | (some (sp, argPtrs), s) =>
      match pushCstrs arch child stackBase envs sp s with
      | (none, s) => (none, s)
      | (some (sp, envPtrs), s) =>
        match pushExecfn arch child stackBase sp s with
        | (none, s) => (none, s)
        | (some (sp, execfn), s) => pushTables arch child stackBase sp execfn argPtrs envPtrs s

end Stack

section Arguments

variable (arch : Arch)

/-- The bytes of a text in a process, up to its end; there must be one in this many bytes. -/
def copyCstrFromChild (child : Task) : Nat → Nat → Memory → Option (List UInt8) × Memory
  | 0, _, s => (none, s)
  | left + 1, va, s =>
    match s.copyFromChild arch child va 1 with
    | (some [byte], s) =>
      if byte = 0 then (some [], s)
      else
        let (rest, s) := copyCstrFromChild child left (va + 1) s
        (rest.map (byte :: ·), s)
    | (_, s) => (none, s)

/-- The texts that an array of pointers in a process points at; a zero ends it. -/
def collectExecArgs (child : Task) : Nat → Nat → Memory → Option (List (List UInt8)) × Memory
  | 0, _, s => (none, s)
  | left + 1, argvPtr, s =>
    match s.copyFromChild arch child argvPtr 8 with
    | (none, s) => (none, s)
    | (some bytes, s) =>
      if readU64 bytes 0 = 0 then (some [], s)
      else
        match copyCstrFromChild arch child maxExecArgLen (readU64 bytes 0) s with
        | (none, s) => (none, s)
        | (some arg, s) =>
          let (rest, s) := collectExecArgs child left (argvPtr + 8) s
          (rest.map (arg :: ·), s)

end Arguments

end Rel4.Host
