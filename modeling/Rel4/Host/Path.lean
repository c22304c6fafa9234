import Rel4.Vfs.Ramfs

/-! How the host makes an absolute path of the path a process gives, before the file server walks it. -/

namespace Rel4.Host

open Vfs (Name slash dot components)

/-- The loop that goes back over the last name: the bytes that are left, from so many on. -/
def stepBack (out : List UInt8) : Nat → Nat
  | 0 => 0
  | 1 => 1
  | n + 2 => if out.getD (n + 1) 0 = slash then n + 2 else stepBack out (n + 1)

/-- Take back the last name of a path, and the slash before it unless it is the first byte. -/
def stepUp (out : List UInt8) : List UInt8 :=
  let left := stepBack out out.length
  out.take (if 1 < left then left - 1 else left)

/-- Take one name of the given path to the path made so far. -/
def resolveName (out : List UInt8) (name : Name) : Option (List UInt8) :=
  if name = [dot] then some out
  else if name = [dot, dot] then if 1 < out.length then some (stepUp out) else some out
  else
    let needSlash := decide (1 < out.length)
    if Vfs.maxPathBytes < out.length + (name.length + needSlash.toNat) then none
    else some (out ++ (if needSlash then [slash] else []) ++ name)

def resolveChildPath (cwd path : List UInt8) : Option (List UInt8) :=
  if path = [] then none
  else if path.head? = some slash then (components path).foldlM resolveName [slash]
  else if cwd.head? ≠ some slash ∨ Vfs.maxPathBytes < cwd.length then none
  else (components path).foldlM resolveName cwd

end Rel4.Host
