import Rel4.Vfs.Ramfs

/-! Unpacking of the archive that the file server starts from, in the `newc` format. -/

namespace Rel4.Vfs

def headerLen : Nat := 110
def sIfmt : Nat := 0o170000
def sIfdir : Nat := 0o040000
def sIfreg : Nat := 0o100000

/-- The number `070701` that every header starts with. -/
def magic : List UInt8 := [0x30, 0x37, 0x30, 0x37, 0x30, 0x31]

/-- The name `TRAILER!!!` of the entry behind the last one. -/
def trailer : Name := [0x54, 0x52, 0x41, 0x49, 0x4c, 0x45, 0x52, 0x21, 0x21, 0x21]

def hexDigit (byte : UInt8) : Option Nat :=
  if 0x30 ≤ byte ∧ byte ≤ 0x39 then some (byte.toNat - 0x30)
  else if 0x61 ≤ byte ∧ byte ≤ 0x66 then some (byte.toNat - 0x61 + 10)
  else if 0x41 ≤ byte ∧ byte ≤ 0x46 then some (byte.toNat - 0x41 + 10)
  else none

/-- A field of eight digits; no digit is shifted out of the word. -/
def parseHex (bytes : List UInt8) : Option Nat :=
  if bytes.length ≠ 8 then none
  else bytes.foldlM (fun v byte => (hexDigit byte).map (v * 16 + ·)) 0

def align4 (n : Nat) : Nat := (n + 3) / 4 * 4

/-- What the header of an entry says. -/
structure Header where
  mode : Nat
  filesize : Nat
  name : Name
  dataOff : Nat

/-- First half of the loop of `unpack`: the header at an offset, if it is in order. -/
def readHeader (blob : List UInt8) (off : Nat) : Except Stop (Option Header) := do
  if (← slice blob off (off + 6)) ≠ magic then return none
  let some mode := parseHex (← slice blob (off + 14) (off + 22)) | return none
  let some filesize := parseHex (← slice blob (off + 54) (off + 62)) | return none
  let some namesize := parseHex (← slice blob (off + 94) (off + 102)) | return none
  let nameOff := off + headerLen
  if blob.length < nameOff + namesize then return none
  let field ← slice blob nameOff (nameOff + namesize)
  let dataOff := align4 (nameOff + namesize)
  if blob.length < dataOff + filesize then return none
  return some { mode, filesize, name := field.takeWhile (· ≠ 0), dataOff }

/-- The rest of the loop of `ensureParents`, with the part of the path before it. -/
def ensureParentsFrom : List UInt8 → List UInt8 → Fs Unit
  | _, [] => pure ()
  | front, byte :: rest => do
    if byte = slash ∧ 1 < front.length then
      let _ ← attempt (embedDir front)
    ensureParentsFrom (front ++ [byte]) rest

/-- Make the directories on the way to a path, as far as that is possible. -/
def ensureParents (path : List UInt8) : Fs Unit := ensureParentsFrom (path.take 1) (path.drop 1)

/-- Second half of the loop of `unpack`: put an entry in its place. -/
def unpackEntry (header : Header) : Fs Bool := do
  if header.name = [dot] ∨ header.name = [] then return true
  let path := slash :: header.name.take (maxPathBytes - 1)
  ensureParents path
  let kind := header.mode &&& sIfmt
  if kind = sIfdir ∨ header.name.getLast? = some slash then
    return (← attempt (embedDir path)).toBool
  else if kind = 0 ∨ kind = sIfreg then
    return (← attempt (embedFile path header.dataOff header.filesize)).toBool
  else return true

/-- The loop of `unpack` from an offset on. -/
def unpackFrom (blob : List UInt8) : Nat → Nat → Fs Bool
  | 0, _ => throw .outOfFuel
  | fuel + 1, off => do
    if off + headerLen ≤ blob.length then
      match readHeader blob off with
      | .error stop => throw stop
      | .ok none => return false
      | .ok (some header) =>
        if header.name = trailer then return true
        if !(← unpackEntry header) then return false
        unpackFrom blob fuel (align4 (header.dataOff + header.filesize))
    else return true

/-- Put every file and directory of an archive in its place; false if the archive is not in order. -/
def unpack (blob : List UInt8) : Fs Bool := unpackFrom blob (blob.length + 1) 0

end Rel4.Vfs
