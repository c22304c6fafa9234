import Mathlib.Logic.Function.Basic

/-! The console of the file server: line editing on input, and reads that stop at line ends. -/

namespace Rel4

namespace Console

/-- Bytes the console holds. -/
def bufSize : Nat := 128

def newline : UInt8 := 0x0a
def carriageReturn : UInt8 := 0x0d
def ctrlD : UInt8 := 0x04
def ctrlH : UInt8 := 0x08
def ctrlU : UInt8 := 0x15
def del : UInt8 := 0x7f

end Console

open Console

/--
The buffer and its three indices, which are never reduced and wrap around with the machine word.

Reads take from `r`, committed input ends at `w`, and the line being edited ends at `e`.
-/
structure ConsoleState where
  buf : Nat → UInt8 := fun _ => 0
  r : BitVec 64 := 0
  w : BitVec 64 := 0
  e : BitVec 64 := 0

namespace ConsoleState

variable (console : ConsoleState)

/-- Whether another character fits. -/
def consoleInputRoom : Bool := (console.e - console.r).toNat < bufSize

/-- Whether the line being edited has a character to take back. -/
def canEraseConsoleChar : Bool := console.e != console.w

/-- Take back the last character of the line. -/
def eraseConsoleChar : ConsoleState := { console with e := console.e - 1 }

/-- Add a character; a line end, an end of file or a full buffer commits the line. -/
def pushConsoleChar (ch : UInt8) : ConsoleState :=
  let buf := Function.update console.buf (console.e.toNat % bufSize) ch
  let e := console.e + 1
  let commit := ch == newline || ch == ctrlD || (e - console.r).toNat == bufSize
  { console with buf, e, w := if commit then e else console.w }

/-- Take back characters while there are any, at most so many. -/
def killConsoleLine : Nat → ConsoleState → ConsoleState
  | 0, console => console
  | count + 1, console =>
    if console.canEraseConsoleChar then killConsoleLine count console.eraseConsoleChar else console

/-- Handle one character of input. -/
def handleConsoleInput (ch : UInt8) : ConsoleState :=
  let ch := if ch = carriageReturn then newline else ch
  if ch = ctrlU then killConsoleLine (console.e - console.w).toNat console
  else if ch = ctrlH ∨ ch = del then
    if console.canEraseConsoleChar then console.eraseConsoleChar else console
  else if ch ≠ 0 ∧ console.consoleInputRoom then console.pushConsoleChar ch
  else console

/-- What a read returns: the bytes it copied, and whether it took an end of file. -/
structure Read where
  data : List UInt8
  eof : Bool
deriving DecidableEq

/-- The loop of a read that has copied some bytes and may copy so many more. -/
def copyConsoleOutputFrom : Nat → List UInt8 → ConsoleState → Read × ConsoleState
  | 0, data, console => ({ data, eof := false }, console)
  | left + 1, data, console =>
    if console.r = console.w then ({ data, eof := false }, console)
    else
      let ch := console.buf (console.r.toNat % bufSize)
      let next := { console with r := console.r + 1 }
      if ch = ctrlD then
        if data ≠ [] then ({ data, eof := false }, console) else ({ data, eof := true }, next)
      else if ch = newline then ({ data := data ++ [ch], eof := false }, next)
      else copyConsoleOutputFrom left (data ++ [ch]) next

/-- Copy committed input to a reader, up to the end of a line. -/
def copyConsoleOutput (maxLen : Nat) : Read × ConsoleState :=
  copyConsoleOutputFrom maxLen [] console

end ConsoleState

/-- What happens at a console. -/
inductive ConsoleEvent
  | input (ch : UInt8)
  | read (maxLen : Nat)

/-- A console and everything that was read from it. -/
structure ConsoleSession where
  console : ConsoleState := {}
  reads : List ConsoleState.Read := []

namespace ConsoleSession

/-- One character of input, or one read. -/
def step (session : ConsoleSession) : ConsoleEvent → ConsoleSession
  | .input ch => { session with console := session.console.handleConsoleInput ch }
  | .read maxLen =>
    let (read, console) := session.console.copyConsoleOutput maxLen
    { console, reads := session.reads ++ [read] }

/-- A sequence of events, from a console that has seen none. -/
def run (events : List ConsoleEvent) : ConsoleSession := events.foldl step {}

end ConsoleSession

end Rel4
