import Mathlib.Data.List.Basic
import Mathlib.Data.List.Induction
import Rel4.Lib.Ring
import Rel4.Vfs.Console

/-! The console as a line discipline: what is committed, and what reads make of it. -/

namespace Rel4

open Lib Console ConsoleState

variable {console : ConsoleState} {unread line : List UInt8} {ch : UInt8}

section Discipline

/-- What has been read, what is committed but not read yet, and the line being edited. -/
structure Discipline where
  consumed : List UInt8 := []
  unread : List UInt8 := []
  line : List UInt8 := []

/-- The bytes a read takes: up to the end of a line, and not beyond an end of file. -/
def takeLine : Nat → List UInt8 → List UInt8
  | 0, _ => []
  | _, [] => []
  | left + 1, ch :: rest =>
    if ch = ctrlD then [] else if ch = newline then [ch] else ch :: takeLine left rest

/-- What a read takes out of the committed input: its bytes, or the end of file. -/
def ConsoleState.Read.taken (read : Read) : List UInt8 := if read.eof then [ctrlD] else read.data

namespace Discipline

variable (d : Discipline)

/-- All input that was ever committed. -/
def committed : List UInt8 := d.consumed ++ d.unread

/-- Add a character to the line; a line end, an end of file or the last free place commits it. -/
def add (ch : UInt8) : Discipline :=
  let line := d.line ++ [ch]
  if ch = newline ∨ ch = ctrlD ∨ d.unread.length + line.length = bufSize then
    { d with unread := d.unread ++ line, line := [] }
  else { d with line }

/--
Type one character.

Erasing and killing reach only the line being edited, and what finds the buffer full is dropped.
-/
def type (ch : UInt8) : Discipline :=
  let ch := if ch = carriageReturn then newline else ch
  if ch = ctrlU then { d with line := [] }
  else if ch = ctrlH ∨ ch = del then { d with line := d.line.dropLast }
  else if ch = 0 ∨ bufSize ≤ d.unread.length + d.line.length then d
  else d.add ch

/-- What a read of some size should return. -/
def readResult (maxLen : Nat) : Read where
  data := takeLine maxLen d.unread
  eof := maxLen ≠ 0 ∧ d.unread.head? = some ctrlD

/-- Read up to so many bytes. -/
def read (maxLen : Nat) : Discipline :=
  let taken := (d.readResult maxLen).taken
  { d with consumed := d.consumed ++ taken, unread := d.unread.drop taken.length }

/-- One event. -/
def step : ConsoleEvent → Discipline
  | .input ch => d.type ch
  | .read maxLen => d.read maxLen

/-- A sequence of events. -/
def run (events : List ConsoleEvent) : Discipline := events.foldl step {}

end Discipline

/-- A read returns at most one line, no end of file as data, and nothing along with one. -/
structure ConsoleState.Read.Proper (read : Read) : Prop where
  oneLine : newline ∉ read.data.dropLast
  noEof : ctrlD ∉ read.data
  alone : read.eof = true → read.data = []

/-- The data of a read are what it took, without an end of file. -/
theorem ConsoleState.Read.Proper.data_eq {read : Read} (proper : read.Proper) :
    read.data = read.taken.filter (· ≠ ctrlD) := by
  unfold Read.taken
  split
  · rename_i eof
    rw [proper.alone eof]
    simp
  · refine (List.filter_eq_self.mpr fun ch member => ?_).symm
    simpa using ne_of_mem_of_not_mem member proper.noEof

/-- A read takes an end of file exactly if it says so. -/
theorem ConsoleState.Read.Proper.count_taken {read : Read} (proper : read.Proper) :
    read.taken.count ctrlD = read.eof.toNat := by
  unfold Read.taken
  split
  · rename_i eof
    simp [eof]
  · rename_i data
    rw [Bool.not_eq_true] at data
    rw [List.count_eq_zero_of_not_mem proper.noEof, data]
    rfl

/-- What is taken has no line end but at its end, and no end of file. -/
theorem takeLine_proper (left : Nat) (unread : List UInt8) :
    newline ∉ (takeLine left unread).dropLast ∧ ctrlD ∉ takeLine left unread := by
  fun_induction takeLine left unread with
  | case1 => simp
  | case2 => simp
  | case3 => simp
  | case4 => simp [newline, ctrlD]
  | case5 left ch rest ends lineEnd ih =>
    -- A byte that ends nothing is followed by what the rest takes.
    refine ⟨fun inside => ?_, by simpa [Ne.symm ends] using ih.2⟩
    cases taken : takeLine left rest with
    | nil => simp [taken] at inside
    | cons next more =>
      rw [taken, List.dropLast_cons_cons, List.mem_cons] at inside
      rw [taken] at ih
      exact inside.elim (Ne.symm lineEnd) ih.1

/-- What is taken comes first in the committed input. -/
theorem takeLine_prefix (left : Nat) (unread : List UInt8) : takeLine left unread <+: unread := by
  fun_induction takeLine left unread with
  | case1 => simp
  | case2 => simp
  | case3 => simp
  | case4 => simp
  | case5 left ch rest ends lineEnd ih => simpa using ih

theorem takeLine_of_eof {left : Nat} (ends : unread.head? = some ctrlD) : takeLine left unread = [] := by
  cases unread with
  | nil => cases left <;> rfl
  | cons ch rest => cases left <;> simp_all [takeLine]

namespace Discipline

variable (d : Discipline) (maxLen : Nat)

theorem readResult_proper : (d.readResult maxLen).Proper :=
  ⟨(takeLine_proper maxLen d.unread).1, (takeLine_proper maxLen d.unread).2, fun eof =>
    takeLine_of_eof (by simpa [readResult] using (of_decide_eq_true eof).2)⟩

/-- A read takes from the front of the committed input. -/
theorem taken_append_drop :
    (d.readResult maxLen).taken ++ d.unread.drop (d.readResult maxLen).taken.length = d.unread := by
  -- Either the end of file in front is taken, or bytes from the front.
  have first : (d.readResult maxLen).taken <+: d.unread := by
    unfold Read.taken
    split
    · rename_i eof
      have head := (of_decide_eq_true eof).2
      cases unread : d.unread with
      | nil => simp [unread] at head
      | cons ch rest => simp_all
    · exact takeLine_prefix maxLen d.unread
  exact List.prefix_iff_eq_append.mp first

/-- Typing changes nothing about what was read. -/
theorem type_consumed (ch : UInt8) : (d.type ch).consumed = d.consumed := by
  simp only [type, add]
  -- From here on only the translated character matters.
  generalize (if ch = carriageReturn then newline else ch) = ch
  split_ifs <;> rfl

/-- Reading changes nothing about what was committed. -/
theorem read_committed : (d.read maxLen).committed = d.committed := by
  simp only [read, committed, List.append_assoc, taken_append_drop]

end Discipline

end Discipline

section Refinement

/-- The indices and the buffer represent committed input and a line. -/
structure ConsoleState.Shows (console : ConsoleState) (unread line : List UInt8) : Prop where
  written : console.w = console.r + BitVec.ofNat 64 unread.length
  edited : console.e = console.w + BitVec.ofNat 64 line.length
  fits : unread.length + line.length ≤ bufSize
  full : unread.length + line.length = bufSize → line = []
  contents : ringContents bufSize console.buf console.r.toNat (unread.length + line.length) =
    unread ++ line

namespace ConsoleState.Shows

theorem toNat_edited (shown : console.Shows unread line) :
    (console.e - console.r).toNat = unread.length + line.length := by
  have fits := shown.fits
  rw [shown.edited, shown.written]
  unfold bufSize at fits
  bv_omega

theorem toNat_written (shown : console.Shows unread line) :
    (console.w - console.r).toNat = unread.length := by
  have fits := shown.fits
  rw [shown.written]
  unfold bufSize at fits
  bv_omega

/-- There is a character to take back exactly if the line has one. -/
theorem canErase_iff (shown : console.Shows unread line) :
    console.canEraseConsoleChar = true ↔ line ≠ [] := by
  have fits := shown.fits
  unfold bufSize at fits
  -- The line is far shorter than the range of an index, so equal indices mean an empty line.
  have here : console.e = console.w ↔ line.length = 0 := by
    rw [shown.edited]
    bv_omega
  simp [canEraseConsoleChar, here]

/-- Taking a character back shortens the line. -/
theorem erase (shown : console.Shows unread (line ++ [ch])) :
    console.eraseConsoleChar.Shows unread line := by
  have fits := shown.fits
  rw [List.length_append, List.length_singleton] at fits
  refine ⟨shown.written, ?_, by omega, fun full => by omega, ?_⟩
  · have edited := shown.edited
    rw [List.length_append, List.length_singleton] at edited
    simp only [eraseConsoleChar]
    rw [edited]
    bv_omega
  · have contents := shown.contents
    rw [List.length_append, List.length_singleton, ← Nat.add_assoc, ringContents_add,
      ← List.append_assoc] at contents
    -- The buffer is as before; only its last character no longer counts.
    exact (List.append_inj' contents rfl).1

/-- A kill takes back the whole line, and stops there. -/
theorem kill (shown : console.Shows unread line) :
    (killConsoleLine line.length console).Shows unread [] := by
  -- The loop takes characters back from the end, and so does the induction.
  induction line using List.reverseRecOn generalizing console with
  | nil => exact shown
  | append_singleton line ch ih =>
    have erasable : console.canEraseConsoleChar = true := shown.canErase_iff.mpr (by simp)
    rw [List.length_append, List.length_singleton, killConsoleLine, if_pos erasable]
    exact ih shown.erase

/-- The distance from the reading index once a character is added. -/
theorem toNat_pushed (shown : console.Shows unread line)
    (room : unread.length + line.length < bufSize) :
    (console.e + 1 - console.r).toNat = unread.length + line.length + 1 := by
  have edited := shown.toNat_edited
  unfold bufSize at room
  bv_omega

/-- What the buffer holds once a character is added. -/
theorem contents_pushed (shown : console.Shows unread line)
    (room : unread.length + line.length < bufSize) (ch : UInt8) :
    ringContents bufSize (Function.update console.buf (console.e.toNat % bufSize) ch)
        console.r.toNat (unread.length + line.length + 1) = unread ++ (line ++ [ch]) := by
  -- The index wraps at a multiple of the size of the buffer.
  have place : console.e.toNat % bufSize =
      (console.r.toNat + (unread.length + line.length)) % bufSize := by
    have edited := shown.toNat_edited
    unfold bufSize at room ⊢
    bv_omega
  rw [place, ringContents_push room, shown.contents, List.append_assoc]

/-- A character that fits is added to the line, and may commit it. -/
theorem push {d : Discipline} (shown : console.Shows d.unread d.line)
    (room : d.unread.length + d.line.length < bufSize) (ch : UInt8) :
    (console.pushConsoleChar ch).Shows (d.add ch).unread (d.add ch).line := by
  have pushed := shown.contents_pushed room ch
  have more : d.unread.length + (d.line ++ [ch]).length = d.unread.length + d.line.length + 1 := by
    simp [Nat.add_assoc]
  -- The test on the indices is the test on the lengths.
  have commits : (ch == newline || ch == ctrlD || (console.e + 1 - console.r).toNat == bufSize) = true ↔
      ch = newline ∨ ch = ctrlD ∨ d.unread.length + (d.line ++ [ch]).length = bufSize := by
    rw [shown.toNat_pushed room, more]
    simp [or_assoc]
  -- The edit index is as far from the reading index as there are bytes between them.
  have edited : console.e + 1 = console.r + BitVec.ofNat 64 (d.unread ++ (d.line ++ [ch])).length := by
    have before := shown.edited
    rw [shown.written] at before
    rw [before, List.length_append, more]
    bv_omega
  simp only [pushConsoleChar, commits, Discipline.add]
  split
  · -- The whole line is committed, so that the new line is empty.
    refine ⟨edited, by simp, ?_, fun _ => rfl, ?_⟩
    · rw [List.length_append, more]
      exact room
    · rw [List.length_append, more, List.append_nil]
      exact pushed
  · rename_i stays
    refine ⟨shown.written, ?_, ?_, ?_, ?_⟩
    · have before := shown.edited
      rw [List.length_append, List.length_singleton, before]
      bv_omega
    · rw [more]
      exact room
    · exact fun full => absurd (.inr (.inr full)) stays
    · rw [more]
      exact pushed

theorem toNat_line (shown : console.Shows unread line) :
    (console.e - console.w).toNat = line.length := by
  have fits := shown.fits
  rw [shown.edited]
  unfold bufSize at fits
  bv_omega

/-- One character of input keeps the console to the discipline. -/
theorem input {d : Discipline} (shown : console.Shows d.unread d.line) (ch : UInt8) :
    (console.handleConsoleInput ch).Shows (d.type ch).unread (d.type ch).line := by
  simp only [handleConsoleInput, Discipline.type]
  generalize (if ch = carriageReturn then newline else ch) = ch
  -- The cases are those of the source, in its order.
  by_cases kills : ch = ctrlU
  · rw [if_pos kills, if_pos kills, shown.toNat_line]
    exact shown.kill
  rw [if_neg kills, if_neg kills]
  by_cases erases : ch = ctrlH ∨ ch = del
  · rw [if_pos erases, if_pos erases]
    obtain ⟨consumed, unread, line⟩ := d
    -- An empty line has nothing to take back.
    cases line using List.reverseRecOn with
    | nil =>
      rw [if_neg (by simp [shown.canErase_iff])]
      exact shown
    | append_singleton line last =>
      rw [if_pos (shown.canErase_iff.mpr (by simp)), List.dropLast_concat]
      exact shown.erase
  rw [if_neg erases, if_neg erases]
  -- The room in the buffer is what the two lengths leave of it.
  have room : console.consoleInputRoom = true ↔ d.unread.length + d.line.length < bufSize := by
    simp [consoleInputRoom, shown.toNat_edited]
  by_cases added : ch ≠ 0 ∧ d.unread.length + d.line.length < bufSize
  · rw [if_pos ⟨added.1, room.mpr added.2⟩, if_neg (not_or.mpr ⟨added.1, Nat.not_le.mpr added.2⟩)]
    exact shown.push added.2 ch
  · rw [if_neg (by rwa [room]), if_pos (by rwa [not_and_or, not_not, Nat.not_lt] at added)]
    exact shown

/-- The next committed byte is the one at the reading index. -/
theorem pop (shown : console.Shows (ch :: unread) line) :
    console.r ≠ console.w ∧ console.buf (console.r.toNat % bufSize) = ch ∧
      ({ console with r := console.r + 1 } : ConsoleState).Shows unread line := by
  have fits := shown.fits
  have written := shown.written
  rw [List.length_cons] at fits written
  have contents := shown.contents
  rw [List.length_cons, Nat.add_right_comm, ringContents_succ, List.cons_append] at contents
  -- The first byte of the contents is at the reading index, the others follow.
  obtain ⟨first, rest⟩ := List.cons.inj contents
  refine ⟨?_, first, ?_, shown.edited, by omega, fun full => by omega, ?_⟩
  · unfold bufSize at fits
    rw [written]
    bv_omega
  · rw [written]
    bv_omega
  · rw [← rest]
    apply ringContents_congr
    unfold bufSize
    bv_omega

/-- With nothing committed the reading index has caught up. -/
theorem caughtUp (shown : console.Shows [] line) : console.r = console.w := by
  simpa using shown.written.symm

/-- The loop of a read copies what the discipline would take, after what it has copied already. -/
theorem copyFrom (shown : console.Shows unread line) (left : Nat) (data : List UInt8) :
    let eof : Bool := data = [] ∧ left ≠ 0 ∧ unread.head? = some ctrlD
    (copyConsoleOutputFrom left data console).1 = { data := data ++ takeLine left unread, eof } ∧
      (copyConsoleOutputFrom left data console).2.Shows
        (unread.drop ((takeLine left unread).length + eof.toNat)) line := by
  -- The loop is on how many bytes may still be copied; what is copied already comes along.
  induction left generalizing console unread data with
  | zero => simpa [copyConsoleOutputFrom, takeLine] using shown
  | succ left ih =>
    cases unread with
    | nil =>
      have here := shown.caughtUp
      simpa [copyConsoleOutputFrom, takeLine, here] using shown
    | cons ch unread =>
      obtain ⟨more, first, next⟩ := shown.pop
      simp only [copyConsoleOutputFrom, if_neg more, first, takeLine]
      -- An end of file is taken only by a read that has copied nothing yet.
      by_cases ends : ch = ctrlD
      · by_cases fresh : data = [] <;> simp [ends, fresh]
        · exact next
        · exact ends ▸ shown
      rw [if_neg ends, if_neg ends]
      by_cases lineEnd : ch = newline
      · rw [if_pos lineEnd, if_pos lineEnd]
        simpa [ends] using next
      · rw [if_neg lineEnd, if_neg lineEnd]
        have rest := ih next (data ++ [ch])
        simpa [ends] using rest

/-- A read returns what the discipline says, and leaves what it says. -/
theorem read {d : Discipline} (shown : console.Shows d.unread d.line) (maxLen : Nat) :
    (console.copyConsoleOutput maxLen).1 = d.readResult maxLen ∧
      (console.copyConsoleOutput maxLen).2.Shows (d.read maxLen).unread (d.read maxLen).line := by
  obtain ⟨result, after⟩ := shown.copyFrom maxLen []
  have returned : (console.copyConsoleOutput maxLen).1 = d.readResult maxLen := by
    rw [copyConsoleOutput, result]
    simp [Discipline.readResult]
  refine ⟨returned, ?_⟩
  -- A read takes its data or one end of file, never both.
  have taken : (d.readResult maxLen).taken.length =
      (takeLine maxLen d.unread).length + (d.readResult maxLen).eof.toNat := by
    unfold Read.taken
    split
    · rename_i eof
      have none := (d.readResult_proper maxLen).alone eof
      rw [show takeLine maxLen d.unread = [] from none, eof]
      rfl
    · rename_i data
      rw [Bool.not_eq_true] at data
      rw [data]
      rfl
  have dropped : (d.read maxLen).unread =
      d.unread.drop ((takeLine maxLen d.unread).length + (d.readResult maxLen).eof.toNat) := by
    rw [← taken]
    rfl
  rw [dropped, show (d.read maxLen).line = d.line from rfl]
  simpa [copyConsoleOutput, Discipline.readResult] using after

end ConsoleState.Shows

end Refinement

section Sessions

namespace ConsoleSession

/-- A session and the discipline on the same events. -/
structure Follows (session : ConsoleSession) (d : Discipline) : Prop where
  shown : session.console.Shows d.unread d.line
  taken : session.reads.flatMap Read.taken = d.consumed
  proper : ∀ read ∈ session.reads, read.Proper

theorem Follows.step {session : ConsoleSession} {d : Discipline} (follows : session.Follows d)
    (event : ConsoleEvent) : (session.step event).Follows (d.step event) := by
  cases event with
  | input ch =>
    refine ⟨follows.shown.input ch, ?_, follows.proper⟩
    rw [Discipline.step, Discipline.type_consumed]
    exact follows.taken
  | read maxLen =>
    obtain ⟨result, after⟩ := follows.shown.read maxLen
    refine ⟨after, ?_, ?_⟩
    · simp only [ConsoleSession.step, result, List.flatMap_append, follows.taken, Discipline.step,
        Discipline.read, List.flatMap_singleton]
    · intro read member
      simp only [ConsoleSession.step, result, List.mem_append, List.mem_singleton] at member
      rcases member with earlier | rfl
      · exact follows.proper read earlier
      · exact d.readResult_proper maxLen

theorem follows_run (events : List ConsoleEvent) : (run events).Follows (Discipline.run events) := by
  -- The last event acts on what the events before it left.
  induction events using List.reverseRecOn with
  | nil => exact ⟨⟨rfl, rfl, by decide, fun _ => rfl, rfl⟩, rfl, by simp [run]⟩
  | append_singleton events event ih =>
    simp only [run, Discipline.run, List.foldl_append, List.foldl_cons, List.foldl_nil]
    exact ih.step event

/-- The data of proper reads are what they took, without the ends of file. -/
theorem flatMap_data {reads : List Read} (proper : ∀ read ∈ reads, read.Proper) :
    reads.flatMap Read.data = (reads.flatMap Read.taken).filter (· ≠ ctrlD) := by
  rw [List.filter_flatMap]
  exact List.flatMap_congr fun read member => (proper read member).data_eq

/-- Proper reads took as many ends of file as they report. -/
theorem count_flatMap_taken {reads : List Read} (proper : ∀ read ∈ reads, read.Proper) :
    (reads.flatMap Read.taken).count ctrlD = reads.countP Read.eof := by
  -- Each read adds one end of file or none.
  induction reads with
  | nil => rfl
  | cons read reads ih =>
    have first := (proper read (by simp)).count_taken
    have rest := ih fun other member => proper other (by simp [member])
    rw [List.flatMap_cons, List.count_append, first, rest, List.countP_cons]
    cases read.eof <;> simp [Nat.add_comm]

/--
The console keeps to the line discipline whatever is typed and read in which order.

The indices are in order within the size of the buffer, and a full buffer is committed.
The data that reads return are the committed input from its start, without the ends of file.
No read goes beyond a line end, and reads report one end of file for each that they reach.
The next read returns what the discipline takes, and changes nothing about what is committed.
-/
theorem console_line_discipline (events : List ConsoleEvent) :
    let console := (run events).console
    let reads := (run events).reads
    let d := Discipline.run events
    ((console.w - console.r).toNat ≤ (console.e - console.r).toNat ∧
        (console.e - console.r).toNat ≤ bufSize ∧
        ((console.e - console.r).toNat = bufSize → console.w = console.e)) ∧
      reads.flatMap Read.data <+: d.committed.filter (· ≠ ctrlD) ∧
      (∀ read ∈ reads, read.Proper) ∧
      reads.countP Read.eof + d.unread.count ctrlD = d.committed.count ctrlD ∧
      ∀ maxLen, (console.copyConsoleOutput maxLen).1 = d.readResult maxLen ∧
        (d.read maxLen).committed = d.committed := by
  have follows := follows_run events
  have data := flatMap_data follows.proper
  have ends := count_flatMap_taken follows.proper
  rw [follows.taken] at data ends
  refine ⟨⟨?_, ?_, fun full => ?_⟩, ?_, follows.proper, ?_, fun maxLen =>
    ⟨(follows.shown.read maxLen).1, Discipline.read_committed _ maxLen⟩⟩
  · rw [follows.shown.toNat_written, follows.shown.toNat_edited]
    exact Nat.le_add_right _ _
  · rw [follows.shown.toNat_edited]
    exact follows.shown.fits
  · rw [follows.shown.toNat_edited] at full
    have none := follows.shown.full full
    have edited := follows.shown.edited
    rw [none] at edited
    simpa using edited.symm
  · rw [data, Discipline.committed, List.filter_append]
    exact List.prefix_append _ _
  · rw [← ends, Discipline.committed, List.count_append]

end ConsoleSession

end Sessions

end Rel4
