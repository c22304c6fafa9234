import Mathlib.Data.List.Forall2
import Rel4.Host.Exec
import Rel4.Proof.UserMemory

/-!
The first stack of a program reads back as its arguments, its environment and the vector about
itself.

The parser follows the layout that a program expects at its entry; it is not part of the host.
-/

namespace Rel4.Host

section Entry

variable (s : Memory) (pid : Nat)

/-- The word at an address of a process. -/
def wordAt (a : Nat) : Nat := readU64 (s.loadBytes pid a 8) 0

/-- The text at an address, up to its end. -/
def cstrAt : Nat → Nat → Option (List UInt8)
  | 0, _ => none
  | left + 1, a =>
    if s.byteAt pid a = 0 then some [] else (cstrAt left (a + 1)).map (s.byteAt pid a :: ·)

/-- The texts that so many pointers point at. -/
def textsAt (limit : Nat) : Nat → Nat → Option (List (List UInt8))
  | 0, _ => some []
  | count + 1, a => do
    let text ← cstrAt s pid limit (wordAt s pid a)
    let rest ← textsAt limit count (a + 8)
    return text :: rest

/-- The texts that pointers point at, up to a pointer that is zero; and where that one is. -/
def textsUpTo (limit : Nat) : Nat → Nat → Option (List (List UInt8) × Nat)
  | 0, _ => none
  | left + 1, a => do
    if wordAt s pid a = 0 then return ([], a)
    let text ← cstrAt s pid limit (wordAt s pid a)
    let (rest, stop) ← textsUpTo limit left (a + 8)
    return (text :: rest, stop)

/-- Pairs of a tag and a value, up to the last tag. -/
def auxAt : Nat → Nat → Option (List (Nat × Nat))
  | 0, _ => none
  | left + 1, a =>
    if wordAt s pid a = atNull then some [(atNull, wordAt s pid (a + 8))]
    else (auxAt left (a + 16)).map ((wordAt s pid a, wordAt s pid (a + 8)) :: ·)

/-- What a program finds at its entry. -/
structure ProcessEntry where
  argc : Nat
  argv : List (List UInt8)
  envp : List (List UInt8)
  auxv : List (Nat × Nat)
deriving DecidableEq

def stackSize : Nat := pageSize * childStackPages

def processEntry (sp : Nat) : Option ProcessEntry := do
  let argc := wordAt s pid sp
  let argv ← textsAt s pid stackSize argc (sp + 8)
  -- The arguments end with a pointer that is zero, too.
  if wordAt s pid (sp + 8 + 8 * argc) ≠ 0 then none
  let (envp, stop) ← textsUpTo s pid stackSize stackSize (sp + 16 + 8 * argc)
  let auxv ← auxAt s pid stackSize (stop + 8)
  return { argc, argv, envp, auxv }

end Entry

section Holds

variable {s : Memory} {pid va a v : Nat} {xs ys bytes : List UInt8}

/-- The bytes from an address on. -/
def Holds (s : Memory) (pid : Nat) : Nat → List UInt8 → Prop
  | _, [] => True
  | a, byte :: rest => s.byteAt pid a = byte ∧ Holds s pid (a + 1) rest

theorem holds_append :
    Holds s pid a (xs ++ ys) ↔ Holds s pid a xs ∧ Holds s pid (a + xs.length) ys := by
  induction xs generalizing a with
  | nil => simp [Holds]
  | cons x xs ih => simp [Holds, ih, and_assoc, Nat.add_assoc, Nat.add_comm 1]

/-- What has been stored is there. -/
theorem holds_put (pre : List UInt8)
    (mapped : ∀ a, va ≤ a → a < va + (pre ++ bytes).length → s.pages pid (a / pageSize) ≠ none) :
    Holds (s.put pid va (pre ++ bytes)) pid (va + pre.length) bytes := by
  induction bytes generalizing pre with
  | nil => trivial
  | cons byte rest ih =>
    have size : (pre ++ byte :: rest).length = pre.length + (rest.length + 1) := by simp
    constructor
    · rw [Memory.byteAt_put (mapped _ (by omega) (by omega)), overlaid_inside (by omega) (by omega)]
      simp [List.getD]
    · have split : pre ++ byte :: rest = (pre ++ [byte]) ++ rest := by simp
      have later := ih (pre ++ [byte]) (by rw [← split]; exact mapped)
      rw [← split] at later
      simpa [Nat.add_assoc] using later

/-- A store elsewhere changes nothing. -/
theorem Holds.put (holds : Holds s pid a xs) (apart : a + xs.length ≤ va ∨ va + bytes.length ≤ a)
    (mapped : ∀ b, a ≤ b → b < a + xs.length → s.pages pid (b / pageSize) ≠ none) :
    Holds (s.put pid va bytes) pid a xs := by
  induction xs generalizing a with
  | nil => trivial
  | cons x xs ih =>
    simp only [List.length_cons] at apart mapped
    refine ⟨?_, ih holds.2 (by omega) fun b low high => mapped b (by omega) (by omega)⟩
    rw [Memory.byteAt_put (mapped a (by omega) (by omega)), overlaid_outside (by omega)]
    exact holds.1

theorem loadBytes_of_holds (holds : Holds s pid a xs) : s.loadBytes pid a xs.length = xs := by
  induction xs generalizing a with
  | nil => rfl
  | cons x xs ih =>
    rw [List.length_cons, Nat.add_comm, ← Memory.loadBytes_append, ih holds.2]
    simp [Memory.loadBytes, holds.1]

theorem readU64_wordBytes (small : v < 2 ^ 64) : readU64 (wordBytes v) 0 = v := by
  simp only [readU64, readU32, readU16, wordBytes, List.getD_cons_zero, List.getD_cons_succ,
    UInt8.toNat_ofNat']
  omega

theorem wordAt_of_holds (holds : Holds s pid a (wordBytes v)) (small : v < 2 ^ 64) :
    wordAt s pid a = v := by
  have bytes := loadBytes_of_holds holds
  have size : (wordBytes v).length = 8 := rfl
  rw [size] at bytes
  rw [wordAt, bytes, readU64_wordBytes small]

/-- A text is read up to its end, and no further. -/
theorem cstrAt_of_holds {left : Nat} (holds : Holds s pid a (xs ++ [0])) (text : 0 ∉ xs)
    (room : xs.length < left) : cstrAt s pid left a = some xs := by
  induction xs generalizing a left with
  | nil =>
    obtain ⟨left, rfl⟩ : ∃ n, left = n + 1 := ⟨left - 1, by simp at room; omega⟩
    simp [cstrAt, holds.1]
  | cons x xs ih =>
    obtain ⟨left, rfl⟩ : ∃ n, left = n + 1 := ⟨left - 1, by simp at room; omega⟩
    simp only [List.mem_cons, not_or, List.length_cons] at text room
    rw [cstrAt, holds.1, if_neg (Ne.symm text.1), ih holds.2 text.2 (by omega)]
    rfl

/-- Words from an address on. -/
def HoldsWords (s : Memory) (pid : Nat) : Nat → List Nat → Prop
  | _, [] => True
  | a, w :: rest => wordAt s pid a = w ∧ HoldsWords s pid (a + 8) rest

theorem holdsWords_of_holds {ws : List Nat} (holds : Holds s pid a (ws.flatMap wordBytes))
    (small : ∀ w ∈ ws, w < 2 ^ 64) : HoldsWords s pid a ws := by
  induction ws generalizing a with
  | nil => trivial
  | cons w ws ih =>
    rw [List.flatMap_cons, holds_append] at holds
    exact ⟨wordAt_of_holds holds.1 (small w List.mem_cons_self),
      ih holds.2 fun w here => small w (List.mem_cons_of_mem _ here)⟩

theorem holdsWords_append {ws ws' : List Nat} :
    HoldsWords s pid a (ws ++ ws') ↔
      HoldsWords s pid a ws ∧ HoldsWords s pid (a + 8 * ws.length) ws' := by
  induction ws generalizing a with
  | nil => simp [HoldsWords]
  | cons w ws ih => simp [HoldsWords, ih, and_assoc, Nat.mul_add, Nat.add_assoc, Nat.add_comm 8]

end Holds

section Push

variable {s : Memory} {arch : Arch} {child : Task} {top base sp pid va : Nat}
  {text bytes : List UInt8} {texts texts' : List (List UInt8)}

/-- The stack, from its end up to some address. -/
def Stacked (s : Memory) (pid base top : Nat) : Prop := s.Accessible pid base (top - base) true

theorem Stacked.put (stacked : Stacked s pid base top) :
    Stacked (s.put pid va bytes) pid base top := Memory.Accessible.put stacked

theorem Stacked.within {len : Nat} (stacked : Stacked s pid base top) (low : base ≤ va)
    (high : va + len ≤ top) : s.Accessible pid va len true :=
  Memory.Accessible.mono stacked low (by omega)

theorem Stacked.mapped {a : Nat} (stacked : Stacked s pid base top) (low : base ≤ a) (high : a < top) :
    s.pages pid (a / pageSize) ≠ none := by
  obtain ⟨page, is, -⟩ := stacked a low (by omega)
  simp [is]

/-- What is stored on the stack is there. -/
theorem Stacked.stored (stacked : Stacked s pid base top) (low : base ≤ va)
    (high : va + bytes.length ≤ top) : Holds (s.put pid va bytes) pid va bytes :=
  holds_put [] fun a above below => stacked.mapped (by omega) (by simp at below; omega)

/-- What is on the stack stays when something is stored elsewhere. -/
theorem Stacked.stays {a : Nat} {xs : List UInt8} (stacked : Stacked s pid base top)
    (holds : Holds s pid a xs) (low : base ≤ a) (high : a + xs.length ≤ top)
    (apart : a + xs.length ≤ va ∨ va + bytes.length ≤ a) : Holds (s.put pid va bytes) pid a xs :=
  holds.put apart fun b above below => stacked.mapped (by omega) (by omega)

theorem pushCstr_eq (stacked : Stacked s child.pid base top)
    (room : base + (text.length + 1) ≤ sp) (below : sp ≤ top) :
    pushCstr arch child sp base text s =
      (some (sp - (text.length + 1)), s.put child.pid (sp - (text.length + 1)) (text ++ [0])) := by
  unfold pushCstr roomBelow
  rw [if_neg (by omega)]
  have first : s.Accessible child.pid (sp - (text.length + 1)) text.length true :=
    stacked.within (by omega) (by omega)
  have last : (s.put child.pid (sp - (text.length + 1)) text).Accessible child.pid
      (sp - (text.length + 1) + text.length) [(0 : UInt8)].length true :=
    stacked.put.within (by omega) (by simp only [List.length_singleton]; omega)
  simp only [Memory.copyToChild_eq first, if_true, Memory.copyToChild_eq last, Memory.put_append.1]

/-- How many bytes texts take with their ends. -/
def textsSize : List (List UInt8) → Nat
  | [] => 0
  | text :: texts => text.length + 1 + textsSize texts

/-- Where texts lie that are pushed one below the other, and their sizes. -/
def textPieces : List (List UInt8) → Nat → List (Nat × Nat)
  | [], _ => []
  | text :: rest, sp =>
    (sp - (text.length + 1), text.length + 1) :: textPieces rest (sp - (text.length + 1))

def textPtrs (texts : List (List UInt8)) (sp : Nat) : List Nat :=
  (textPieces texts sp).map Prod.fst

/-- What texts look like from the last of them on. -/
def textBlock : List (List UInt8) → List UInt8
  | [] => []
  | text :: rest => textBlock rest ++ (text ++ [0])

theorem textsSize_cons (text : List UInt8) (texts : List (List UInt8)) :
    textsSize (text :: texts) = text.length + 1 + textsSize texts := rfl

theorem textBlock_length : (textBlock texts).length = textsSize texts := by
  induction texts with
  | nil => rfl
  | cons text rest ih =>
    simp only [textBlock, List.length_append, ih, textsSize_cons, List.length_singleton]
    omega

theorem textPtrs_length : (textPtrs texts sp).length = texts.length := by
  unfold textPtrs
  rw [List.length_map]
  induction texts generalizing sp with
  | nil => rfl
  | cons text rest ih => simp [textPieces, ih]

theorem textPieces_append : textPieces (texts ++ texts') sp =
    textPieces texts sp ++ textPieces texts' (sp - textsSize texts) := by
  induction texts generalizing sp with
  | nil => rfl
  | cons text rest ih => simp [textPieces, ih, textsSize_cons, Nat.sub_sub]

theorem textBlock_append : textBlock (texts ++ texts') = textBlock texts' ++ textBlock texts := by
  induction texts with
  | nil => simp [textBlock]
  | cons text rest ih => simp [textBlock, ih]

theorem textsSize_append : textsSize (texts ++ texts') = textsSize texts + textsSize texts' := by
  rw [← textBlock_length, textBlock_append, List.length_append, textBlock_length, textBlock_length,
    Nat.add_comm]

/-- The block of the rest lies right below the first text. -/
theorem put_textBlock (room : textsSize (text :: texts) ≤ sp) :
    (s.put pid (sp - (text.length + 1)) (text ++ [0])).put pid
        (sp - (text.length + 1) - textsSize texts) (textBlock texts) =
      s.put pid (sp - textsSize (text :: texts)) (textBlock (text :: texts)) := by
  rw [textsSize_cons] at room ⊢
  rw [Memory.put_below (by rw [textBlock_length]; omega), Nat.sub_sub]
  rfl

theorem pushCstrs_eq (stacked : Stacked s child.pid base top)
    (room : base + textsSize texts ≤ sp) (below : sp ≤ top) :
    pushCstrs arch child base texts sp s =
      (some (sp - textsSize texts, textPtrs texts sp),
        s.put child.pid (sp - textsSize texts) (textBlock texts)) := by
  induction texts generalizing sp s with
  | nil => simp [pushCstrs, textsSize, textPtrs, textPieces, textBlock, Memory.put_nil]
  | cons text rest ih =>
    have size := textsSize_cons text rest
    rw [pushCstrs, pushCstr_eq stacked (by omega) below]
    simp only
    rw [ih stacked.put (by omega) (by omega), put_textBlock (by omega), size, Nat.sub_sub]
    rfl

/-- Every text is where its pointer says, between the ends of the block. -/
theorem texts_hold (texts : List (List UInt8)) (stacked : Stacked s pid base top)
    (room : base + textsSize texts ≤ sp) (below : sp ≤ top) :
    List.Forall₂ (fun ptr text => sp - textsSize texts ≤ ptr ∧ ptr + (text ++ [0]).length ≤ sp ∧
        Holds (s.put pid (sp - textsSize texts) (textBlock texts)) pid ptr (text ++ [0]))
      (textPtrs texts sp) texts := by
  induction texts generalizing sp s with
  | nil => exact .nil
  | cons text rest ih =>
    have size := textsSize_cons text rest
    have length : (text ++ [0]).length = text.length + 1 := by simp
    rw [← put_textBlock (by omega)]
    refine .cons ⟨by omega, by omega, ?_⟩ ((ih stacked.put (by omega) (by omega)).imp
      fun ptr text here => ⟨by omega, by omega, here.2.2⟩)
    -- The first text is stored, and what follows goes below it.
    refine stacked.put.stays (stacked.stored (by omega) (by omega)) (by omega) (by omega) (.inr ?_)
    rw [textBlock_length]
    omega

theorem textPieces_inside (room : textsSize texts ≤ sp) :
    ∀ piece ∈ textPieces texts sp, sp - textsSize texts ≤ piece.1 ∧ piece.1 + piece.2 ≤ sp := by
  induction texts generalizing sp with
  | nil => simp [textPieces]
  | cons text rest ih =>
    have size := textsSize_cons text rest
    simp only [textPieces, List.mem_cons, forall_eq_or_imp]
    refine ⟨by omega, fun piece here => ?_⟩
    have later : textsSize rest ≤ sp - (text.length + 1) := by omega
    have := ih later piece here
    omega

/-- The pieces lie one below the other. -/
theorem textPieces_apart (room : textsSize texts ≤ sp) :
    (textPieces texts sp).Pairwise fun upper lower => lower.1 + lower.2 ≤ upper.1 := by
  induction texts generalizing sp with
  | nil => exact .nil
  | cons text rest ih =>
    have size := textsSize_cons text rest
    have later : textsSize rest ≤ sp - (text.length + 1) := by omega
    exact .cons (fun piece here => (textPieces_inside later piece here).2) (ih later)

theorem wordBytes_length (words : List Nat) :
    (words.flatMap wordBytes).length = 8 * words.length := by
  simp [List.length_flatMap, wordBytes, Nat.mul_comm]

/-- Words that are pushed one below the other lie in the opposite order. -/
theorem pushWords_eq {words : List Nat} (stacked : Stacked s child.pid base top)
    (room : base + 8 * words.length ≤ sp) (below : sp ≤ top) :
    pushWords arch child base words sp s =
      (some (sp - 8 * words.length),
        s.put child.pid (sp - 8 * words.length) (words.reverse.flatMap wordBytes)) := by
  induction words generalizing sp s with
  | nil => simp [pushWords, Memory.put_nil]
  | cons word rest ih =>
    simp only [List.length_cons] at room
    have here : s.Accessible child.pid (sp - 8) (wordBytes word).length true :=
      stacked.within (by omega) (by simp [wordBytes]; omega)
    rw [pushWords, writeU64At, roomBelow, if_neg (by omega)]
    simp only [Memory.copyToChild_eq here, if_true]
    rw [ih stacked.put (by omega) (by omega)]
    rw [Memory.put_below (by rw [wordBytes_length, List.length_reverse]; omega), List.length_cons, List.reverse_cons, List.flatMap_append,
      show sp - 8 - 8 * rest.length = sp - 8 * (rest.length + 1) by omega]
    simp

end Push

section Parse

variable {s : Memory} {pid a limit left : Nat} {ptrs : List Nat} {texts : List (List UInt8)}

theorem textsAt_of
    (found : List.Forall₂ (fun ptr text => cstrAt s pid limit ptr = some text) ptrs texts)
    (words : HoldsWords s pid a ptrs) : textsAt s pid limit ptrs.length a = some texts := by
  induction found generalizing a with
  | nil => rfl
  | cons here _ ih => simp [textsAt, words.1, here, ih words.2]

theorem textsUpTo_of
    (found : List.Forall₂ (fun ptr text => cstrAt s pid limit ptr = some text) ptrs texts)
    (words : HoldsWords s pid a (ptrs ++ [0])) (proper : ∀ ptr ∈ ptrs, ptr ≠ 0)
    (room : ptrs.length < left) :
    textsUpTo s pid limit left a = some (texts, a + 8 * ptrs.length) := by
  induction found generalizing a left with
  | nil =>
    obtain ⟨left, rfl⟩ : ∃ n, left = n + 1 := ⟨left - 1, by simp at room; omega⟩
    simp [textsUpTo, words.1]
  | @cons ptr text ptrs texts here _ ih =>
    simp only [List.length_cons, List.mem_cons, forall_eq_or_imp] at room proper
    obtain ⟨left, rfl⟩ : ∃ n, left = n + 1 := ⟨left - 1, by omega⟩
    have rest := ih words.2 proper.2 (show ptrs.length < left by omega)
    simp only [textsUpTo, words.1, if_neg proper.1, here, rest, List.length_cons]
    simp only [Option.pure_def, Option.bind_eq_bind, Option.bind_some]
    rw [show a + 8 + 8 * ptrs.length = a + 8 * (ptrs.length + 1) by omega]

theorem auxAt_of {pairs : List (Nat × Nat)} (proper : ∀ pair ∈ pairs, pair.1 ≠ atNull)
    (words : HoldsWords s pid a
      ((pairs ++ [(atNull, 0)]).flatMap fun pair : Nat × Nat => [pair.1, pair.2]))
    (room : pairs.length < left) : auxAt s pid left a = some (pairs ++ [(atNull, 0)]) := by
  induction pairs generalizing a left with
  | nil =>
    obtain ⟨left, rfl⟩ : ∃ n, left = n + 1 := ⟨left - 1, by simp at room; omega⟩
    simp [auxAt, words.1, words.2.1]
  | cons pair pairs ih =>
    simp only [List.length_cons, List.mem_cons, forall_eq_or_imp] at room proper
    obtain ⟨left, rfl⟩ : ∃ n, left = n + 1 := ⟨left - 1, by omega⟩
    obtain ⟨tag, value, rest⟩ := words
    rw [auxAt, tag, if_neg proper.1, value, ih proper.2 rest (by omega)]
    rfl

end Parse

section Setup

variable {s : Memory} {arch : Arch} {child : Task} {args envs texts : List (List UInt8)}
  {base top sp random execfn : Nat} {argPtrs envPtrs : List Nat}

/-- The words below the random bytes, from the lowest on. -/
def entryWords (child : Task) (random execfn : Nat) (argPtrs envPtrs : List Nat) : List Nat :=
  argPtrs.length :: argPtrs ++ 0 :: envPtrs ++
    0 :: (auxVector child random execfn).flatMap fun pair => [pair.1, pair.2]

theorem entryWords_length :
    (entryWords child random execfn argPtrs envPtrs).length =
      35 + argPtrs.length + envPtrs.length := by
  simp [entryWords, auxVector]
  omega

theorem stackRandom_length (pid : Nat) : (stackRandom pid).length = 16 := by
  -- Every round adds one byte.
  have grows (next : Nat → Nat) (byte : Nat → UInt8) (rounds : List Nat) (acc : Nat × List UInt8) :
      (rounds.foldl (fun acc _ => (next acc.1, acc.2 ++ [byte (next acc.1)])) acc).2.length =
        acc.2.length + rounds.length := by
    induction rounds generalizing acc with
    | nil => simp
    | cons _ rounds ih =>
      rw [List.foldl_cons, ih]
      simp
      omega
  exact grows (fun seed => (seed * 1664525 + 1013904223) % 18446744073709551616)
    (fun seed => UInt8.ofNat (seed / 16777216)) (List.range 16) _

theorem pushTables_eq (stacked : Stacked s child.pid base top)
    (room : base + 31 + 8 * (35 + argPtrs.length + envPtrs.length) ≤ sp) (below : sp ≤ top) :
    let random := (sp - 16) / 16 * 16
    let words := entryWords child random execfn argPtrs envPtrs
    pushTables arch child base sp execfn argPtrs envPtrs s =
      (some (random - 8 * words.length),
        (s.put child.pid random (stackRandom child.pid)).put child.pid
          (random - 8 * words.length) (words.flatMap wordBytes)) := by
  intro random words
  have size : words.length = 35 + argPtrs.length + envPtrs.length := entryWords_length
  have high : sp - 31 ≤ random ∧ random ≤ sp - 16 := by omega
  have here : s.Accessible child.pid random (stackRandom child.pid).length true := by
    rw [stackRandom_length]
    exact stacked.within (by omega) (by omega)
  have pushed : pushWords arch child base words.reverse random
      (s.put child.pid random (stackRandom child.pid)) = _ :=
    pushWords_eq stacked.put (by rw [List.length_reverse]; omega) (by omega)
  rw [List.length_reverse, List.reverse_reverse] at pushed
  unfold pushTables
  rw [if_neg (by omega)]
  simp only [show (sp - 16) / 16 * 16 = random from rfl, Memory.copyToChild_eq here, if_true]
  exact pushed

/-- Texts that an `execve` lets through: not too many, and none too long or with an end inside. -/
structure Accepted (texts : List (List UInt8)) : Prop where
  few : texts.length < maxExecArgs
  short : ∀ text ∈ texts, text.length < maxExecArgLen ∧ 0 ∉ text

theorem copyCstrFromChild_accepted {left va : Nat} {text : List UInt8}
    (copied : (copyCstrFromChild arch child left va s).1 = some text) :
    text.length < left ∧ 0 ∉ text := by
  induction left generalizing va s text with
  | zero => simp [copyCstrFromChild] at copied
  | succ left ih =>
    unfold copyCstrFromChild at copied
    split at copied
    · rename_i byte s' _
      split at copied
      · cases copied
        simp
      · rename_i proper
        obtain ⟨rest, is, rfl⟩ := Option.map_eq_some_iff.mp copied
        obtain ⟨short, text⟩ := ih is
        simp only [List.length_cons, List.mem_cons, not_or]
        exact ⟨by omega, Ne.symm proper, text⟩
    · cases copied

theorem collectExecArgs_accepted {left ptr : Nat}
    (collected : (collectExecArgs arch child left ptr s).1 = some texts) :
    texts.length < left ∧ ∀ text ∈ texts, text.length < maxExecArgLen ∧ 0 ∉ text := by
  induction left generalizing ptr s texts with
  | zero => simp [collectExecArgs] at collected
  | succ left ih =>
    unfold collectExecArgs at collected
    split at collected
    · cases collected
    split at collected
    · cases collected
      simp
    split at collected
    · cases collected
    · rename_i arg s' copied
      obtain ⟨rest, is, rfl⟩ := Option.map_eq_some_iff.mp collected
      obtain ⟨few, short⟩ := ih is
      refine ⟨by simpa using few, fun text here => ?_⟩
      rcases List.mem_cons.mp here with rfl | here
      · exact copyCstrFromChild_accepted (congrArg Prod.fst copied)
      · exact short text here

theorem textsSize_le {n m : Nat} (few : texts.length ≤ n)
    (short : ∀ text ∈ texts, text.length + 1 ≤ m) : textsSize texts ≤ n * m := by
  have bound : textsSize texts ≤ texts.length * m := by
    induction texts with
    | nil => simp [textsSize]
    | cons text rest ih =>
      have first := short text List.mem_cons_self
      have later := ih (by simp at few; omega) fun text here =>
        short text (List.mem_cons_of_mem _ here)
      rw [textsSize_cons, List.length_cons, Nat.succ_mul]
      omega
  exact Nat.le_trans bound (Nat.mul_le_mul_right m few)

theorem Accepted.size (accepted : Accepted texts) : textsSize texts ≤ 31 * 128 :=
  textsSize_le (Nat.le_of_lt_succ accepted.few) fun text here => (accepted.short text here).1

/-- The path of the program is a text like the others, if there is one. -/
def pathTexts (child : Task) : List (List UInt8) :=
  if child.execPath = [] then [] else [child.execPath]

/-- The pointer to the path. -/
def execfnAt (child : Task) (sp : Nat) : Nat :=
  if child.execPath = [] then 0 else sp - (child.execPath.length + 1)

theorem pushExecfn_eq (stacked : Stacked s child.pid base top)
    (room : base + textsSize (pathTexts child) ≤ sp) (below : sp ≤ top) :
    pushExecfn arch child base sp s =
      (some (sp - textsSize (pathTexts child), execfnAt child sp),
        s.put child.pid (sp - textsSize (pathTexts child)) (textBlock (pathTexts child))) := by
  unfold pushExecfn execfnAt
  by_cases empty : child.execPath = []
  · simp [empty, pathTexts, textsSize, textBlock, Memory.put_nil]
  · have one : pathTexts child = [child.execPath] := if_neg empty
    have size : textsSize (pathTexts child) = child.execPath.length + 1 := by simp [one, textsSize]
    rw [if_neg empty, if_neg empty, pushCstr_eq stacked (by omega) below, size, one]
    simp [textBlock]

/-- All texts of a new stack, in the order in which they are pushed. -/
def entryTexts (child : Task) (args envs : List (List UInt8)) : List (List UInt8) :=
  args ++ envs ++ pathTexts child

/-- A process with the pages of its stack, below the start of its heap. -/
structure StackMapped (s : Memory) (child : Task) : Prop where
  large : stackSize ≤ child.heapStart
  word : child.heapStart < 2 ^ 64
  pages : s.Accessible child.pid (child.heapStart - stackSize) stackSize true

theorem StackMapped.stacked (mapped : StackMapped s child) :
    Stacked s child.pid (child.heapStart - stackSize) child.heapStart := by
  unfold Stacked
  rw [Nat.sub_sub_self mapped.large]
  exact mapped.pages

/-- The fields of a process that go to its stack are machine words. -/
structure Task.Words (child : Task) : Prop where
  phdr : child.elfPhdr < 2 ^ 64
  phent : child.elfPhent < 2 ^ 64
  phnum : child.elfPhnum < 2 ^ 64
  entry : child.entry < 2 ^ 64

/-- The pieces of a new stack from the highest on: the texts, the random bytes, and the words. -/
def entryPieces (child : Task) (args envs : List (List UInt8)) (sp random : Nat) :
    List (Nat × Nat) :=
  textPieces (entryTexts child args envs) child.heapStart ++ [(random, 16), (sp, random - sp)]

/-- A stack as a program expects it at its entry. -/
structure EntryStack (s : Memory) (child : Task) (args envs : List (List UInt8))
    (sp random execfn : Nat) : Prop where
  entry : processEntry s child.pid sp =
    some { argc := args.length, argv := args, envp := envs, auxv := auxVector child random execfn }
  randomBytes : Holds s child.pid random (stackRandom child.pid)
  path : if child.execPath = [] then execfn = 0
    else Holds s child.pid execfn (child.execPath ++ [0])
  apart : (entryPieces child args envs sp random).Pairwise
    fun upper lower => lower.1 + lower.2 ≤ upper.1
  inside : ∀ piece ∈ entryPieces child args envs sp random,
    child.heapStart - stackSize ≤ piece.1 ∧ piece.1 + piece.2 ≤ child.heapStart

theorem entryWords_small (words : child.Words) (high : random < 2 ^ 64) (name : execfn < 2 ^ 64)
    (some' : argPtrs.length < 2 ^ 64) (ptrs : ∀ ptr ∈ argPtrs ++ envPtrs, ptr < 2 ^ 64) :
    ∀ w ∈ entryWords child random execfn argPtrs envPtrs, w < 2 ^ 64 := by
  have fixed : ∀ w ∈ (auxVector child random execfn).flatMap fun pair => [pair.1, pair.2],
      w < 2 ^ 64 := by
    obtain ⟨phdr, phent, phnum, entry⟩ := words
    simp [auxVector, atPhdr, atPhent, atPhnum, atPagesz, atBase, atFlags, atEntry, atUid, atEuid,
      atGid, atEgid, atSecure, atClktck, atRandom, atExecfn, atNull, pageSize]
    omega
  intro w here
  simp only [entryWords, List.mem_append, List.mem_cons] at here
  rcases here with ((rfl | here) | rfl | here) | rfl | here
  · exact some'
  · exact ptrs w (List.mem_append_left _ here)
  · decide
  · exact ptrs w (List.mem_append_right _ here)
  · decide
  · exact fixed w here

/-- The words and texts of a stack read back. -/
theorem processEntry_of (few : envPtrs.length < stackSize) (proper : ∀ ptr ∈ envPtrs, ptr ≠ 0)
    (holds : HoldsWords s child.pid sp (entryWords child random execfn argPtrs envPtrs))
    (argv : List.Forall₂ (fun ptr text => cstrAt s child.pid stackSize ptr = some text) argPtrs args)
    (envp : List.Forall₂ (fun ptr text => cstrAt s child.pid stackSize ptr = some text) envPtrs
      envs) :
    processEntry s child.pid sp =
      some { argc := args.length, argv := args, envp := envs,
             auxv := auxVector child random execfn } := by
  rw [entryWords, holdsWords_append, holdsWords_append] at holds
  obtain ⟨⟨⟨argc, first⟩, null, second⟩, null', third⟩ := holds
  simp only [List.length_cons, List.length_append] at null second null' third
  have count : argPtrs.length = args.length := argv.length_eq
  rw [count] at argc null second null' third
  -- Behind the count and the arguments, the environment and the zero behind it.
  have ended : HoldsWords s child.pid (sp + 16 + 8 * args.length) (envPtrs ++ [0]) := by
    refine holdsWords_append.mpr ⟨?_, ?_, trivial⟩
    · rw [show sp + 16 + 8 * args.length = sp + 8 * (args.length + 1) + 8 by omega]
      exact second
    · rw [show sp + 16 + 8 * args.length + 8 * envPtrs.length =
        sp + 8 * (args.length + 1 + (envPtrs.length + 1)) by omega]
      exact null'
  have aux : auxAt s child.pid stackSize (sp + 16 + 8 * args.length + 8 * envPtrs.length + 8) =
      some ((auxVector child random execfn).dropLast ++ [(atNull, 0)]) := by
    refine auxAt_of ?_ ?_ ?_
    · simp [auxVector, atPhdr, atPhent, atPhnum, atPagesz, atBase, atFlags, atEntry, atUid, atEuid,
        atGid, atEgid, atSecure, atClktck, atRandom, atExecfn, atNull]
    · rw [show sp + 16 + 8 * args.length + 8 * envPtrs.length + 8 =
        sp + 8 * (args.length + 1 + (envPtrs.length + 1)) + 8 by omega]
      exact third
    · simp [auxVector, stackSize, pageSize, childStackPages]
  have texts := textsAt_of argv first
  rw [count] at texts
  rw [show sp + 8 * (args.length + 1) = sp + 8 + 8 * args.length by omega] at null
  simp only [processEntry, argc, texts, null, textsUpTo_of envp ended proper few, aux,
    Option.bind_eq_bind, Option.bind_some, ne_eq, not_true, if_false]
  rfl

theorem textPtrs_inside {ptr : Nat} (room : textsSize texts ≤ sp)
    (here : ptr ∈ textPtrs texts sp) : sp - textsSize texts ≤ ptr ∧ ptr ≤ sp := by
  obtain ⟨piece, piece_mem, rfl⟩ := List.mem_map.mp here
  have := textPieces_inside room piece piece_mem
  omega

/-- Texts without an end inside are read back from where they are. -/
theorem Accepted.read {pid : Nat} {ptrs : List Nat} (accepted : Accepted texts)
    (hold : List.Forall₂ (fun ptr text => Holds s pid ptr (text ++ [0])) ptrs texts) :
    List.Forall₂ (fun ptr text => cstrAt s pid stackSize ptr = some text) ptrs texts := by
  have short := accepted.short
  clear accepted
  induction hold with
  | nil => exact .nil
  | cons here _ ih =>
    obtain ⟨few, proper⟩ := short _ List.mem_cons_self
    exact .cons (cstrAt_of_holds here proper (Nat.lt_trans few (by decide)))
      (ih fun text here => short text (List.mem_cons_of_mem _ here))

end Setup

/-- A new stack: a process, its arguments and its environment. -/
structure Layout where
  child : Task
  args : List (List UInt8)
  envs : List (List UInt8)

namespace Layout

section

variable (l : Layout)

def texts : List (List UInt8) := entryTexts l.child l.args l.envs

/-- Where the texts begin, and the random bytes below them. -/
def low : Nat := l.child.heapStart - textsSize l.texts
def random : Nat := (l.low - 16) / 16 * 16

def argPtrs : List Nat := textPtrs l.args l.child.heapStart
def envPtrs : List Nat := textPtrs l.envs (l.child.heapStart - textsSize l.args)
def pathPtrs : List Nat :=
  textPtrs (pathTexts l.child) (l.child.heapStart - textsSize (l.args ++ l.envs))
def execfn : Nat := execfnAt l.child (l.child.heapStart - textsSize (l.args ++ l.envs))

/-- The table of words, and where it begins. -/
def words : List Nat := entryWords l.child l.random l.execfn l.argPtrs l.envPtrs
def sp : Nat := l.random - 8 * l.words.length

/-- The memory with the texts, and then with the whole stack. -/
def written (s : Memory) : Memory := s.put l.child.pid l.low (textBlock l.texts)
def filled (s : Memory) : Memory :=
  ((l.written s).put l.child.pid l.random (stackRandom l.child.pid)).put l.child.pid l.sp
    (l.words.flatMap wordBytes)

/-- The stack has its pages, and the texts are such as an `execve` lets through. -/
structure Fits (s : Memory) : Prop where
  mapped : StackMapped s l.child
  args : Accepted l.args
  envs : Accepted l.envs
  path : l.child.execPath.length ≤ maxExecPathBytes

theorem textPtrs_texts :
    textPtrs l.texts l.child.heapStart = l.argPtrs ++ l.envPtrs ++ l.pathPtrs := by
  simp only [textPtrs, texts, entryTexts, textPieces_append, List.map_append, argPtrs, envPtrs,
    pathPtrs]

theorem words_length : l.words.length = 35 + l.args.length + l.envs.length := by
  rw [words, entryWords_length, argPtrs, envPtrs, textPtrs_length, textPtrs_length]

theorem textsSize_texts : textsSize l.texts =
    textsSize l.args + textsSize l.envs + textsSize (pathTexts l.child) ∧
      textsSize (l.args ++ l.envs) = textsSize l.args + textsSize l.envs := by
  rw [texts, entryTexts, textsSize_append, textsSize_append]
  exact ⟨rfl, rfl⟩

end

variable {l : Layout} {s : Memory} (fits : l.Fits s)
include fits

/-- All texts together are far smaller than the stack. -/
theorem Fits.small : textsSize l.texts ≤ 8321 ∧ l.args.length ≤ 31 ∧ l.envs.length ≤ 31 := by
  have path : textsSize (pathTexts l.child) ≤ 385 := by
    have := fits.path
    unfold pathTexts
    unfold maxExecPathBytes at this
    split <;> simp only [textsSize] <;> omega
  have := fits.args.size
  have := fits.envs.size
  have := l.textsSize_texts
  exact ⟨by omega, Nat.le_of_lt_succ fits.args.few, Nat.le_of_lt_succ fits.envs.few⟩

/-- The texts, the random bytes and the words lie one below the other in the stack. -/
theorem Fits.places : l.child.heapStart - stackSize ≤ l.sp ∧ 0 < l.sp ∧
    l.sp + 8 * l.words.length = l.random ∧ l.random % 16 = 0 ∧ l.random + 16 ≤ l.low ∧
    l.low + textsSize l.texts = l.child.heapStart := by
  have := fits.small
  have := fits.mapped.large
  have : stackSize = 65536 := rfl
  have := l.words_length
  unfold sp random low
  omega

theorem Fits.setup (arch : Arch) :
    setupLinuxStack arch l.child l.args l.envs s = (some l.sp, l.filled s) := by
  have stacked := fits.mapped.stacked
  have large := fits.mapped.large
  have := fits.small
  have := l.textsSize_texts
  have size : stackSize = 65536 := rfl
  have whole : pageSize * childStackPages = stackSize := rfl
  have counts : (textPtrs l.args l.child.heapStart).length = l.args.length ∧
      (textPtrs l.envs (l.child.heapStart - textsSize l.args)).length = l.envs.length :=
    ⟨textPtrs_length, textPtrs_length⟩
  simp only [setupLinuxStack, whole]
  rw [if_neg (Nat.not_lt.mpr large), pushCstrs_eq stacked (by omega) (Nat.le_refl _)]
  simp only
  rw [pushCstrs_eq stacked.put (by omega) (by omega),
    Memory.put_below (by rw [textBlock_length]; omega)]
  simp only
  rw [pushExecfn_eq stacked.put (by omega) (by omega),
    Memory.put_below (by rw [textBlock_length]; omega)]
  simp only
  have below : l.child.heapStart - textsSize l.args - textsSize l.envs -
      textsSize (pathTexts l.child) = l.low := by
    unfold low
    omega
  have path : l.child.heapStart - textsSize l.args - textsSize l.envs =
      l.child.heapStart - textsSize (l.args ++ l.envs) := by omega
  have block : textBlock (pathTexts l.child) ++ (textBlock l.envs ++ textBlock l.args) =
      textBlock l.texts := by
    rw [texts, entryTexts, textBlock_append, textBlock_append]
  rw [below, path, block,
    pushTables_eq stacked.put (by unfold low; omega) (by unfold low; omega)]
  rfl

/-- The texts are where their pointers say, and the rest goes below them. -/
theorem Fits.texts_hold :
    List.Forall₂ (fun ptr text => Holds (l.filled s) l.child.pid ptr (text ++ [0])) l.argPtrs
      l.args ∧
    List.Forall₂ (fun ptr text => Holds (l.filled s) l.child.pid ptr (text ++ [0])) l.envPtrs
      l.envs ∧
    List.Forall₂ (fun ptr text => Holds (l.filled s) l.child.pid ptr (text ++ [0])) l.pathPtrs
      (pathTexts l.child) := by
  have stacked := fits.mapped.stacked
  have := fits.places
  have random := stackRandom_length l.child.pid
  have table := wordBytes_length l.words
  have texts : List.Forall₂ (fun ptr text => Holds (l.filled s) l.child.pid ptr (text ++ [0]))
      (textPtrs l.texts l.child.heapStart) l.texts := by
    refine (Host.texts_hold l.texts stacked (by omega) (Nat.le_refl _)).imp
      fun ptr text ⟨low, high, holds⟩ => ?_
    have low : l.low ≤ ptr := low
    exact stacked.put.put.stays (stacked.put.stays holds (by omega) high (.inr (by omega)))
      (by omega) high (.inr (by omega))
  rw [textPtrs_texts, Layout.texts, entryTexts] at texts
  have both := List.forall₂_take_append _ _ _ texts
  have last := List.forall₂_drop_append _ _ _ texts
  have counts : (l.argPtrs ++ l.envPtrs).length = (l.args ++ l.envs).length := by
    simp [argPtrs, envPtrs, textPtrs_length]
  rw [List.take_left' counts] at both
  rw [List.drop_left' counts] at last
  have count : l.argPtrs.length = l.args.length := textPtrs_length
  have first := List.forall₂_take_append _ _ _ both
  have second := List.forall₂_drop_append _ _ _ both
  rw [List.take_left' count] at first
  rw [List.drop_left' count] at second
  exact ⟨first, second, last⟩

/-- The words are stored last, and none of them is too large for one. -/
theorem Fits.words_hold (typed : l.child.Words) :
    HoldsWords (l.filled s) l.child.pid l.sp l.words := by
  have := fits.places
  have := fits.small
  have word := fits.mapped.word
  have := l.textsSize_texts
  have table := wordBytes_length l.words
  have name : l.execfn ≤ l.child.heapStart := by
    unfold execfn execfnAt
    split <;> omega
  refine holdsWords_of_holds (fits.mapped.stacked.put.put.stored (by omega) (by omega)) ?_
  refine entryWords_small typed (by omega) (by omega) ?_ fun ptr here => ?_
  · rw [argPtrs, textPtrs_length]
    omega
  · rcases List.mem_append.mp here with here | here
    · have := textPtrs_inside (by omega) here
      omega
    · have := textPtrs_inside (by omega) here
      omega

theorem Fits.entry (typed : l.child.Words) : processEntry (l.filled s) l.child.pid l.sp =
    some { argc := l.args.length, argv := l.args, envp := l.envs,
           auxv := auxVector l.child l.random l.execfn } := by
  obtain ⟨args, envs, -⟩ := fits.texts_hold
  have := fits.places
  have := fits.small
  have := l.textsSize_texts
  have : stackSize = 65536 := rfl
  refine processEntry_of ?_ (fun ptr here => ?_) (fits.words_hold typed) (fits.args.read args)
    (fits.envs.read envs)
  · rw [envPtrs, textPtrs_length]
    omega
  · have := textPtrs_inside (by omega) here
    omega

theorem Fits.random_holds :
    Holds (l.filled s) l.child.pid l.random (stackRandom l.child.pid) := by
  have stacked := fits.mapped.stacked
  have := fits.places
  have random := stackRandom_length l.child.pid
  have table := wordBytes_length l.words
  unfold filled
  generalize stackRandom l.child.pid = bytes at random ⊢
  exact stacked.put.put.stays (stacked.put.stored (by omega) (by omega)) (by omega) (by omega)
    (.inr (by omega))

theorem Fits.path_holds : if l.child.execPath = [] then l.execfn = 0
    else Holds (l.filled s) l.child.pid l.execfn (l.child.execPath ++ [0]) := by
  split
  · rename_i empty
    rw [execfn, execfnAt, if_pos empty]
  · rename_i path
    have one : pathTexts l.child = [l.child.execPath] := if_neg path
    have named := fits.texts_hold.2.2
    rw [pathPtrs, one] at named
    rw [execfn, execfnAt, if_neg path]
    exact (List.forall₂_cons.mp named).1

theorem Fits.apart : (entryPieces l.child l.args l.envs l.sp l.random).Pairwise
    fun upper lower => lower.1 + lower.2 ≤ upper.1 := by
  have := fits.places
  have room : textsSize l.texts ≤ l.child.heapStart := by omega
  refine List.pairwise_append.mpr
    ⟨textPieces_apart room, by simp; omega, fun upper here lower there => ?_⟩
  have := textPieces_inside room upper here
  have : l.low = l.child.heapStart - textsSize l.texts := rfl
  simp only [List.mem_cons, List.not_mem_nil, or_false] at there
  rcases there with rfl | rfl <;> simp only <;> omega

theorem Fits.inside : ∀ piece ∈ entryPieces l.child l.args l.envs l.sp l.random,
    l.child.heapStart - stackSize ≤ piece.1 ∧ piece.1 + piece.2 ≤ l.child.heapStart := by
  have := fits.places
  have : l.low = l.child.heapStart - textsSize l.texts := rfl
  intro piece here
  rcases List.mem_append.mp here with here | here
  · have room : textsSize l.texts ≤ l.child.heapStart := by omega
    have := textPieces_inside room piece here
    omega
  · simp only [List.mem_cons, List.not_mem_nil, or_false] at here
    rcases here with rfl | rfl <;> simp only <;> omega

end Layout

/--
The stack of a new program, for whatever arguments and environment were let through, is built and
reads back as they are, with the vector of the process; the pieces lie apart from each other in the
pages of the stack.

The stack pointer is a multiple of sixteen just when the arguments and the environment are odd in
number.
-/
theorem linux_stack_parses {s s₁ s₂ : Memory} {arch : Arch} {child task task' : Task}
    {args envs : List (List UInt8)} {argvPtr envpPtr : Nat} (mapped : StackMapped s child)
    (typed : child.Words) (path : child.execPath.length ≤ maxExecPathBytes)
    (argv : (collectExecArgs arch task maxExecArgs argvPtr s₁).1 = some args)
    (envp : envs = [] ∨ (collectExecArgs arch task' maxExecArgs envpPtr s₂).1 = some envs) :
    ∃ sp random execfn s', setupLinuxStack arch child args envs s = (some sp, s') ∧
      EntryStack s' child args envs sp random execfn ∧
      (sp % 16 = 0 ↔ (args.length + envs.length) % 2 = 1) := by
  have argsOk : Accepted args :=
    ⟨(collectExecArgs_accepted argv).1, (collectExecArgs_accepted argv).2⟩
  have envsOk : Accepted envs := by
    rcases envp with rfl | envp
    · exact ⟨by decide, by simp⟩
    · exact ⟨(collectExecArgs_accepted envp).1, (collectExecArgs_accepted envp).2⟩
  let l : Layout := ⟨child, args, envs⟩
  have fits : l.Fits s := ⟨mapped, argsOk, envsOk, path⟩
  have places := fits.places
  have count : l.words.length = 35 + args.length + envs.length := l.words_length
  exact ⟨l.sp, l.random, l.execfn, l.filled s, fits.setup arch,
    ⟨fits.entry typed, fits.random_holds, fits.path_holds, fits.apart, fits.inside⟩, by omega⟩

section Sample

/-- A process whose second page begins with a vector of one pointer, to the text behind it. -/
def argumentMemory : Memory where
  pages _ q := some {
    bytes := fun i => if q = 1 ∧ i = 1 then 17 else if q = 1 ∧ i = 256 then 97 else 0
    writable := true
    executable := false }
  mappingCount := 0
  framePool := []
  freshFrames := 0

def stackTask : Task where
  pid := 2
  entry := 65536
  brk := 131072
  heapStart := 131072
  heapMappedEnd := 131072
  elfPhdr := 65600
  elfPhent := 56
  elfPhnum := 2
  execPath := [47, 97]

theorem stackTask_collects :
    (collectExecArgs .riscv64 stackTask maxExecArgs 4096 argumentMemory).1 = some [[97]] := by
  decide +kernel

/-- The text is the only argument, and makes up the environment as well. -/
theorem linux_stack_parses_one : ∃ sp random execfn s',
    setupLinuxStack .riscv64 stackTask [[97]] [[97]] argumentMemory = (some sp, s') ∧
      EntryStack s' stackTask [[97]] [[97]] sp random execfn ∧
      (sp % 16 = 0 ↔ (1 + 1) % 2 = 1) := by
  have mapped : StackMapped argumentMemory stackTask :=
    ⟨by decide, by decide, fun a _ _ => ⟨_, rfl, fun _ => rfl⟩⟩
  have typed : stackTask.Words := ⟨by decide, by decide, by decide, by decide⟩
  exact linux_stack_parses mapped typed (by decide) stackTask_collects (.inr stackTask_collects)

/-- With one argument and one text in the environment the stack pointer is 8 modulo 16. -/
theorem linux_stack_misaligned :
    (collectExecArgs .riscv64 stackTask maxExecArgs 4096 argumentMemory).1 = some [[97]] ∧
      (setupLinuxStack .riscv64 stackTask [[97]] [[97]] argumentMemory).1.map (· % 16) = some 8 := by
  decide +kernel

end Sample

end Rel4.Host
