import Rel4.Lib.Interleave
import Rel4.Lib.Program
import Rel4.Vfs.Ramfs

/-! How a path is taken apart, and what a walk along its names depends on. -/

namespace Rel4.Vfs

open Lib

variable {α : Type} {fs fs' : Ramfs} {post : α → Ramfs → Prop} {fail : Stop → Ramfs → Prop}

section Rules

@[simp] theorem wp_err (e : Errno) : wp (err e : Fs α) post fail fs ↔ fail (.errno e) fs := Iff.rfl

theorem wp_orErr (value : Option α) (e : Errno) :
    wp (orErr value e) post fail fs ↔
      (∀ a, value = some a → post a fs) ∧ (value = none → fail (.errno e) fs) := by
  cases value <;> simp [orErr]

@[simp] theorem wp_modifyInode {post : Unit → Ramfs → Prop} (inum : Nat) (change : Inode → Inode) :
    wp (modifyInode inum change) post fail fs ↔ post () (fs.updInode inum change) := Iff.rfl

theorem wp_attempt (prog : Fs α) {post : Except Errno α → Ramfs → Prop} :
    wp (attempt prog) post fail fs ↔
      wp prog (fun a => post (.ok a))
        (fun stop fs' => match stop with
          | .errno e => post (.error e) fs'
          | stop => fail stop fs') fs := by
  unfold wp attempt
  cases prog fs with
  | ok a fs' => rfl
  | error stop fs' => cases stop <;> rfl

end Rules

section Components

variable {name : Name} {path front : List UInt8}

/-- A name that is being read is finished by a slash, and the rest of the path starts afresh. -/
theorem componentsFrom_append_slash (name : Name) (path rest : List UInt8) :
    componentsFrom name (path ++ slash :: rest) = componentsFrom name path ++ components rest := by
  induction path generalizing name with
  | nil =>
    cases name <;> simp [componentsFrom, components]
  | cons byte path ih =>
    simp only [List.cons_append, componentsFrom]
    split_ifs <;> simp [ih]

theorem components_append_slash (path rest : List UInt8) :
    components (path ++ slash :: rest) = components path ++ components rest :=
  componentsFrom_append_slash [] path rest

@[simp] theorem components_nil : components [] = [] := rfl

/-- Slashes alone name nothing. -/
theorem components_slashes {slashes : List UInt8} (only : ∀ byte ∈ slashes, byte = slash) :
    components slashes = [] := by
  induction slashes with
  | nil => rfl
  | cons byte rest ih =>
    have first : byte = slash := only byte (by simp)
    have later : components rest = [] := ih fun b member => only b (by simp [member])
    simpa [components, componentsFrom, first] using later

/-- Bytes without a slash are one name. -/
theorem componentsFrom_plain (name : Name) (plain : slash ∉ path) (some : name ++ path ≠ []) :
    componentsFrom name path = [name ++ path] := by
  induction path generalizing name with
  | nil =>
    cases name with
    | nil => simp at some
    | cons => simp [componentsFrom]
  | cons byte path ih =>
    simp only [List.mem_cons, not_or] at plain
    rw [componentsFrom, if_neg (Ne.symm plain.1), ih _ plain.2 (by simp)]
    simp

theorem components_plain (plain : slash ∉ path) (some : path ≠ []) : components path = [path] :=
  componentsFrom_plain [] plain some

/-- Trailing slashes change nothing. -/
theorem components_append_slashes {slashes : List UInt8} (only : ∀ byte ∈ slashes, byte = slash) :
    components (path ++ slashes) = components path := by
  cases slashes with
  | nil => simp
  | cons byte rest =>
    have first : byte = slash := only byte (by simp)
    have later : components rest = [] :=
      components_slashes fun b member => only b (List.mem_cons_of_mem _ member)
    rw [first, components_append_slash, later, List.append_nil]

/-- No name holds a slash, and none is empty. -/
theorem componentsFrom_plain_names (plain : slash ∉ name) :
    ∀ part ∈ componentsFrom name path, part ≠ [] ∧ slash ∉ part := by
  induction path generalizing name with
  | nil =>
    cases name with
    | nil => simp [componentsFrom]
    | cons =>
      intro part member
      simp only [componentsFrom, List.mem_singleton] at member
      subst member
      exact ⟨by simp, plain⟩
  | cons byte path ih =>
    simp only [componentsFrom]
    split_ifs with isSlash isEmpty
    · exact ih (by simp)
    · intro part member
      rcases List.mem_cons.mp member with rfl | later
      · exact ⟨isEmpty, plain⟩
      · exact ih (by simp) part later
    · refine ih ?_
      simp only [List.mem_append, List.mem_singleton, not_or]
      exact ⟨plain, Ne.symm isSlash⟩

/-- The path `splitParent` walks to find the directory of a trimmed path's last name. -/
def parentPath (path : List UInt8) : List UInt8 :=
  let trimmed := path.rdropWhile (· == slash)
  let start := trimmed.length - (trimmed.rtakeWhile (· != slash)).length
  if start ≤ 1 then [slash] else path.take (start - 1)

/-- The name a path ends with. -/
def lastName (path : List UInt8) : Name := (path.rdropWhile (· == slash)).rtakeWhile (· != slash)

theorem parentPath_ne_nil (path : List UInt8) : parentPath path ≠ [] := by
  unfold parentPath
  intro empty
  simp only at empty
  split_ifs at empty with short
  have := List.take_eq_nil_iff.mp empty
  rcases this with none | gone
  · omega
  · subst gone
    simp at short

theorem slash_notMem_lastName (path : List UInt8) : slash ∉ lastName path := by
  intro member
  simpa using List.mem_rtakeWhile_imp member

theorem lastName_ne_nil (some : path.rdropWhile (· == slash) ≠ []) : lastName path ≠ [] := by
  have last := List.rdropWhile_last_not (· == slash) path some
  intro empty
  have := (List.rtakeWhile_eq_nil_iff ..).mp empty some
  simp_all

/-- A path is what leads to its last name, and that name. -/
theorem components_split (some : path.rdropWhile (· == slash) ≠ []) :
    components path = components (parentPath path) ++ [lastName path] := by
  set trimmed := path.rdropWhile (· == slash) with trimmedEq
  have whole : path = trimmed ++ path.rtakeWhile (· == slash) :=
    (List.rdropWhile_append_rtakeWhile ..).symm
  have slashes : ∀ byte ∈ path.rtakeWhile (· == slash), byte = slash := fun byte member => by
    simpa using List.mem_rtakeWhile_imp member
  have cut : trimmed = trimmed.rdropWhile (· != slash) ++ lastName path :=
    (List.rdropWhile_append_rtakeWhile ..).symm
  have named : components (lastName path) = [lastName path] :=
    components_plain (slash_notMem_lastName path) (lastName_ne_nil some)
  have trim : components path = components trimmed := by
    conv_lhs => rw [whole]
    exact components_append_slashes slashes
  have start : trimmed.length - (lastName path).length =
      (trimmed.rdropWhile (· != slash)).length := by
    have := congrArg List.length cut
    simp only [List.length_append] at this
    omega
  -- Whatever stands before the name ends with the slash that keeps them apart.
  by_cases alone : trimmed.rdropWhile (· != slash) = []
  · have first : parentPath path = [slash] := by
      show (if trimmed.length - (lastName path).length ≤ 1 then _ else _) = _
      rw [start, alone]
      rfl
    rw [trim, first, cut, alone, List.nil_append, named]
    rfl
  · have last := List.rdropWhile_last_not (· != slash) trimmed alone
    have init : trimmed.rdropWhile (· != slash) =
        (trimmed.rdropWhile (· != slash)).dropLast ++ [slash] := by
      have := List.dropLast_append_getLast alone
      simp only [bne_iff_ne, ne_eq, not_not] at last
      rw [last] at this
      exact this.symm
    set before := (trimmed.rdropWhile (· != slash)).dropLast with beforeEq
    have parts : trimmed = before ++ slash :: lastName path := by
      conv_lhs => rw [cut, init]
      simp
    have leads : components (parentPath path) = components before := by
      show components (if trimmed.length - (lastName path).length ≤ 1 then [slash]
        else path.take (trimmed.length - (lastName path).length - 1)) = _
      rw [start, init]
      simp only [List.length_append, List.length_singleton, Nat.add_sub_cancel]
      split_ifs with short
      · have none : before = [] := List.length_eq_zero_iff.mp (by omega)
        rw [none]
        rfl
      · rw [whole, parts, List.append_assoc, List.take_left]
    rw [trim, leads]
    conv_lhs => rw [parts]
    rw [components_append_slash, named]

end Components

section Walks

variable {cur n : Nat} {names front : List Name} {name : Name} {path : List UInt8}

/-- A walk along names, one after the other. -/
def Ramfs.walkNames (fs : Ramfs) (cur : Nat) (names : List Name) : Except Errno Nat :=
  names.foldlM fs.walkName cur

@[simp] theorem walkNames_nil : fs.walkNames cur [] = .ok cur := rfl

theorem walkNames_cons :
    fs.walkNames cur (name :: names) = (fs.walkName cur name).bind fun next =>
      fs.walkNames next names := rfl

theorem walkNames_append :
    fs.walkNames cur (front ++ names) = (fs.walkNames cur front).bind fun next =>
      fs.walkNames next names := by
  rw [Ramfs.walkNames, List.foldlM_append]
  rfl

theorem walkNames_cons_ok : fs.walkNames cur (name :: names) = .ok n ↔
    ∃ next, fs.walkName cur name = .ok next ∧ fs.walkNames next names = .ok n := by
  rw [walkNames_cons]
  cases fs.walkName cur name <;> simp [Except.bind]

theorem walkNames_append_ok : fs.walkNames cur (front ++ names) = .ok n ↔
    ∃ next, fs.walkNames cur front = .ok next ∧ fs.walkNames next names = .ok n := by
  rw [walkNames_append]
  cases fs.walkNames cur front <;> simp [Except.bind]

@[simp] theorem walk_nil : fs.walk [] = .error .enoent := if_pos rfl

theorem walk_eq (some : path ≠ []) : fs.walk path = fs.walkNames rootIno (components path) :=
  if_neg some

theorem walk_ok : fs.walk path = .ok n ↔ path ≠ [] ∧ fs.walkNames rootIno (components path) = .ok n := by
  unfold Ramfs.walk
  split_ifs with empty <;> simp [empty, Ramfs.walkNames]

/-- A walk fails for one reason only. -/
theorem walkName_error {e : Errno} (failed : fs.walkName cur name = .error e) : e = .enoent := by
  unfold Ramfs.walkName at failed
  split_ifs at failed
  · cases found : fs.inode cur <;> simp [found] at failed
  · cases found : fs.lookup cur name <;> simp [found] at failed
    exact failed.symm

theorem walkNames_error {e : Errno} (failed : fs.walkNames cur names = .error e) : e = .enoent := by
  induction names generalizing cur with
  | nil => cases failed
  | cons name names ih =>
    rw [walkNames_cons] at failed
    cases step : fs.walkName cur name with
    | error =>
      rw [step] at failed
      cases failed
      exact walkName_error step
    | ok next =>
      rw [step] at failed
      exact ih failed

theorem walk_error {e : Errno} (failed : fs.walk path = .error e) : e = .enoent := by
  unfold Ramfs.walk at failed
  split_ifs at failed
  · cases failed
    rfl
  · exact walkNames_error failed

theorem splitParent_eq (trimmed : path.rdropWhile (· == slash) ≠ []) :
    fs.splitParent path = match fs.walk (parentPath path) with
      | .ok parent => some (parent, lastName path)
      | .error _ => none := by
  have some : path ≠ [] := by
    rintro rfl
    simp at trimmed
  unfold Ramfs.splitParent
  rw [if_neg some, if_neg trimmed]
  rfl

/-- What `splitParent` finds, for a path that names something. -/
theorem splitParent_some {parent : Nat} (found : fs.splitParent path = some (parent, name))
    (named : name ≠ []) :
    name = lastName path ∧ slash ∉ name ∧
      fs.walkNames rootIno (components (parentPath path)) = .ok parent ∧
      components path = components (parentPath path) ++ [name] := by
  by_cases trimmed : path.rdropWhile (· == slash) = []
  · unfold Ramfs.splitParent at found
    split_ifs at found with empty
    · rw [if_pos trimmed] at found
      cases found
      exact absurd rfl named
  · rw [splitParent_eq trimmed] at found
    cases walked : fs.walk (parentPath path) with
    | error => simp [walked] at found
    | ok dir =>
      simp only [walked, Option.some.injEq, Prod.mk.injEq] at found
      obtain ⟨rfl, rfl⟩ := found
      exact ⟨rfl, slash_notMem_lastName path, (walk_ok.mp walked).2, components_split trimmed⟩

/-- If the path leads somewhere, so does what comes before its last name. -/
theorem walkNames_split {parent : Nat} (found : fs.splitParent path = some (parent, name))
    (named : name ≠ []) :
    fs.walkNames rootIno (components path) = fs.walkName parent name := by
  obtain ⟨-, -, walked, split⟩ := splitParent_some found named
  rw [split, walkNames_append, walked]
  show fs.walkNames parent [name] = _
  rw [walkNames_cons]
  cases fs.walkName parent name <;> rfl

end Walks

end Rel4.Vfs
