import Rel4.Host.Path
import Rel4.Proof.Namespace

/-! The path the host makes is normalised, and leads where the given one leads. -/

namespace Rel4.Host

open Vfs (Name slash dot components rootIno Ramfs)

section Render

variable {names : List Name} {name : Name}

/-- The path with these names: a slash before each, and a slash alone if there are none. -/
def render (names : List Name) : List UInt8 := if names = [] then [slash] else names.flatMap (slash :: ·)

/-- A path is normalised if it is made of names that no walk treats in a special way. -/
def Normalised (path : List UInt8) : Prop := ∃ names : List Name, (∀ name ∈ names, name.Valid) ∧ path = render names

theorem render_one : render [name] = slash :: name := by simp [render]

theorem render_concat (some : names ≠ []) : render (names ++ [name]) = render names ++ slash :: name := by
  simp [render, some]

theorem render_head : (render names).head? = some slash := by
  cases names <;> simp [render]

theorem render_ne_nil : render names ≠ [] := by
  cases names <;> simp [render]

/-- A name makes the path longer, by itself and by a slash unless there was nothing but a slash. -/
theorem render_long (valid : ∀ name ∈ names, name.Valid) : 1 < (render names).length ↔ names ≠ [] := by
  cases names with
  | nil => simp [render]
  | cons name rest =>
    have some := List.length_pos_iff.mpr (valid name (by simp)).some
    simp [render]
    omega

/-- The names of a path are taken out of it as they were put in. -/
theorem components_render (valid : ∀ name ∈ names, name.Valid) : components (render names) = names := by
  induction names using List.reverseRecOn with
  | nil => rfl
  | append_singleton front last ih =>
    have ends := valid last (by simp)
    have tail : components last = [last] := Vfs.components_plain ends.plain ends.some
    by_cases none : front = []
    · subst none
      rw [List.nil_append, render_one]
      exact (Vfs.components_append_slash [] last).trans tail
    · rw [render_concat none, Vfs.components_append_slash, tail,
        ih fun name member => valid name (by simp [member])]

end Render

section StepUp

variable {name : Name} {names : List Name}

/-- Going back ends behind the last slash. -/
theorem stepBack_name (front : List UInt8) (plain : slash ∉ name) {n : Nat} (short : n ≤ name.length) :
    stepBack (front ++ slash :: name) (front.length + 1 + n) = front.length + 1 := by
  -- Induction on the bytes of the name that are still to be passed.
  induction n with
  | zero =>
    cases size : front.length with
    | zero => rfl
    | succ m =>
      have here : (front ++ slash :: name).getD (m + 1) 0 = slash := by simp [List.getD, ← size]
      rw [Nat.add_zero, stepBack, if_pos here]
  | succ n ih =>
    have byte : (front ++ slash :: name).getD (front.length + n + 1) 0 ≠ slash := by
      have inside : n < name.length := short
      have is : (front ++ slash :: name).getD (front.length + n + 1) 0 = name[n] := by
        rw [Nat.add_assoc, List.getD, List.getElem?_append_right (Nat.le_add_right ..), Nat.add_sub_cancel_left]
        simp [inside]
      rw [is]
      exact fun same => plain (same ▸ List.getElem_mem inside)
    rw [show front.length + 1 + (n + 1) = front.length + n + 2 by omega, stepBack, if_neg byte,
      show front.length + n + 1 = front.length + 1 + n by omega]
    exact ih (Nat.le_of_succ_le short)

/-- Without its last name, a path is the path of the other names. -/
theorem stepUp_render (valid : ∀ n ∈ names ++ [name], n.Valid) : stepUp (render (names ++ [name])) = render names := by
  have plain := (valid name (by simp)).plain
  unfold stepUp
  by_cases none : names = []
  · subst none
    have back := stepBack_name [] plain (Nat.le_refl _)
    simp only [List.nil_append, render_one, List.length_nil, Nat.zero_add] at back ⊢
    rw [List.length_cons, Nat.add_comm, back]
    rfl
  · have back := stepBack_name (render names) plain (Nat.le_refl _)
    have some : 1 ≤ (render names).length := List.length_pos_iff.mpr render_ne_nil
    have size : (render (names ++ [name])).length = (render names).length + 1 + name.length := by
      rw [render_concat none, List.length_append, List.length_cons]
      omega
    rw [size, render_concat none, back]
    dsimp only
    rw [if_pos (by omega), Nat.add_sub_cancel, List.take_left]

end StepUp

section Simplify

variable {names : List Name} {name : Name} {out : List UInt8}

/-- What one more name does to the names so far. -/
def simplifyName (names : List Name) (name : Name) : List Name :=
  if name = [dot] then names
  else if name = [dot, dot] then names.dropLast
  else names ++ [name]

theorem simplifyName_valid (valid : ∀ n ∈ names, n.Valid) (some : name ≠ []) (plain : slash ∉ name) :
    ∀ n ∈ simplifyName names name, n.Valid := by
  intro n member
  unfold simplifyName at member
  split_ifs at member with isDot isDots
  · exact valid n member
  · exact valid n (List.mem_of_mem_dropLast member)
  · rcases List.mem_append.mp member with old | new
    · exact valid n old
    · rw [List.mem_singleton.mp new]
      exact ⟨some, plain, by simp [Name.isDot, isDot, isDots]⟩

/-- Where the slash before a further name goes. -/
theorem render_append : render (names ++ [name]) = render names ++ (if names = [] then [] else [slash]) ++ name := by
  by_cases none : names = []
  · simp [none, render]
  · simp [none, render_concat none]

theorem render_dropLast_le : (render names.dropLast).length ≤ (render names).length := by
  by_cases none : names = []
  · simp [none]
  · rw [← List.dropLast_append_getLast none, List.dropLast_concat, render_append, List.append_assoc, List.length_append]
    exact Nat.le_add_right ..

/-- The bytes follow the names; a path that would be too long is refused. -/
theorem resolveName_render (valid : ∀ n ∈ names, n.Valid) (bound : (render names).length ≤ Vfs.maxPathBytes) :
    resolveName (render names) name =
      if (render (simplifyName names name)).length ≤ Vfs.maxPathBytes then some (render (simplifyName names name))
      else none := by
  unfold resolveName simplifyName
  by_cases isDot : name = [dot]
  · rw [if_pos isDot, if_pos isDot, if_pos bound]
  rw [if_neg isDot, if_neg isDot]
  by_cases isDots : name = [dot, dot]
  · rw [if_pos isDots, if_pos isDots, if_pos (le_trans render_dropLast_le bound)]
    by_cases none : names = []
    · subst none
      rfl
    · -- There is a name to go back over.
      rw [if_pos ((render_long valid).mpr none)]
      obtain ⟨front, last, rfl⟩ : ∃ front last, names = front ++ [last] :=
        ⟨names.dropLast, names.getLast none, (List.dropLast_append_getLast none).symm⟩
      rw [stepUp_render valid, List.dropLast_concat]
  · rw [if_neg isDots, if_neg isDots, render_append]
    by_cases none : names = []
    · subst none
      simp only [show render [] = [slash] from rfl, List.length_singleton, Nat.lt_irrefl, decide_false, Bool.toNat_false,
        Nat.add_zero, if_true, List.append_nil, Bool.false_eq_true, if_false, List.length_append]
      split_ifs <;> first | rfl | omega
    · simp only [(render_long valid).mpr none, decide_true, Bool.toNat_true, none, if_false, if_true,
        List.length_append, List.length_singleton]
      split_ifs <;> first | rfl | omega

/-- So do they over many names, as long as the path does not get too long on the way. -/
theorem foldlM_resolveName {given : List Name} (valid : ∀ n ∈ names, n.Valid)
    (bound : (render names).length ≤ Vfs.maxPathBytes) (parts : ∀ n ∈ given, n ≠ [] ∧ slash ∉ n)
    (resolved : given.foldlM resolveName (render names) = some out) :
    (∀ n ∈ given.foldl simplifyName names, n.Valid) ∧ out = render (given.foldl simplifyName names) ∧
      out.length ≤ Vfs.maxPathBytes := by
  induction given generalizing names with
  | nil =>
    cases resolved
    exact ⟨valid, rfl, bound⟩
  | cons name rest ih =>
    rw [List.foldlM_cons, resolveName_render valid bound] at resolved
    split_ifs at resolved with fits
    · have part := parts name (by simp)
      exact ih (simplifyName_valid valid part.1 part.2) fits (fun n member => parts n (by simp [member])) resolved
    · cases resolved

/-- A path of such names resolves to itself. -/
theorem foldlM_render (names front : List Name) (valid : ∀ n ∈ names ++ front, n.Valid)
    (bound : (render (names ++ front)).length ≤ Vfs.maxPathBytes) :
    front.foldlM resolveName (render names) = some (render (names ++ front)) := by
  induction front generalizing names with
  | nil => simp
  | cons name rest ih =>
    have ne := Vfs.Name.ne_of_isDot (valid name (by simp)).notDot
    have shape : names ++ name :: rest = (names ++ [name]) ++ rest := by simp
    have grows : ∀ front rest : List Name, (render front).length ≤ (render (front ++ rest)).length := by
      intro front rest
      induction rest using List.reverseRecOn with
      | nil => simp
      | append_singleton rest last ih =>
        rw [← List.append_assoc, render_append, List.append_assoc, List.length_append]
        omega
    have step : simplifyName names name = names ++ [name] := by rw [simplifyName, if_neg ne.1, if_neg ne.2]
    rw [shape] at valid bound ⊢
    have now : (render (names ++ [name])).length ≤ Vfs.maxPathBytes := le_trans (grows _ _) bound
    rw [List.foldlM_cons, resolveName_render (fun n member => valid n (by simp [member])) (le_trans (grows _ _) now),
      step, if_pos now]
    exact ih _ valid bound

end Simplify

section Walk

variable {names given : List Name} {name : Name} {fs : Ramfs} {i cur : Nat}

/-- In a tree, the directory of the last name is where one step up leads. -/
theorem walkNames_dropLast (tree : fs.Tree) (valid : ∀ n ∈ names, n.Valid)
    (walked : fs.walkNames rootIno names = .ok cur) : fs.walkNames rootIno names.dropLast = .ok (fs.up cur) := by
  induction names using List.reverseRecOn with
  | nil =>
    -- One step up from the root is the root.
    cases walked
    have top : fs.up rootIno = rootIno := by
      unfold Ramfs.up Ramfs.inode
      split_ifs with there
      · exact (tree.root there.2).2
      · rfl
    rw [top]
    rfl
  | append_singleton front last _ =>
    obtain ⟨dir, above, step⟩ := Vfs.walkNames_append_ok.mp walked
    obtain ⟨next, found, done⟩ := Vfs.walkNames_cons_ok.mp step
    cases done
    rcases Vfs.walkName_ok.mp found with ⟨isDot, -⟩ | ⟨isDots, -⟩ | ⟨-, found⟩
    · exact absurd isDot (Vfs.Name.ne_of_isDot (valid last (by simp)).notDot).1
    · exact absurd isDots (Vfs.Name.ne_of_isDot (valid last (by simp)).notDot).2
    · obtain ⟨j, entry, here, -, rfl⟩ := Vfs.lookup_some found
      have up : fs.up (fs.dirents j).child = dir := by
        rw [Ramfs.up, Ramfs.inode, if_pos ⟨tree.small j entry, tree.used j entry⟩]
        exact (tree.above j entry).trans here
      rw [List.dropLast_concat, up]
      exact above

/-- A walk along names and one more leads where the simplified names lead. -/
theorem walk_simplifyName (tree : fs.Tree) (valid : ∀ n ∈ names, n.Valid)
    (walked : fs.walkNames rootIno names = .ok cur) (step : fs.walkName cur name = .ok i) :
    fs.walkNames rootIno (simplifyName names name) = .ok i := by
  unfold simplifyName
  rcases Vfs.walkName_ok.mp step with ⟨isDot, rfl⟩ | ⟨isDots, rfl⟩ | ⟨plain, found⟩
  · rw [if_pos isDot]
    exact walked
  · subst isDots
    rw [if_neg (by decide), if_pos rfl]
    exact walkNames_dropLast tree valid walked
  · have ne := Vfs.Name.ne_of_isDot plain
    rw [if_neg ne.1, if_neg ne.2]
    exact Vfs.walkNames_append_ok.mpr ⟨cur, walked, Vfs.walkNames_cons_ok.mpr ⟨i, step, rfl⟩⟩

theorem walk_simplified (tree : fs.Tree) (valid : ∀ n ∈ names, n.Valid) (parts : ∀ n ∈ given, n ≠ [] ∧ slash ∉ n)
    (walked : fs.walkNames rootIno names = .ok cur) (rest : fs.walkNames cur given = .ok i) :
    fs.walkNames rootIno (given.foldl simplifyName names) = .ok i := by
  -- Induction along the given names, with the names so far as the path to where the walk is.
  induction given generalizing names cur with
  | nil =>
    cases rest
    exact walked
  | cons name given ih =>
    obtain ⟨next, step, later⟩ := Vfs.walkNames_cons_ok.mp rest
    have part := parts name (by simp)
    exact ih (simplifyName_valid valid part.1 part.2) (fun n member => parts n (by simp [member]))
      (walk_simplifyName tree valid walked step) later

end Walk

/--
The path a process gives, from a working directory that is normalised, is resolved to a normalised path.

That path fits, resolves to itself, and leads to the inode the given path leads to. A path that starts with a slash is
resolved so from any working directory.
-/
theorem resolved_path_normalised {cwd path out : List UInt8} (usable : path.head? = some slash ∨ Normalised cwd)
    (resolved : resolveChildPath cwd path = some out) :
    Normalised out ∧ out.length ≤ Vfs.maxPathBytes ∧ (∀ other, resolveChildPath other out = some out) ∧
      ∀ fs : Ramfs, fs.Tree → ∀ i,
        fs.walk (if path.head? = some slash then path else cwd ++ slash :: path) = .ok i → fs.walk out = .ok i := by
  have parts : ∀ n ∈ components path, n ≠ [] ∧ slash ∉ n := Vfs.componentsFrom_plain_names (by simp)
  -- Either way the resolution starts from a path of valid names, which the given path goes on from.
  obtain ⟨names, valid, bound, fold, given⟩ : ∃ names : List Name, (∀ n ∈ names, n.Valid) ∧
      (render names).length ≤ Vfs.maxPathBytes ∧ (components path).foldlM resolveName (render names) = some out ∧
      components (if path.head? = some slash then path else cwd ++ slash :: path) = names ++ components path := by
    unfold resolveChildPath at resolved
    split_ifs at resolved with empty absolute unusable
    · exact ⟨[], nofun, by decide, resolved, by rw [if_pos absolute]; rfl⟩
    · obtain ⟨names, valid, rfl⟩ := usable.resolve_left absolute
      refine ⟨names, valid, Nat.le_of_not_lt fun long => unusable (.inr long), resolved, ?_⟩
      rw [if_neg absolute, Vfs.components_append_slash, components_render valid]
  obtain ⟨kept, rfl, fits⟩ := foldlM_resolveName valid bound parts fold
  refine ⟨⟨_, kept, rfl⟩, fits, fun other => ?_, fun fs tree i walked => ?_⟩
  · rw [resolveChildPath, if_neg render_ne_nil, if_pos render_head, components_render kept]
    exact foldlM_render [] _ kept fits
  · have led := (Vfs.walk_ok.mp walked).2
    rw [given] at led
    obtain ⟨cur, front, rest⟩ := Vfs.walkNames_append_ok.mp led
    rw [Vfs.walk_eq render_ne_nil, components_render kept]
    exact walk_simplified tree valid parts front rest

/-- From the root, up and down again. -/
theorem resolved_path_normalised_sample :
    resolveChildPath [slash] [0x61, slash, slash, dot, dot, slash, 0x62, slash] = some [slash, 0x62] ∧
      Normalised [slash, 0x62] :=
  have resolved : resolveChildPath [slash] [0x61, slash, slash, dot, dot, slash, 0x62, slash] = some [slash, 0x62] := by
    decide
  ⟨resolved, (resolved_path_normalised (.inr ⟨[], nofun, rfl⟩) resolved).1⟩

/-- A working directory that is not normalised is taken over as it is. -/
theorem unnormalised_directory_kept :
    resolveChildPath [slash, 0x61, slash, dot] [dot] = some [slash, 0x61, slash, dot] ∧
      ¬ Normalised [slash, 0x61, slash, dot] := by
  refine ⟨by decide, fun ⟨names, valid, is⟩ => ?_⟩
  have parts : components [slash, 0x61, slash, dot] = names := is ▸ components_render valid
  have last : [dot] ∈ names := parts ▸ (by decide)
  exact absurd (valid [dot] last).notDot (by decide)

end Rel4.Host
