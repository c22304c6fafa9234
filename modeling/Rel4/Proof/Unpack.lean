import Rel4.Proof.WriteFails
import Rel4.Vfs.Cpio

/-! Unpacking an archive is safe for all bytes, and puts entries in place one by one. -/

namespace Rel4.Vfs

open Lib

variable {blob bytes front path : List UInt8} {fs fs' : Ramfs} {off n m inum k parent : Nat} {name : Name}
  {q q₀ : List Name} {kind : FileKind}

section Safe

theorem le_align4 (n : Nat) : n ≤ align4 n := by
  unfold align4
  omega

/-- A header that ends inside the archive is read without a panic, and what it says lies inside. -/
theorem readHeader_ok (room : off + headerLen ≤ blob.length) :
    ∃ result, readHeader blob off = .ok result ∧ ∀ header, result = some header →
      off + headerLen ≤ header.dataOff ∧ header.dataOff + header.filesize ≤ blob.length := by
  unfold headerLen at room
  unfold readHeader
  rw [slice_ok (by omega) (by omega), slice_ok (by omega) (by omega), slice_ok (by omega) (by omega),
    slice_ok (by omega) (by omega)]
  simp only [bind, Except.bind, pure, Except.pure]
  split
  · exact ⟨none, rfl, by simp⟩
  split
  rotate_left
  · exact ⟨none, rfl, by simp⟩
  split
  rotate_left
  · exact ⟨none, rfl, by simp⟩
  split
  rotate_left
  · exact ⟨none, rfl, by simp⟩
  split
  · exact ⟨none, rfl, by simp⟩
  rename_i mode _ filesize _ namesize _ fits
  rw [slice_ok (by omega) (by omega)]
  dsimp only
  split
  · exact ⟨none, rfl, by simp⟩
  rename_i inside
  refine ⟨_, rfl, fun header same => ?_⟩
  cases same
  have := le_align4 (off + headerLen + namesize)
  exact ⟨by dsimp only; omega, by dsimp only; omega⟩

/-- What was attempted has only put something in place, whatever came of it. -/
theorem embedDir_builds (blob : List UInt8) (sound : fs.Sound) :
    wp (attempt (embedDir path)) (fun _ fs' => fs.Builds (InArchive blob) fs') (fun _ _ => False) fs := by
  rw [wp_attempt]
  refine wp_mono (ensureDir_spec sound.tree) (fun _ _ made => made.builds) ?_
  rintro stop fs' ⟨⟨rfl, e, rfl⟩, -⟩
  exact .refl

theorem embedFile_builds {offset len : Nat} (sound : fs.Sound) (inside : offset + len ≤ blob.length) :
    wp (attempt (embedFile path offset len)) (fun _ fs' => fs.Builds (InArchive blob) fs')
      (fun _ _ => False) fs := by
  rw [wp_attempt]
  refine wp_mono (embedFile_spec sound.tree offset len) ?_ ?_
  · rintro inum fs' (⟨rfl, -⟩ | ⟨made, k, parent, name, makes, rfl⟩)
    · exact .refl
    · refine makes.builds.tail (.embedded ?_ ?_ inside) <;>
        rw [makes.made, created_inodes makes.creates.apart, if_pos rfl]
  · rintro stop fs' ⟨⟨rfl, e, rfl⟩, -⟩
    exact .refl

theorem ensureParentsFrom_builds (blob : List UInt8) (sound : fs.Sound) (front rest : List UInt8) :
    wp (ensureParentsFrom front rest) (fun _ fs' => fs.Builds (InArchive blob) fs') (fun _ _ => False)
      fs := by
  induction rest generalizing fs front with
  | nil => exact .refl
  | cons byte rest ih =>
    simp only [ensureParentsFrom, wp_bind, wp_ite]
    refine ⟨fun _ => ?_, fun _ => ih sound _⟩
    refine wp_mono (embedDir_builds blob sound) (fun _ mid builds => ?_) fun _ _ => id
    refine wp_mono (ih (sound.moves builds.moves) _) (fun _ _ more => builds.trans more) fun _ _ => id

theorem unpackEntry_builds (sound : fs.Sound) (header : Header)
    (inside : header.dataOff + header.filesize ≤ blob.length) :
    wp (unpackEntry header) (fun _ fs' => fs.Builds (InArchive blob) fs') (fun _ _ => False) fs := by
  unfold unpackEntry ensureParents
  simp only [wp_bind, wp_ite, wp_pure]
  refine ⟨fun _ => .refl, fun _ => ?_⟩
  refine wp_mono (ensureParentsFrom_builds blob sound _ _) (fun _ mid builds => ?_) fun _ _ => id
  have sound' := sound.moves builds.moves
  refine ⟨fun _ => ?_, fun _ => ⟨fun _ => ?_, fun _ => builds⟩⟩
  · exact wp_mono (embedDir_builds blob sound') (fun _ _ more => builds.trans more) fun _ _ => id
  · exact wp_mono (embedFile_builds sound' inside) (fun _ _ more => builds.trans more) fun _ _ => id

/-- Every entry moves the loop on by its header at least, so it comes to an end. -/
theorem unpackFrom_builds (sound : fs.Sound) (fuel off : Nat) (some : 0 < fuel)
    (enough : blob.length < off + fuel) :
    wp (unpackFrom blob fuel off) (fun _ fs' => fs.Builds (InArchive blob) fs') (fun _ _ => False) fs := by
  induction fuel generalizing fs off with
  | zero => exact absurd some (Nat.lt_irrefl 0)
  | succ fuel ih =>
    simp only [unpackFrom, wp_ite, wp_pure]
    refine ⟨fun room => ?_, fun _ => .refl⟩
    obtain ⟨result, read, bounds⟩ := readHeader_ok room
    rw [read]
    cases result with
    | none => exact .refl
    | some header =>
      obtain ⟨after, inside⟩ := bounds header rfl
      simp only [wp_ite, wp_bind, wp_pure]
      refine ⟨fun _ => .refl, fun _ => ?_⟩
      refine wp_mono (unpackEntry_builds sound header inside) (fun more mid builds => ?_) fun _ _ => id
      have later := le_align4 (header.dataOff + header.filesize)
      refine ⟨fun _ => builds, fun _ => ?_⟩
      unfold headerLen at after room
      exact wp_mono (ih (sound.moves builds.moves) _ (by omega) (by omega))
        (fun _ _ rest => builds.trans rest) fun _ _ => id

/-- Whatever its bytes are, the archive is unpacked to the end, and files lie inside it. -/
theorem unpack_builds (sound : fs.Sound) :
    ∃ whole fs', unpack blob fs = .ok whole fs' ∧ fs.Builds (InArchive blob) fs' :=
  exists_ok_of_wp (unpackFrom_builds sound (blob.length + 1) 0 (by omega) (by omega))

end Safe

section Plain

/-- Names that only lead down. -/
def Plain (q : List Name) : Prop := ∀ c ∈ q, Name.isDot c = false

theorem Plain.of_append {rest : List Name} (plain : Plain (q ++ rest)) : Plain q := fun c member =>
  plain c (List.mem_append_left _ member)

theorem walkNames_snoc (plain : name.isDot = false) :
    fs.walkNames rootIno (q ++ [name]) = .ok n ↔
      ∃ dir, fs.walkNames rootIno q = .ok dir ∧ fs.lookup dir name = some n := by
  rw [walkNames_append_ok]
  refine exists_congr fun dir => and_congr_right fun _ => ?_
  rw [walkNames_cons_ok]
  constructor
  · rintro ⟨next, step, walked⟩
    cases walked
    rw [walkName_plain plain] at step
    cases found : fs.lookup dir name with
    | none => simp [found] at step
    | some child => simpa [found] using step
  · intro found
    refine ⟨n, ?_, walkNames_nil⟩
    rw [walkName_plain plain, found]
    rfl

/-- There is one way down to every inode. -/
theorem Ramfs.Tree.path_unique (tree : fs.Tree) {q q' : List Name} (plain : Plain q) (plain' : Plain q')
    (walked : fs.walkNames rootIno q = .ok n) (walked' : fs.walkNames rootIno q' = .ok n) : q = q' := by
  induction q using List.reverseRecOn generalizing q' n with
  | nil =>
    cases walked
    -- No entry leads to the root.
    cases q' using List.reverseRecOn with
    | nil => rfl
    | append_singleton q' c =>
      obtain ⟨dir, -, found⟩ := (walkNames_snoc (plain' c (by simp))).mp walked'
      obtain ⟨i, entry, -, -, child⟩ := lookup_some found
      exact absurd child (tree.top i entry)
  | append_singleton q c ih =>
    obtain ⟨dir, above, found⟩ := (walkNames_snoc (plain c (by simp))).mp walked
    obtain ⟨i, entry, here, named, child⟩ := lookup_some found
    cases q' using List.reverseRecOn with
    | nil =>
      cases walked'
      exact absurd child (tree.top i entry)
    | append_singleton q' c' =>
      obtain ⟨dir', above', found'⟩ := (walkNames_snoc (plain' c' (by simp))).mp walked'
      obtain ⟨j, entry', here', named', child'⟩ := lookup_some found'
      obtain rfl := tree.single i j entry entry' (child.trans child'.symm)
      obtain rfl : dir = dir' := here.symm.trans here'
      obtain rfl : c = c' := named.symm.trans named'
      rw [ih plain.of_append plain'.of_append above above']

/-- A new inode is at the end of its own path, and all other paths are as before. -/
theorem Ramfs.Creates.walkNames_plain (tree : fs.Tree) (creates : fs.Creates inum k parent name)
    (plain : Plain q₀) (above : fs.walkNames rootIno q₀ = .ok parent) (plain' : Plain q) :
    (fs.created inum k parent name kind).walkNames rootIno q = .ok m ↔
      fs.walkNames rootIno q = .ok m ∨ q = q₀ ++ [name] ∧ m = inum := by
  have notDot := creates.valid.notDot
  have nothing (c) : fs.lookup inum c = none := by
    cases found : fs.lookup inum c with
    | none => rfl
    | some child =>
      obtain ⟨i, entry, here, -⟩ := lookup_some found
      have used := (here ▸ tree.dir i entry).used
      cases creates.fresh.symm.trans used
  induction q using List.reverseRecOn generalizing m with
  | nil => simp
  | append_singleton q c ih =>
    have isPlain := plain' c (by simp)
    rw [walkNames_snoc isPlain, walkNames_snoc isPlain]
    constructor
    · rintro ⟨dir, walked, found⟩
      rw [creates.lookup tree] at found
      rcases (ih plain'.of_append).mp walked with old | ⟨-, rfl⟩
      · split_ifs at found with here
        · obtain ⟨rfl, rfl⟩ := here
          cases found
          rw [tree.path_unique plain'.of_append plain old above]
          exact .inr ⟨rfl, rfl⟩
        · exact .inl ⟨dir, old, found⟩
      · rw [if_neg fun here => creates.apart here.1, nothing] at found
        cases found
    · rintro (⟨dir, old, found⟩ | ⟨same, rfl⟩)
      · refine ⟨dir, (ih plain'.of_append).mpr (.inl old), ?_⟩
        rw [creates.lookup tree, if_neg, found]
        rintro ⟨rfl, rfl⟩
        rw [creates.absent] at found
        cases found
      · obtain ⟨rfl, rfl⟩ : q = q₀ ∧ c = name := by
          obtain ⟨first, last⟩ := List.append_inj' same rfl
          exact ⟨first, by simpa using last⟩
        refine ⟨parent, (ih plain).mpr (.inl above), ?_⟩
        rw [creates.lookup tree, if_pos ⟨rfl, rfl⟩]

/-- How many inodes are in use. -/
def Ramfs.usedCount (fs : Ramfs) : Nat := (List.range maxInodes).countP fun n => (fs.inodes n).used

theorem usedCount_created (creates : fs.Creates inum k parent name) :
    (fs.created inum k parent name kind).usedCount = fs.usedCount + 1 := by
  have general (list : List Nat) (nodup : list.Nodup) :
      list.countP (fun n => ((fs.created inum k parent name kind).inodes n).used) =
        list.countP (fun n => (fs.inodes n).used) + if inum ∈ list then 1 else 0 := by
    induction list with
    | nil => rfl
    | cons a list ih =>
      have ⟨notIn, rest⟩ := List.nodup_cons.mp nodup
      rw [List.countP_cons, List.countP_cons, ih rest]
      by_cases here : a = inum
      · subst here
        rw [created_inodes creates.apart, if_pos rfl]
        simp [creates.fresh, notIn]
      · rw [creates.used_of_ne here]
        simp only [List.mem_cons, Ne.symm here, false_or]
        omega
  have := general (List.range maxInodes) List.nodup_range
  rwa [if_pos (List.mem_range.mpr creates.small)] at this

/-- While not all inodes are in use, one can be taken; the first slot does not count. -/
theorem freeInode_of_count (room : fs.usedCount + 1 < maxInodes) : ∃ inum, fs.freeInode = some inum := by
  cases free : fs.freeInode with
  | some inum => exact ⟨inum, rfl⟩
  | none =>
    have all : ∀ n ∈ List.range' 1 (maxInodes - 1), (fs.inodes n).used = true := fun n member => by
      simpa using List.find?_eq_none.mp free n member
    have split : List.range maxInodes = 0 :: List.range' 1 (maxInodes - 1) := by
      unfold maxInodes
      rw [List.range_eq_range', List.range'_succ]
    unfold Ramfs.usedCount at room
    rw [split, List.countP_cons, List.countP_eq_length.mpr all, List.length_range'] at room
    omega

end Plain

section Built

/-- What stands at a path: a directory, or a file with its part of the archive. -/
abbrev What := Option (Nat × Nat)

def Ramfs.Is (fs : Ramfs) (n : Nat) : What → Prop
  | none => fs.IsDir n
  | some (off, len) => n < maxInodes ∧ (fs.inodes n).used = true ∧ (fs.inodes n).kind = .file ∧
      (fs.inodes n).size = len ∧ (fs.inodes n).src = .embedded off len

variable {P : List (List Name)} {made : List (List Name × What)} {what : What}

/-- The file system has been built from paths of a list that fits it: below the root there are these
paths and no others. -/
structure Built (P : List (List Name)) (made : List (List Name × What)) (fs : Ramfs) : Prop where
  fits : P.length + 2 ≤ maxInodes
  sound : fs.Sound
  root : fs.IsDir rootIno
  nodup : (made.map Prod.fst).Nodup
  listed : ∀ q what, (q, what) ∈ made → q ∈ P
  count : fs.usedCount = made.length + 1
  walks : ∀ q n, Plain q → fs.walkNames rootIno q = .ok n → q = [] ∨ ∃ what, (q, what) ∈ made
  known : ∀ q what, (q, what) ∈ made → Plain q ∧ ∃ n, fs.walkNames rootIno q = .ok n ∧ fs.Is n what

theorem boot_built (fits : P.length + 2 ≤ maxInodes) (fs : Ramfs) : Built P [] fs.boot := by
  have root : fs.boot.IsDir rootIno := ⟨by decide, rfl, rfl⟩
  refine ⟨fits, boot_sound fs, root, List.nodup_nil, by simp, ?_, fun q n plain walked => .inl ?_, by simp⟩
  · have only (n : Nat) : (fs.boot.inodes n).used = decide (n = rootIno) := by
      simp only [Ramfs.boot, Ramfs.initRoot, updInode_inodes]
      split_ifs with here <;> simp [here, Ramfs.reset]
    unfold Ramfs.usedCount
    simp only [only]
    decide +kernel
  · cases q using List.reverseRecOn with
    | nil => rfl
    | append_singleton q c =>
      obtain ⟨dir, -, found⟩ := (walkNames_snoc (plain c (by simp))).mp walked
      obtain ⟨i, entry, -⟩ := lookup_some found
      exact absurd entry.2 Bool.false_ne_true

theorem Ramfs.Is.keeps (is : fs.Is n what) (keeps : fs.Keeps fs' n) (used : (fs'.inodes n).used = true) :
    fs'.Is n what := by
  cases what with
  | none => exact ⟨is.small, used, keeps.kind.trans is.kind⟩
  | some part =>
    obtain ⟨small, -, kind, size, src⟩ := is
    exact ⟨small, used, keeps.kind.trans kind, keeps.size.trans size, keeps.src.trans src⟩

theorem Ramfs.Is.used (is : fs.Is n what) : (fs.inodes n).used = true := by
  cases what with
  | none => exact IsDir.used is
  | some part => exact is.2.1

/-- A path that is not there yet has no entry to end with. -/
theorem Built.absent (built : Built P made fs) (plain : Plain (q₀ ++ [name]))
    (above : fs.walkNames rootIno q₀ = .ok parent) :
    fs.lookup parent name = none ↔ ∀ what, (q₀ ++ [name], what) ∉ made := by
  have notDot := plain name (by simp)
  constructor
  · intro absent what member
    obtain ⟨-, n, walked, -⟩ := built.known _ what member
    obtain ⟨dir, above', found⟩ := (walkNames_snoc notDot).mp walked
    cases above.symm.trans above'
    rw [absent] at found
    cases found
  · intro notMade
    cases found : fs.lookup parent name with
    | none => rfl
    | some n =>
      rcases built.walks _ n plain ((walkNames_snoc notDot).mpr ⟨parent, above, found⟩) with none | ⟨what, member⟩
      · simp at none
      · exact absurd member (notMade what)

/-- As long as not all paths are there, there is an inode for the next one. -/
theorem Built.room (built : Built P made fs) (listed : q ∈ P) (new : ∀ what, (q, what) ∉ made) :
    fs.usedCount + 1 < maxInodes := by
  have nodup : (q :: made.map Prod.fst).Nodup := by
    refine List.nodup_cons.mpr ⟨fun member => ?_, built.nodup⟩
    obtain ⟨⟨q', what⟩, there, rfl⟩ := List.mem_map.mp member
    exact new what there
  have sub : (q :: made.map Prod.fst) ⊆ P := by
    intro r member
    rcases List.mem_cons.mp member with rfl | member
    · exact listed
    · obtain ⟨⟨q', what⟩, there, rfl⟩ := List.mem_map.mp member
      exact built.listed q' what there
  have length := (nodup.subperm sub).length_le
  rw [List.length_cons, List.length_map] at length
  have := built.fits
  have := built.count
  omega

/-- One path more. -/
theorem Built.add (built : Built P made fs) (listed : q₀ ++ [name] ∈ P) (plain : Plain q₀)
    (above : fs.walkNames rootIno q₀ = .ok parent) (creates : fs.Creates inum k parent name)
    (same : (fs.created inum k parent name kind).SameTree fs') (sound : fs'.Sound)
    (keeps : ∀ n, (fs.inodes n).used = true → fs.Keeps fs' n) (new : fs'.Is inum what) :
    Built P ((q₀ ++ [name], what) :: made) fs' := by
  have tree := built.sound.tree
  have plain' : Plain (q₀ ++ [name]) := by
    intro c member
    rcases List.mem_append.mp member with first | last
    · exact plain c first
    · rw [List.mem_singleton.mp last]
      exact creates.valid.notDot
  have notMade := (built.absent plain' above).mp creates.absent
  have used (n) (old : (fs.inodes n).used = true) : (fs'.inodes n).used = true := by
    have other : n ≠ inum := by
      rintro rfl
      cases creates.fresh.symm.trans old
    rw [same.used, creates.used_of_ne other]
    exact old
  have walk (q) (isPlain : Plain q) (m) : fs'.walkNames rootIno q = .ok m ↔
      fs.walkNames rootIno q = .ok m ∨ q = q₀ ++ [name] ∧ m = inum := by
    have created : (fs.created inum k parent name kind).walkNames rootIno q = .ok m ↔ _ :=
      creates.walkNames_plain tree plain above isPlain
    rw [← created]
    simp only [Ramfs.walkNames, same.walkName]
  refine ⟨built.fits, sound, ?_, ?_, ?_, ?_, ?_, ?_⟩
  · exact (show fs.Is rootIno none from built.root).keeps (keeps _ built.root.used) (used _ built.root.used)
  · refine List.nodup_cons.mpr ⟨fun member => ?_, built.nodup⟩
    obtain ⟨⟨q', what'⟩, there, here⟩ := List.mem_map.mp member
    simp only at here
    exact notMade what' (here ▸ there)
  · intro q what' member
    rcases List.mem_cons.mp member with here | there
    · cases here
      exact listed
    · exact built.listed q what' there
  · have count : (fs.created inum k parent name kind).usedCount = fs.usedCount + 1 :=
      usedCount_created creates
    rw [built.count] at count
    simp only [Ramfs.usedCount, same.used] at count ⊢
    rw [count, List.length_cons]
  · intro q n isPlain walked
    rcases (walk q isPlain n).mp walked with old | ⟨rfl, -⟩
    · rcases built.walks q n isPlain old with none | ⟨what', member⟩
      · exact .inl none
      · exact .inr ⟨what', List.mem_cons_of_mem _ member⟩
    · exact .inr ⟨what, List.mem_cons_self⟩
  · intro q what' member
    rcases List.mem_cons.mp member with here | there
    · cases here
      exact ⟨plain', inum, (walk _ plain' inum).mpr (.inr ⟨rfl, rfl⟩), new⟩
    · obtain ⟨isPlain, n, walked, is⟩ := built.known q what' there
      exact ⟨isPlain, n, (walk q isPlain n).mpr (.inl walked), is.keeps (keeps n is.used) (used n is.used)⟩

end Built

section Spelling

/-- Names that lead to a plain path, with or without a dot in front. -/
def Spells (names q : List Name) : Prop := names = q ∨ names = [dot] :: q

variable {names rest : List Name} {P : List (List Name)} {made made' : List (List Name × What)}

theorem Spells.walkNames (spells : Spells names q) : fs.walkNames rootIno names = fs.walkNames rootIno q := by
  rcases spells with rfl | rfl
  · rfl
  · rw [walkNames_cons]
    rfl

theorem Spells.walk (spells : Spells (components path) q) (some : path ≠ []) :
    fs.walk path = fs.walkNames rootIno q := by
  rw [walk_eq some, spells.walkNames]

theorem Spells.unique {q' : List Name} (spells : Spells names q) (spells' : Spells names q')
    (plain : Plain q) (plain' : Plain q') : q = q' := by
  have notDot {r : List Name} : ¬ Plain ([dot] :: r) := fun isPlain =>
    absurd (isPlain [dot] (by simp)) (by decide)
  rcases spells with rfl | rfl <;> rcases spells' with same | same
  · exact same
  · exact absurd (same ▸ plain) notDot
  · exact absurd (same ▸ plain') notDot
  · exact (List.cons.inj same).2

/-- The first names of a path spell the beginning of it. -/
theorem Spells.beginning (spells : Spells (names ++ rest) q) : ∃ r s, Spells names r ∧ q = r ++ s := by
  rcases spells with rfl | dotted
  · exact ⟨names, rest, .inl rfl, rfl⟩
  · cases names with
    | nil => exact ⟨[], q, .inl rfl, rfl⟩
    | cons first names =>
      obtain ⟨rfl, rfl⟩ := List.cons.inj dotted
      exact ⟨names, rest, .inr rfl, rfl⟩

theorem Spells.dropLast {last : Name} (spells : Spells (names ++ [last]) (q ++ [name])) :
    Spells names q ∧ last = name := by
  rcases spells with same | same
  · obtain ⟨rfl, last⟩ := List.append_inj' same rfl
    exact ⟨.inl rfl, by simpa using last⟩
  · rw [← List.cons_append] at same
    obtain ⟨rfl, last⟩ := List.append_inj' same rfl
    exact ⟨.inr rfl, by simpa using last⟩

theorem Spells.splitParent (spells : Spells (components path) (q₀ ++ [name]))
    (above : fs.walkNames rootIno q₀ = .ok parent) : fs.splitParent path = some (parent, name) := by
  have trimmed : path.rdropWhile (· == slash) ≠ [] := by
    intro empty
    have none : components path = [] := components_slashes fun byte member => by
      simpa using List.rdropWhile_eq_nil_iff.mp empty byte member
    rw [none] at spells
    rcases spells with same | same <;> simp at same
  rw [components_split trimmed] at spells
  obtain ⟨front, last⟩ := spells.dropLast
  rw [splitParent_eq trimmed, front.walk (parentPath_ne_nil path), above, last]

/-- A directory that is there: the root, or one that was made. -/
def Stands (made : List (List Name × What)) (q : List Name) : Prop := q = [] ∨ (q, none) ∈ made

section

variable (built : Built P made fs)
include built

theorem Built.stands (stands : Stands made q) :
    ∃ n, fs.walkNames rootIno q = .ok n ∧ fs.IsDir n := by
  rcases stands with rfl | member
  · exact ⟨rootIno, rfl, built.root⟩
  · exact (built.known q none member).2

/-- Nothing stands in the way of a path whose directory is there. -/
theorem Built.canMake (spells : Spells (components path) (q₀ ++ [name]))
    (plain : Plain (q₀ ++ [name])) (listed : q₀ ++ [name] ∈ P) (some : path ≠ [])
    (length : 0 < name.length ∧ name.length ≤ nameMax) (above : Stands made q₀)
    (cannot : fs.CannotMake path) : ∃ what, (q₀ ++ [name], what) ∈ made := by
  obtain ⟨parent, walked, isDir⟩ := built.stands above
  have split := spells.splitParent walked
  by_contra new
  simp only [not_exists] at new
  rcases cannot with ⟨n, found⟩ | none | ⟨parent', name', split', empty | long | taken | notDir | full⟩
  · rw [spells.walk some] at found
    rcases built.walks _ n plain found with none | ⟨what, member⟩
    · simp at none
    · exact new what member
  · rw [split] at none
    cases none
  all_goals cases split.symm.trans split'
  · omega
  · omega
  · exact taken ((built.absent plain walked).mpr new)
  · exact notDir isDir
  · obtain ⟨inum, free⟩ := freeInode_of_count (built.room listed new)
    rw [full] at free
    cases free

theorem embedDir_stands (spells : Spells (components path) q) (some : path ≠ []) (stands : Stands made q) :
    wp (attempt (embedDir path)) (fun result fs' => result.toBool = true ∧ fs' = fs) (fun _ _ => False)
      fs := by
  obtain ⟨n, walked, isDir⟩ := built.stands stands
  rw [← spells.walk some] at walked
  rw [wp_attempt]
  refine wp_mono (ensureDir_spec built.sound.tree) ?_ ?_
  · rintro inum fs' (⟨same, -⟩ | ⟨k, parent, name, makes⟩)
    · exact ⟨rfl, same⟩
    · cases walked.symm.trans makes.missing
  · rintro stop fs' ⟨⟨rfl, e, rfl⟩, ⟨m, found, notDir⟩ | ⟨missing, -⟩⟩
    · cases walked.symm.trans found
      exact absurd isDir notDir
    · cases walked.symm.trans missing

theorem embedDir_built (spells : Spells (components path) (q₀ ++ [name]))
    (plain : Plain (q₀ ++ [name])) (listed : q₀ ++ [name] ∈ P) (some : path ≠ [])
    (length : 0 < name.length ∧ name.length ≤ nameMax) (above : Stands made q₀)
    (noFile : ∀ what, (q₀ ++ [name], what) ∈ made → what = none) :
    wp (attempt (embedDir path))
      (fun result fs' => result.toBool = true ∧ Built P (made.insert (q₀ ++ [name], none)) fs')
      (fun _ _ => False) fs := by
  by_cases there : (q₀ ++ [name], none) ∈ made
  · rw [List.insert_of_mem there]
    refine wp_mono (embedDir_stands built spells some (.inr there)) ?_ fun _ _ => id
    rintro result fs' ⟨good, rfl⟩
    exact ⟨good, built⟩
  rw [List.insert_of_not_mem there, wp_attempt]
  obtain ⟨parent, walked, isDir⟩ := built.stands above
  have new (what) : (q₀ ++ [name], what) ∉ made := fun member => there (noFile what member ▸ member)
  refine wp_mono (ensureDir_spec built.sound.tree) ?_ ?_
  · rintro inum fs' (⟨-, found, -⟩ | ⟨k, parent', name', makes⟩)
    · rw [spells.walk some] at found
      rcases built.walks _ inum plain found with none | ⟨what, member⟩
      · simp at none
      · exact absurd member (new what)
    · cases (spells.splitParent walked).symm.trans makes.above
      have moves : fs.Moves (InArchive []) fs' := makes.moves
      obtain rfl := makes.made
      refine ⟨rfl, built.add listed plain.of_append walked makes.creates (.refl _)
        (built.sound.moves moves) (fun n used => (makes.keeps used).1) ?_⟩
      refine ⟨makes.creates.small, ?_, ?_⟩ <;> rw [created_inodes makes.creates.apart, if_pos rfl]
  · rintro stop fs' ⟨⟨rfl, e, rfl⟩, ⟨n, found, -⟩ | ⟨-, cannot⟩⟩
    · rw [spells.walk some] at found
      rcases built.walks _ n plain found with none | ⟨what, member⟩
      · simp at none
      · exact absurd member (new what)
    · obtain ⟨what, member⟩ := built.canMake spells plain listed some length above cannot
      exact absurd member (new what)

theorem embedFile_built {len : Nat} (spells : Spells (components path) (q₀ ++ [name])) (plain : Plain (q₀ ++ [name]))
    (listed : q₀ ++ [name] ∈ P) (some : path ≠ []) (length : 0 < name.length ∧ name.length ≤ nameMax)
    (above : Stands made q₀) (new : ∀ what, (q₀ ++ [name], what) ∉ made) :
    wp (attempt (embedFile path off len))
      (fun result fs' => result.toBool = true ∧ Built P ((q₀ ++ [name], .some (off, len)) :: made) fs')
      (fun _ _ => False) fs := by
  rw [wp_attempt]
  obtain ⟨parent, walked, isDir⟩ := built.stands above
  refine wp_mono (embedFile_spec built.sound.tree off len) ?_ ?_
  · rintro inum fs' (⟨-, found⟩ | ⟨mid, k, parent', name', makes, rfl⟩)
    · rw [spells.walk some] at found
      rcases built.walks _ inum plain found with none | ⟨what, member⟩
      · simp at none
      · exact absurd member (new what)
    · cases (spells.splitParent walked).symm.trans makes.above
      have here : mid.inodes inum = { used := true, kind := .file, nlink := 1, parent } := by
        rw [makes.made, created_inodes makes.creates.apart, if_pos rfl]
        rfl
      have moves : fs.Moves (fun _ _ => True) (mid.embedded inum off len) :=
        makes.moves.tail (.embedded (by rw [here]) (by rw [here]) trivial)
      have same : (fs.created inum k parent name .file).SameTree (mid.embedded inum off len) := by
        rw [← makes.made]
        exact .updInode rfl rfl rfl
      refine ⟨rfl, built.add listed plain.of_append walked makes.creates same (built.sound.moves moves)
        (fun n used => ?_) ?_⟩
      · obtain ⟨keeps, -, other⟩ := makes.keeps used
        have node : (mid.embedded inum off len).inodes n = mid.inodes n := by
          simp [Ramfs.embedded, other]
        exact keeps.trans ⟨by rw [node], by rw [node], by rw [node], fun _ _ => rfl⟩
      · have node : (mid.embedded inum off len).inodes inum =
            { used := true, kind := .file, nlink := 1, parent, size := len, src := .embedded off len } := by
          simp [Ramfs.embedded, here]
        exact ⟨makes.creates.small, by rw [node], by rw [node], by rw [node], by rw [node]⟩
  · rintro stop fs' ⟨⟨rfl, e, rfl⟩, cannot⟩
    obtain ⟨what, member⟩ := built.canMake spells plain listed some length above cannot
    exact absurd member (new what)

end

/-- How far the directories on the way to a path have been made: up to what some bytes spell. -/
def Reaches (made : List (List Name × What)) (q : List Name) (bytes : List UInt8)
    (made' : List (List Name × What)) : Prop :=
  ∃ r s, Spells (components bytes) r ∧ q = r ++ s ∧ Stands made' r ∧ (∀ x ∈ made, x ∈ made') ∧
    ∀ x ∈ made', x ∈ made ∨ ∃ t, t <+: r ∧ t ≠ [] ∧ x = (t, none)

/-- What is needed of a path whose directories are to be made. -/
structure Way (P : List (List Name)) (made : List (List Name × What)) (q : List Name) : Prop where
  plain : Plain q
  listed : ∀ r, r <+: q → r ≠ [] → r ∈ P
  length : ∀ c ∈ q, 0 < c.length ∧ c.length ≤ nameMax
  noFile : ∀ r what, r <+: q → (r, what) ∈ made → what = none

theorem components_cut {c : Name} (whole : slash ∉ c) (some : c ≠ []) :
    components (bytes ++ slash :: c) = components bytes ++ [c] := by
  rw [components_append_slash, components_plain whole some]

/-- The directory that is made at a slash is one step further on the way. -/
theorem Way.step (way : Way P made q) {c : Name} (built : Built P made' fs)
    (whole : slash ∉ c) (some : c ≠ []) (reaches : Reaches made q bytes made')
    (spells : Spells (components (bytes ++ slash :: c) ++ rest) q) :
    wp (attempt (embedDir (bytes ++ slash :: c)))
      (fun _ fs' => ∃ made'', Built P made'' fs' ∧ Reaches made q (bytes ++ slash :: c) made'')
      (fun _ _ => False) fs := by
  obtain ⟨r, s, spelled, rfl, stands, older, members⟩ := reaches
  obtain ⟨r₁, s₁, spelled₁, split⟩ := spells.beginning
  have plain : Plain r := way.plain.of_append
  have plain₁ : Plain r₁ := (split ▸ way.plain).of_append
  have cut : components (bytes ++ slash :: c) = _ := components_cut whole some
  cases r₁ using List.reverseRecOn with
  | nil =>
    -- Only a dot in front has been read so far.
    have none : r = [] := by
      rw [cut] at spelled₁
      rcases spelled₁ with empty | dotted
      · simp at empty
      · have : components bytes = [] := by
          have := congrArg List.length dotted
          simpa using this
        rw [this] at spelled
        rcases spelled with same | same
        · exact same.symm
        · cases same
    subst none
    refine wp_mono (embedDir_stands built spelled₁ (by simp) (.inl rfl)) ?_ fun _ _ => id
    rintro result fs' ⟨-, rfl⟩
    exact ⟨made', built, [], s₁, spelled₁, split, .inl rfl, older, members⟩
  | append_singleton r₀ c₁ =>
    have below : Spells (components bytes) r₀ := (cut ▸ spelled₁).dropLast.1
    obtain rfl : r = r₀ := spelled.unique below plain plain₁.of_append
    have front : r ++ [c₁] <+: r ++ s := ⟨s₁, split.symm⟩
    refine wp_mono (embedDir_built built spelled₁ plain₁ (way.listed _ front (by simp)) (by simp)
      (way.length c₁ (front.subset (by simp))) stands fun what member => ?_) ?_ fun _ _ => id
    · rcases members _ member with old | ⟨t, -, -, same⟩
      · exact way.noFile _ what front old
      · exact (Prod.mk.inj same).2
    · rintro result fs' ⟨-, built'⟩
      refine ⟨_, built', r ++ [c₁], s₁, spelled₁, split, .inr (by simp), fun x old => ?_, fun x member => ?_⟩
      · exact List.mem_insert_of_mem (older x old)
      · rcases List.mem_insert_iff.mp member with rfl | member
        · exact .inr ⟨r ++ [c₁], List.prefix_rfl, by simp, rfl⟩
        · refine (members x member).imp_right ?_
          rintro ⟨t, below, notEmpty, same⟩
          exact ⟨t, below.trans (List.prefix_append r [c₁]), notEmpty, same⟩

theorem Reaches.snoc_slash (reaches : Reaches made q bytes made') : Reaches made q (bytes ++ [slash]) made' := by
  have same : components (bytes ++ [slash]) = components bytes := by simp [components_append_slash]
  unfold Reaches
  rwa [same]

theorem ensureParentsFrom_built (way : Way P made q) {c : Name} (rest : List UInt8)
    (whole : slash ∉ c) (built : Built P made' fs) (reaches : Reaches made q bytes made')
    (spells : Spells (components (bytes ++ slash :: c ++ rest)) q) :
    wp (ensureParentsFrom (bytes ++ slash :: c) rest)
      (fun _ fs' => ∃ bytes' c' made'', bytes ++ slash :: c ++ rest = bytes' ++ slash :: c' ∧ slash ∉ c' ∧
        Built P made'' fs' ∧ Reaches made q bytes' made'')
      (fun _ _ => False) fs := by
  induction rest generalizing bytes c made' fs with
  | nil => exact ⟨bytes, c, made', by simp, whole, built, reaches⟩
  | cons byte rest ih =>
    have next {bytes' : List UInt8} {c' : Name} (same : bytes' ++ slash :: c' = bytes ++ slash :: c ++ [byte]) :
        bytes ++ slash :: c ++ byte :: rest = bytes' ++ slash :: c' ++ rest := by
      rw [same]
      simp
    simp only [ensureParentsFrom, wp_bind, wp_ite]
    refine ⟨?_, fun skip => ?_⟩
    · rintro ⟨rfl, -⟩
      have apart : components (bytes ++ slash :: c ++ slash :: rest) =
          components (bytes ++ slash :: c) ++ components rest := components_append_slash ..
      have made'' : wp (attempt (embedDir (bytes ++ slash :: c)))
          (fun _ fs' => ∃ made'', Built P made'' fs' ∧ Reaches made q (bytes ++ slash :: c) made'')
          (fun _ _ => False) fs := by
        by_cases none : c = []
        · subst none
          obtain ⟨r, s, spelled, split, stands, members⟩ := reaches.snoc_slash
          refine wp_mono (embedDir_stands built spelled (by simp) stands) ?_ fun _ _ => id
          rintro result fs' ⟨-, rfl⟩
          exact ⟨made', built, reaches.snoc_slash⟩
        · exact way.step built whole none reaches (apart ▸ spells)
      refine wp_mono made'' ?_ fun _ _ => id
      rintro result mid ⟨made'', built', reaches'⟩
      have same : bytes ++ slash :: c ++ slash :: ([] : Name) = bytes ++ slash :: c ++ [slash] := rfl
      rw [next same] at spells ⊢
      exact ih (by simp) built' reaches' spells
    · by_cases isSlash : byte = slash
      · -- The path has only begun.
        have first : bytes = [] ∧ c = [] := by
          simp only [isSlash, true_and, List.length_append, List.length_cons] at skip
          exact ⟨List.length_eq_zero_iff.mp (by omega), List.length_eq_zero_iff.mp (by omega)⟩
        obtain ⟨rfl, rfl⟩ := first
        subst isSlash
        exact @ih [slash] fs made' [] (by simp) built reaches.snoc_slash spells
      · have same : bytes ++ slash :: (c ++ [byte]) = bytes ++ slash :: c ++ [byte] := by simp
        rw [next same] at spells ⊢
        rw [← same]
        refine ih ?_ built reaches spells
        simpa [not_or] using ⟨whole, Ne.symm isSlash⟩

/-- When the way has been made, only the last name of the path can be missing. -/
theorem Reaches.last (reaches : Reaches made q bytes made') {c : Name} (whole : slash ∉ c) (plain : Plain q)
    (spells : Spells (components (bytes ++ slash :: c)) q) :
    c = [] ∧ Stands made' q ∨ q = [] ∨ c ≠ [] ∧ ∃ q₀ name, q = q₀ ++ [name] ∧ Stands made' q₀ ∧
      ∀ x ∈ made', x ∈ made ∨ ∃ t, t <+: q₀ ∧ x = (t, none) := by
  obtain ⟨r, s, spelled, rfl, stands, -, members⟩ := reaches
  by_cases none : c = []
  · subst none
    rw [components_append_slash, components_nil, List.append_nil] at spells
    have same := spelled.unique spells plain.of_append plain
    exact .inl ⟨rfl, same ▸ stands⟩
  · rw [components_cut whole none] at spells
    right
    have plainFront : Plain r := plain.of_append
    generalize r ++ s = q at spells plain
    cases q using List.reverseRecOn with
    | nil => exact .inl rfl
    | append_singleton q₀ name =>
      obtain rfl := spelled.unique spells.dropLast.1 plainFront plain.of_append
      exact .inr ⟨none, r, name, rfl, stands, fun x member => (members x member).imp_right fun ⟨t, below, _, same⟩ =>
        ⟨t, below, same⟩⟩

theorem Reaches.older (reaches : Reaches made q bytes made') : ∀ x ∈ made, x ∈ made' := by
  obtain ⟨-, -, -, -, -, older, -⟩ := reaches
  exact older

theorem Reaches.members (reaches : Reaches made q bytes made') :
    ∀ x ∈ made', x ∈ made ∨ x.1 <+: q ∧ x.2 = none := by
  obtain ⟨r, s, -, rfl, -, -, members⟩ := reaches
  intro x member
  refine (members x member).imp_right ?_
  rintro ⟨t, below, -, rfl⟩
  exact ⟨below.trans (List.prefix_append r s), rfl⟩

end Spelling

end Rel4.Vfs
