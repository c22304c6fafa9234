import Rel4.Proof.Unpack

/-! Archives in order: what the format asks for, and that unpacking puts every item in its place. -/

namespace Rel4.Vfs

open Lib

variable {blob bytes : List UInt8} {fs fs' : Ramfs} {off : Nat}

section Format

/-- The value of a hexadecimal digit. -/
inductive IsHexDigit : UInt8 → Nat → Prop
  | decimal (d : Nat) (small : d < 10) : IsHexDigit (.ofNat (0x30 + d)) d
  | lower (d : Nat) (small : d < 6) : IsHexDigit (.ofNat (0x61 + d)) (10 + d)
  | upper (d : Nat) (small : d < 6) : IsHexDigit (.ofNat (0x41 + d)) (10 + d)

/-- Eight digits that write a number. -/
def HexField (bytes : List UInt8) (v : Nat) : Prop :=
  bytes.length = 8 ∧ ∃ digits, List.Forall₂ IsHexDigit bytes digits ∧ v = digits.foldl (· * 16 + ·) 0

/-- Bytes stand at an offset. -/
def Occurs (blob : List UInt8) (off : Nat) (bytes : List UInt8) : Prop :=
  off + bytes.length ≤ blob.length ∧ (blob.drop off).take bytes.length = bytes

/-- A file or directory in an archive. -/
structure Item where
  name : Name
  mode : Nat
  data : List UInt8

def Item.IsDir (item : Item) : Prop := item.mode &&& sIfmt = sIfdir
def Item.IsFile (item : Item) : Prop := item.mode &&& sIfmt = sIfreg

/-- The path an item is meant for: the names in its own name, without a dot in front. -/
def Item.path (item : Item) : List Name :=
  match components item.name with
  | [] => []
  | first :: rest => if first = [dot] then rest else first :: rest

/-- Where the data of an entry starts. -/
def dataStart (off : Nat) (name : Name) : Nat := align4 (off + headerLen + (name.length + 1))

/-- An entry of an archive: its header with the fields in their places, its name and its data. -/
structure EntryAt (blob : List UInt8) (off : Nat) (item : Item) : Prop where
  magic : Occurs blob off magic
  mode : ∃ field, Occurs blob (off + 14) field ∧ HexField field item.mode
  filesize : ∃ field, Occurs blob (off + 54) field ∧ HexField field item.data.length
  namesize : ∃ field, Occurs blob (off + 94) field ∧ HexField field (item.name.length + 1)
  name : Occurs blob (off + headerLen) (item.name ++ [0])
  ended : 0 ∉ item.name
  data : Occurs blob (dataStart off item.name) item.data

/-- An archive with these items from an offset on: entry after entry, and the trailer behind them. -/
inductive Archive (blob : List UInt8) : Nat → List Item → Prop
  | trailer {off mode : Nat} (entry : EntryAt blob off { name := trailer, mode, data := [] }) :
      Archive blob off []
  | item {off : Nat} {item : Item} {items : List Item} (entry : EntryAt blob off item)
      (more : item.name ≠ Vfs.trailer)
      (rest : Archive blob (align4 (dataStart off item.name + item.data.length)) items) :
      Archive blob off (item :: items)

/-- An item the file server has a place for. -/
structure Item.Fits (item : Item) : Prop where
  kind : item.IsDir ∨ item.IsFile ∧ item.path ≠ [] ∧ item.name.getLast? ≠ some slash
  plain : Plain item.path
  short : ∀ c ∈ item.path, c.length ≤ nameMax
  length : item.name.length < maxPathBytes

/-- Items that can all be put in place: no two have one path, files have nothing below them, and with
the directories on the way there are no more than inodes. -/
structure Fitting (items : List Item) : Prop where
  each : ∀ item ∈ items, item.Fits
  distinct : (items.map Item.path).Nodup
  leaves : ∀ file ∈ items, file.IsFile → ∀ other ∈ items, file.path <+: other.path →
    file.path = other.path
  room : (items.flatMap fun item => item.path.inits.tail).dedup.length + 2 ≤ maxInodes

/-- What is read of an item at an offset. -/
def Item.header (item : Item) (off : Nat) : Header where
  mode := item.mode
  filesize := item.data.length
  name := item.name
  dataOff := dataStart off item.name

theorem IsHexDigit.hexDigit {byte : UInt8} {d : Nat} (digit : IsHexDigit byte d) : hexDigit byte = some d := by
  have decimal : ∀ d < 10, Vfs.hexDigit (.ofNat (0x30 + d)) = some d := by decide
  have lower : ∀ d < 6, Vfs.hexDigit (.ofNat (0x61 + d)) = some (10 + d) := by decide
  have upper : ∀ d < 6, Vfs.hexDigit (.ofNat (0x41 + d)) = some (10 + d) := by decide
  cases digit with
  | decimal d small => exact decimal d small
  | lower d small => exact lower d small
  | upper d small => exact upper d small

theorem HexField.parseHex {v : Nat} (field : HexField bytes v) : parseHex bytes = some v := by
  obtain ⟨length, digits, each, rfl⟩ := field
  have general (start : Nat) :
      bytes.foldlM (fun v byte => (hexDigit byte).map (v * 16 + ·)) start =
        some (digits.foldl (· * 16 + ·) start) := by
    clear length
    induction each generalizing start with
    | nil => rfl
    | cons digit _ ih =>
      rw [List.foldlM_cons, digit.hexDigit]
      exact ih _
  unfold Vfs.parseHex
  rw [if_neg (by simpa using length), general]

theorem Occurs.slice {last : Nat} (occurs : Occurs blob off bytes) (length : last = off + bytes.length) :
    slice blob off last = .ok bytes := by
  subst length
  rw [slice_ok (by omega) occurs.1, Nat.add_sub_cancel_left, occurs.2]

theorem HexField.slice {v last : Nat} {field : List UInt8} (occurs : Occurs blob off field)
    (hex : HexField field v) (length : last = off + 8) :
    ∃ field', Vfs.slice blob off last = .ok field' ∧ Vfs.parseHex field' = some v :=
  ⟨field, occurs.slice (hex.1 ▸ length), hex.parseHex⟩

theorem EntryAt.room {item : Item} (entry : EntryAt blob off item) : off + headerLen ≤ blob.length := by
  have := entry.name.1
  omega

theorem EntryAt.fuel {item : Item} {fuel : Nat} (entry : EntryAt blob off item)
    (enough : blob.length < off + fuel) : ∃ more, fuel = more + 1 := by
  have := entry.room
  exact ⟨fuel - 1, by omega⟩

theorem EntryAt.readHeader {item : Item} (entry : EntryAt blob off item) :
    readHeader blob off = .ok (some (item.header off)) := by
  obtain ⟨_, modeAt, modeHex⟩ := entry.mode
  obtain ⟨_, sizeAt, sizeHex⟩ := entry.filesize
  obtain ⟨_, nameAt, nameHex⟩ := entry.namesize
  have start : slice blob off (off + 6) = .ok Vfs.magic := entry.magic.slice rfl
  obtain ⟨mode, modeSlice, modeParse⟩ := modeHex.slice modeAt (rfl : off + 22 = _)
  obtain ⟨size, sizeSlice, sizeParse⟩ := sizeHex.slice sizeAt (rfl : off + 62 = _)
  obtain ⟨namesize, nameSlice, nameParse⟩ := nameHex.slice nameAt (rfl : off + 102 = _)
  have nameEnd := entry.name.1
  have dataEnd := entry.data.1
  have named : slice blob (off + headerLen) (off + headerLen + (item.name.length + 1)) = .ok (item.name ++ [0]) :=
    entry.name.slice (by simp)
  have cut : (item.name ++ [0]).takeWhile (· ≠ 0) = item.name := by
    rw [List.takeWhile_append_of_pos]
    · simp
    · intro byte member
      have nonzero : byte ≠ 0 := fun zero => entry.ended (zero ▸ member)
      simpa using nonzero
  rw [List.length_append, List.length_singleton] at nameEnd
  unfold Vfs.readHeader
  rw [start, modeSlice, sizeSlice, nameSlice]
  simp only [bind, Except.bind, pure, Except.pure, ne_eq, not_true_eq_false, if_false, modeParse, sizeParse,
    nameParse]
  rw [if_neg (by omega), named]
  dsimp only
  unfold dataStart at dataEnd
  rw [if_neg (by omega)]
  simp only [ne_eq] at cut
  rw [cut]
  rfl

end Format

section Places

variable {P : List (List Name)} {made made' : List (List Name × What)} {item : Item} {done items : List Item}

theorem components_cons_slash (bytes : List UInt8) : components (slash :: bytes) = components bytes :=
  components_append_slash [] bytes

theorem Item.spells (item : Item) : Spells (components item.name) item.path := by
  unfold Item.path
  split
  case h_1 none => exact .inl none
  case h_2 first rest named =>
    split_ifs with isDot
    · exact .inr (isDot ▸ named)
    · exact .inl named

theorem Item.length_pos (item : Item) : ∀ c ∈ item.path, 0 < c.length := by
  intro c member
  have named : c ∈ components item.name := by
    rcases item.spells with same | same <;> simp [same, member]
  exact List.length_pos_iff.mpr (componentsFrom_plain_names (by simp) c named).1

theorem Item.IsFile.not_isDir (file : item.IsFile) : ¬ item.IsDir := by
  unfold Item.IsFile at file
  unfold Item.IsDir
  rw [file]
  decide

/-- What stands at the path of an item is what the archive has there. -/
def Item.Has (item : Item) (blob : List UInt8) : What → Prop
  | none => item.IsDir
  | some (off, len) => item.IsFile ∧ len = item.data.length ∧ Occurs blob off item.data

/-- Items that have been unpacked: each is in its place, and nothing else is there but the directories
above them. -/
structure Progress (blob : List UInt8) (P : List (List Name)) (done : List Item)
    (made : List (List Name × What)) (fs : Ramfs) : Prop where
  built : Built P made fs
  placed : ∀ item ∈ done, item.path = [] ∧ item.IsDir ∨ ∃ what, (item.path, what) ∈ made ∧ item.Has blob what
  origin : ∀ q what, (q, what) ∈ made → ∃ item ∈ done, q <+: item.path ∧
    (what ≠ none → item.IsFile ∧ q = item.path)

/-- What has to be known of the next item. -/
structure Next (P : List (List Name)) (done : List Item) (item : Item) : Prop where
  fits : item.Fits
  listed : ∀ r, r <+: item.path → r ≠ [] → r ∈ P
  distinct : ∀ old ∈ done, old.path ≠ item.path
  above : ∀ old ∈ done, old.IsFile → ¬ old.path <+: item.path
  below : item.IsFile → ∀ old ∈ done, ¬ item.path <+: old.path

theorem Next.way (next : Next P done item) (progress : Progress blob P done made fs) :
    Way P made item.path where
  plain := next.fits.plain
  listed := next.listed
  length c member := ⟨item.length_pos c member, next.fits.short c member⟩
  noFile r what front member := by
    by_contra isFile
    obtain ⟨old, isDone, -, file⟩ := progress.origin r what member
    obtain ⟨isFile, rfl⟩ := file isFile
    exact next.above old isDone isFile front

theorem Next.new (next : Next P done item) (progress : Progress blob P done made fs) (file : item.IsFile)
    (what : What) : (item.path, what) ∉ made := by
  intro member
  obtain ⟨old, isDone, front, -⟩ := progress.origin _ what member
  exact next.below file old isDone front

theorem Progress.add (progress : Progress blob P done made fs) (built : Built P made' fs')
    (older : ∀ x ∈ made, x ∈ made')
    (members : ∀ x ∈ made', x ∈ made ∨ x.1 <+: item.path ∧ (x.2 ≠ none → item.IsFile ∧ x.1 = item.path))
    (here : item.path = [] ∧ item.IsDir ∨ ∃ what, (item.path, what) ∈ made' ∧ item.Has blob what) :
    Progress blob P (item :: done) made' fs' := by
  refine ⟨built, fun old member => ?_, fun q what member => ?_⟩
  · rcases List.mem_cons.mp member with rfl | isDone
    · exact here
    · refine (progress.placed old isDone).imp_right ?_
      rintro ⟨what, stands, has⟩
      exact ⟨what, older _ stands, has⟩
  · rcases members _ member with old | ⟨front, file⟩
    · obtain ⟨item', isDone, rest⟩ := progress.origin q what old
      exact ⟨item', List.mem_cons_of_mem _ isDone, rest⟩
    · exact ⟨item, List.mem_cons_self, front, file⟩

theorem unpackEntry_dir (next : Next P done item) (progress : Progress blob P done made fs)
    (isDir : item.IsDir) {c : Name} (built : Built P made' fs') (reaches : Reaches made item.path bytes made')
    (whole : slash ∉ c) (split : slash :: item.name = bytes ++ slash :: c) :
    wp (attempt (embedDir (slash :: item.name)))
      (fun result fs'' => result.toBool = true ∧ ∃ made'', Progress blob P (item :: done) made'' fs'')
      (fun _ _ => False) fs' := by
  have spells : Spells (components (slash :: item.name)) item.path := by
    rw [components_cons_slash]
    exact item.spells
  have way := next.way progress
  have members (x) (member : x ∈ made') : x ∈ made ∨ x.1 <+: item.path ∧
      (x.2 ≠ none → item.IsFile ∧ x.1 = item.path) :=
    (reaches.members x member).imp_right fun ⟨front, dir⟩ => ⟨front, fun file => absurd dir file⟩
  have found (stands : Stands made' item.path) : wp (attempt (embedDir (slash :: item.name)))
      (fun result fs'' => result.toBool = true ∧ ∃ made'', Progress blob P (item :: done) made'' fs'')
      (fun _ _ => False) fs' := by
    refine wp_mono (embedDir_stands built spells (by simp) stands) ?_ fun _ _ => id
    rintro result fs'' ⟨good, rfl⟩
    refine ⟨good, made', progress.add built reaches.older members ?_⟩
    rcases stands with none | there
    · exact .inl ⟨none, isDir⟩
    · exact .inr ⟨none, there, isDir⟩
  rcases reaches.last whole way.plain (split ▸ spells) with ⟨-, stands⟩ | none | ⟨-, q₀, name, path, stands, -⟩
  · exact found stands
  · exact found (.inl none)
  · rw [path] at spells
    have noFile (what) (member : (q₀ ++ [name], what) ∈ made') : what = none := by
      rcases reaches.members _ member with old | ⟨-, dir⟩
      · exact way.noFile _ what (path ▸ List.prefix_rfl) old
      · exact dir
    refine wp_mono (embedDir_built built spells (path ▸ way.plain)
      (path ▸ way.listed _ List.prefix_rfl (by simp [path])) (by simp) (way.length name (by simp [path]))
      stands noFile) ?_ fun _ _ => id
    rintro result fs'' ⟨good, built'⟩
    refine ⟨good, _, progress.add built' (fun x old => List.mem_insert_of_mem (reaches.older x old)) ?_ ?_⟩
    · intro x member
      rcases List.mem_insert_iff.mp member with rfl | member
      · exact .inr ⟨path ▸ List.prefix_rfl, fun file => absurd rfl file⟩
      · exact members x member
    · exact .inr ⟨none, by simp [path], isDir⟩

theorem unpackEntry_file (next : Next P done item) (progress : Progress blob P done made fs)
    (file : item.IsFile) (occurs : Occurs blob off item.data) {c : Name} (built : Built P made' fs')
    (reaches : Reaches made item.path bytes made') (whole : slash ∉ c)
    (split : slash :: item.name = bytes ++ slash :: c) :
    wp (attempt (embedFile (slash :: item.name) off item.data.length))
      (fun result fs'' => result.toBool = true ∧ ∃ made'', Progress blob P (item :: done) made'' fs'')
      (fun _ _ => False) fs' := by
  have spells : Spells (components (slash :: item.name)) item.path := by
    rw [components_cons_slash]
    exact item.spells
  have way := next.way progress
  obtain ⟨-, some, open'⟩ := next.fits.kind.resolve_left file.not_isDir
  rcases reaches.last whole way.plain (split ▸ spells) with ⟨rfl, -⟩ | none | ⟨-, q₀, name, path, stands, members⟩
  · -- A file's name does not end with a slash.
    have : (slash :: item.name).getLast? = .some slash := by simp [split]
    have notEmpty : item.name ≠ [] := by
      intro empty
      have := item.spells
      rw [empty] at this
      rcases this with same | same
      · exact some same.symm
      · cases same
    rw [List.getLast?_cons, List.getLast?_eq_some_getLast notEmpty] at this
    exact absurd (by simpa [List.getLast?_eq_some_getLast notEmpty] using this) open'
  · exact absurd none some
  · rw [path] at spells
    have new (what) : (q₀ ++ [name], what) ∉ made' := by
      intro member
      rcases members _ member with old | ⟨t, front, same⟩
      · exact next.new progress file what (path ▸ old)
      · obtain ⟨rfl, -⟩ := Prod.mk.inj same
        have := front.length_le
        simp at this
    refine wp_mono (embedFile_built built spells (path ▸ way.plain)
      (path ▸ way.listed _ List.prefix_rfl some) (by simp) (way.length name (by simp [path]))
      stands new) ?_ fun _ _ => id
    rintro result fs'' ⟨good, built'⟩
    refine ⟨good, _, progress.add built' (fun x old => List.mem_cons_of_mem _ (reaches.older x old)) ?_ ?_⟩
    · intro x member
      rcases List.mem_cons.mp member with rfl | member
      · exact .inr ⟨path ▸ List.prefix_rfl, fun _ => ⟨file, path.symm⟩⟩
      · exact (reaches.members x member).imp_right fun ⟨front, dir⟩ => ⟨front, fun file => absurd dir file⟩
    · exact .inr ⟨.some (off, item.data.length), by simp [path], file, rfl, occurs⟩

theorem unpackEntry_built (next : Next P done item) (progress : Progress blob P done made fs)
    (occurs : Occurs blob (dataStart off item.name) item.data) :
    wp (unpackEntry (item.header off))
      (fun more fs' => more = true ∧ ∃ made', Progress blob P (item :: done) made' fs')
      (fun _ _ => False) fs := by
  have kinds := next.fits.kind
  have short : item.name.take (maxPathBytes - 1) = item.name :=
    List.take_of_length_le (by have := next.fits.length; omega)
  have spells : Spells (components ([] ++ slash :: ([] : Name) ++ item.name)) item.path := by
    show Spells (components (slash :: item.name)) _
    rw [components_cons_slash]
    exact item.spells
  unfold unpackEntry ensureParents
  simp only [wp_bind, wp_ite, wp_pure, Item.header, short]
  refine ⟨fun root => ⟨trivial, made, ?_⟩, fun _ => ?_⟩
  · have none : item.path = [] := by
      unfold Item.path
      rcases root with named | named <;> rw [named] <;> rfl
    have isDir := kinds.resolve_right fun file => file.2.1 none
    exact progress.add progress.built (fun _ => id) (fun _ => .inl) (.inl ⟨none, isDir⟩)
  have start : Reaches made item.path [] made :=
    ⟨[], item.path, .inl rfl, rfl, .inl rfl, fun _ => id, fun _ => .inl⟩
  refine wp_mono (ensureParentsFrom_built (next.way progress) item.name (by simp) progress.built start spells)
    ?_ fun _ _ => id
  rintro - mid ⟨bytes', c', made', split, whole, built, reaches⟩
  refine ⟨fun dir => ?_, fun notDir => ⟨fun _ => ?_, fun neither => ?_⟩⟩
  · refine unpackEntry_dir next progress ?_ built reaches whole split
    rcases dir with isDir | slashed
    · exact isDir
    · exact kinds.resolve_right fun file => file.2.2 slashed
  · have file := kinds.resolve_left fun isDir => notDir (.inl isDir)
    exact unpackEntry_file next progress file.1 occurs built reaches whole split
  · rcases kinds with isDir | file
    · exact absurd (.inl isDir) notDir
    · exact absurd (.inr file.1) neither

/-- Every entry of an archive in order is put in its place, up to the trailer. -/
theorem unpackFrom_built (archive : Archive blob off items) (fuel : Nat) (enough : blob.length < off + fuel)
    (fits : ∀ item ∈ items, item.Fits)
    (listed : ∀ item ∈ items, ∀ r, r <+: item.path → r ≠ [] → r ∈ P)
    (distinct : ((done ++ items).map Item.path).Nodup)
    (leaves : ∀ file ∈ done ++ items, file.IsFile → ∀ other ∈ done ++ items, file.path <+: other.path →
      file.path = other.path)
    (progress : Progress blob P done made fs) :
    wp (unpackFrom blob fuel off)
      (fun whole fs' => whole = true ∧ ∃ done' made', (∀ item ∈ done ++ items, item ∈ done') ∧
        Progress blob P done' made' fs')
      (fun _ _ => False) fs := by
  induction archive generalizing fuel done made fs with
  | @trailer off mode entry =>
    obtain ⟨fuel, rfl⟩ : ∃ more, fuel = more + 1 := entry.fuel enough
    have room := entry.room
    simp only [unpackFrom, wp_ite, wp_pure, entry.readHeader]
    exact ⟨fun _ => ⟨fun _ => ⟨trivial, done, made, by simp, progress⟩, fun other => absurd rfl other⟩,
      fun short => absurd room short⟩
  | @item off item items entry more rest ih =>
    obtain ⟨fuel, rfl⟩ : ∃ more, fuel = more + 1 := entry.fuel enough
    have room := entry.room
    have moved : (done ++ item :: items).Perm (item :: done ++ items) := List.perm_middle
    have distinct' : ((item :: done ++ items).map Item.path).Nodup := (moved.map _).nodup_iff.mp distinct
    have fresh (old) (member : old ∈ done) : old.path ≠ item.path := fun same =>
      (List.nodup_cons.mp distinct').1 (List.mem_map.mpr ⟨old, by simp [member], same⟩)
    have next : Next P done item := {
      fits := fits item (by simp)
      listed := listed item (by simp)
      distinct := fresh
      above old member file front := fresh old member (leaves old (by simp [member]) file item (by simp) front)
      below file old member front :=
        fresh old member (leaves item (by simp) file old (by simp [member]) front).symm }
    simp only [unpackFrom, wp_ite, wp_bind, wp_pure, entry.readHeader]
    refine ⟨fun _ => ⟨fun last => absurd last more, fun _ => ?_⟩, fun short => absurd room short⟩
    refine wp_mono (unpackEntry_built next progress entry.data) ?_ fun _ _ => id
    rintro more mid ⟨rfl, made', progress'⟩
    refine ⟨fun stopped => absurd stopped (by simp), fun _ => ?_⟩
    have onward := le_align4 (dataStart off item.name + item.data.length)
    have start := le_align4 (off + headerLen + (item.name.length + 1))
    have later : blob.length < align4 (dataStart off item.name + item.data.length) + fuel := by
      unfold dataStart at onward ⊢
      omega
    refine wp_mono (ih fuel later (fun other member => fits other (by simp [member]))
      (fun other member => listed other (by simp [member])) distinct'
      (fun file member isFile other member' => leaves file (moved.mem_iff.mpr member) isFile other
        (moved.mem_iff.mpr member')) progress') ?_ fun _ _ => id
    rintro whole fs' ⟨good, done', made'', all, progress''⟩
    exact ⟨good, done', made'', fun other member => all other (moved.mem_iff.mp member), progress''⟩

/-- An item in its place is found there, with the bytes it has in the archive. -/
theorem Progress.reads (progress : Progress blob P done made fs) (member : item ∈ done) {path : List UInt8}
    (some : path ≠ []) (spells : Spells (components path) item.path) :
    ∃ n, fs.walk path = .ok n ∧ (item.IsDir → fs.IsDir n) ∧
      (item.IsFile → (fs.inode n).map Inode.kind = .some .file ∧
        ∀ offset len, fs.readInode blob n offset len = .ok ((item.data.drop offset).take len)) := by
  rw [spells.walk some]
  rcases progress.placed item member with ⟨none, isDir⟩ | ⟨what, there, has⟩
  · rw [none]
    exact ⟨rootIno, rfl, fun _ => progress.built.root, fun file => absurd isDir file.not_isDir⟩
  obtain ⟨-, n, walked, is⟩ := progress.built.known _ what there
  refine ⟨n, walked, ?_⟩
  cases what with
  | none => exact ⟨fun _ => is, fun file => absurd has file.not_isDir⟩
  | some part =>
    obtain ⟨base, len⟩ := part
    obtain ⟨file, rfl, inside, bytes⟩ := has
    obtain ⟨small, used, kind, size, src⟩ := is
    refine ⟨fun isDir => absurd isDir file.not_isDir, fun _ => ⟨?_, fun offset len => ?_⟩⟩
    · rw [inode_used small used]
      exact congrArg _ kind
    · unfold Ramfs.readInode
      rw [inode_used small used]
      dsimp only
      rw [size, src]
      split_ifs with past
      · rw [List.drop_eq_nil_of_le past, List.take_nil]
      · dsimp only
        rw [slice_ok (by omega) (by omega), Nat.add_sub_cancel_left]
        conv_rhs => rw [← bytes]
        rw [List.drop_take, List.drop_drop, List.take_take]

end Places

/-- Unpacking any bytes at all comes to an end without a panic, and leaves no file that reaches out of
them; and of an archive in order every item is put in its place. -/
theorem unpack_restores_archive (blob : List UInt8) (fs : Ramfs) :
    (∃ whole fs', unpack blob fs.boot = .ok whole fs' ∧ ∀ n base len, (fs'.inodes n).used = true →
      (fs'.inodes n).src = .embedded base len → base + len ≤ blob.length) ∧
    ∀ items, Archive blob 0 items → Fitting items → ∃ fs', unpack blob fs.boot = .ok true fs' ∧
      ∀ item ∈ items, ∀ path, path ≠ [] → Spells (components path) item.path →
        ∃ n, fs'.walk path = .ok n ∧ (item.IsDir → fs'.IsDir n) ∧
          (item.IsFile → (fs'.inode n).map Inode.kind = some .file ∧
            ∀ offset len, fs'.readInode blob n offset len = .ok ((item.data.drop offset).take len)) := by
  constructor
  · obtain ⟨whole, fs', run, builds⟩ := unpack_builds (boot_sound fs)
    exact ⟨whole, fs', run, fun n base len used src =>
      (((boot_placed fs).moves builds.moves).embedded n base len used src).2.2⟩
  · intro items archive fitting
    set P := (items.flatMap fun item => item.path.inits.tail).dedup with all
    have listed (item) (member : item ∈ items) (r) (front : r <+: item.path) (some : r ≠ []) : r ∈ P := by
      rw [all, List.mem_dedup, List.mem_flatMap]
      refine ⟨item, member, ?_⟩
      have member : r ∈ item.path.inits := (List.mem_inits _ _).mpr front
      cases path : item.path with
      | nil => simp_all
      | cons first rest => simpa [path, some] using member
    have progress : Progress blob P [] [] fs.boot :=
      ⟨boot_built fitting.room fs, by simp, by simp⟩
    have distinct : (([] ++ items).map Item.path).Nodup := fitting.distinct
    obtain ⟨whole, fs', run, rfl, done, made, every, progress'⟩ := exists_ok_of_wp
      (unpackFrom_built archive (blob.length + 1) (by omega) fitting.each listed distinct fitting.leaves
        progress)
    exact ⟨fs', run, fun item member path some spells => progress'.reads (every item member) some spells⟩

section Sample

/-- A field written with these digits. -/
def hexField (digits : List Nat) : List UInt8 :=
  digits.map fun d => .ofNat (if d < 10 then 0x30 + d else 0x41 + (d - 10))

theorem hexField_hex {digits : List Nat} (length : digits.length = 8) (small : ∀ d ∈ digits, d < 16) :
    HexField (hexField digits) (digits.foldl (· * 16 + ·) 0) := by
  refine ⟨by simp [hexField, length], digits, ?_, rfl⟩
  clear length
  induction digits with
  | nil => exact .nil
  | cons d rest ih =>
    refine .cons ?_ (ih fun d member => small d (by simp [member]))
    dsimp only
    split_ifs with decimal
    · exact .decimal d decimal
    · have upper := IsHexDigit.upper (d - 10) (by have := small d (by simp); omega)
      rwa [Nat.add_sub_cancel' (by omega)] at upper

instance (blob : List UInt8) (off : Nat) (bytes : List UInt8) : Decidable (Occurs blob off bytes) :=
  inferInstanceAs (Decidable (_ ∧ _))

/-- An entry with its mode, its sizes and what follows the header; fields that are not read are zero. -/
def sampleEntry (mode filesize namesize : List Nat) (rest : List UInt8) : List UInt8 :=
  magic ++ List.replicate 8 0x30 ++ hexField mode ++ List.replicate 32 0x30 ++ hexField filesize ++
    List.replicate 32 0x30 ++ hexField namesize ++ List.replicate 8 0x30 ++ rest

/-- The directory `./d`, and in it the file `d/f` with three bytes. -/
def sampleItems : List Item :=
  [{ name := [dot, slash, 0x64], mode := 0x4000, data := [] },
    { name := [0x64, slash, 0x66], mode := 0x8000, data := [1, 2, 3] }]

def sampleArchive : List UInt8 :=
  sampleEntry [0, 0, 0, 0, 4, 0, 0, 0] [0, 0, 0, 0, 0, 0, 0, 0] [0, 0, 0, 0, 0, 0, 0, 4]
      [dot, slash, 0x64, 0, 0, 0] ++
    sampleEntry [0, 0, 0, 0, 8, 0, 0, 0] [0, 0, 0, 0, 0, 0, 0, 3] [0, 0, 0, 0, 0, 0, 0, 4]
      [0x64, slash, 0x66, 0, 0, 0, 1, 2, 3, 0] ++
    sampleEntry [0, 0, 0, 0, 0, 0, 0, 0] [0, 0, 0, 0, 0, 0, 0, 0] [0, 0, 0, 0, 0, 0, 0, 11]
      (trailer ++ [0, 0, 0, 0])

theorem sample_entry {off : Nat} {item : Item} (mode filesize namesize : List Nat)
    (lengths : mode.length = 8 ∧ filesize.length = 8 ∧ namesize.length = 8)
    (digits : ∀ d ∈ mode ++ filesize ++ namesize, d < 16)
    (values : mode.foldl (· * 16 + ·) 0 = item.mode ∧ filesize.foldl (· * 16 + ·) 0 = item.data.length ∧
      namesize.foldl (· * 16 + ·) 0 = item.name.length + 1)
    (places : Occurs sampleArchive off magic ∧ Occurs sampleArchive (off + 14) (hexField mode) ∧
      Occurs sampleArchive (off + 54) (hexField filesize) ∧
      Occurs sampleArchive (off + 94) (hexField namesize) ∧
      Occurs sampleArchive (off + headerLen) (item.name ++ [0]) ∧
      Occurs sampleArchive (dataStart off item.name) item.data)
    (ended : 0 ∉ item.name) : EntryAt sampleArchive off item := by
  obtain ⟨modeAt, sizeAt, nameAt⟩ := values
  obtain ⟨first, second, third, fourth, name, data⟩ := places
  refine ⟨first, ⟨_, second, ?_⟩, ⟨_, third, ?_⟩, ⟨_, fourth, ?_⟩, name, ended, data⟩
  · exact modeAt ▸ hexField_hex lengths.1 fun d member => digits d (by simp [member])
  · exact sizeAt ▸ hexField_hex lengths.2.1 fun d member => digits d (by simp [member])
  · exact nameAt ▸ hexField_hex lengths.2.2 fun d member => digits d (by simp [member])

theorem sample_archive : Archive sampleArchive 0 sampleItems := by
  refine .item ?_ (by decide) (.item ?_ (by decide) (@Archive.trailer _ _ 0 ?_))
  · exact sample_entry [0, 0, 0, 0, 4, 0, 0, 0] [0, 0, 0, 0, 0, 0, 0, 0] [0, 0, 0, 0, 0, 0, 0, 4]
      (by decide) (by decide) (by decide) (by decide +kernel) (by decide)
  · exact sample_entry [0, 0, 0, 0, 8, 0, 0, 0] [0, 0, 0, 0, 0, 0, 0, 3] [0, 0, 0, 0, 0, 0, 0, 4]
      (by decide) (by decide) (by decide) (by decide +kernel) (by decide)
  · exact sample_entry [0, 0, 0, 0, 0, 0, 0, 0] [0, 0, 0, 0, 0, 0, 0, 0] [0, 0, 0, 0, 0, 0, 0, 11]
      (by decide) (by decide) (by decide) (by decide +kernel) (by decide)

instance : DecidablePred Item.IsFile := fun _ => inferInstanceAs (Decidable (_ = _))

theorem sample_fitting : Fitting sampleItems := by
  refine ⟨?_, by decide +kernel, by decide +kernel, by decide +kernel⟩
  unfold sampleItems
  simp only [List.mem_cons, List.not_mem_nil, or_false, forall_eq_or_imp, forall_eq]
  refine ⟨⟨.inl rfl, ?_, ?_, ?_⟩, ⟨.inr ⟨rfl, ?_, ?_⟩, ?_, ?_, ?_⟩⟩
  all_goals first | decide +kernel | (unfold Plain; decide +kernel)

/-- The file of the sample is found under its path, and reads as in the archive. -/
theorem unpack_restores_archive_sample :
    ∃ fs', unpack sampleArchive ({} : Ramfs).boot = .ok true fs' ∧
      ∃ n, fs'.walk [slash, 0x64, slash, 0x66] = .ok n ∧
        fs'.readInode sampleArchive n 1 10 = .ok [2, 3] := by
  obtain ⟨fs', run, found⟩ :=
    (unpack_restores_archive sampleArchive {}).2 sampleItems sample_archive sample_fitting
  obtain ⟨n, walked, -, file⟩ := found { name := [0x64, slash, 0x66], mode := 0x8000, data := [1, 2, 3] }
    (by simp [sampleItems]) [slash, 0x64, slash, 0x66] (by simp) (.inl (by decide))
  exact ⟨fs', run, n, walked, (file rfl).2 1 10⟩

end Sample

end Rel4.Vfs
