import Mathlib.Data.List.GetD
import Rel4.Host.Memory

/-! Copies to and from the pages of a process, as changes of single bytes. -/

namespace Rel4.Host

section Overlaid

variable {va a : Nat} {xs ys bytes : List UInt8} {old : UInt8}

/-- A byte of a memory in which some bytes have been replaced. -/
def overlaid (va : Nat) (bytes : List UInt8) (a : Nat) (old : UInt8) : UInt8 :=
  if va ≤ a ∧ a < va + bytes.length then bytes.getD (a - va) 0 else old

theorem overlaid_inside (low : va ≤ a) (high : a < va + bytes.length) :
    overlaid va bytes a old = bytes.getD (a - va) 0 := if_pos ⟨low, high⟩

theorem overlaid_outside (outside : a < va ∨ va + bytes.length ≤ a) : overlaid va bytes a old = old :=
  if_neg (by omega)

/-- Two neighbouring pieces are one, whichever of them comes first. -/
theorem overlaid_append :
    overlaid (va + xs.length) ys a (overlaid va xs a old) = overlaid va (xs ++ ys) a old ∧
      overlaid va xs a (overlaid (va + xs.length) ys a old) = overlaid va (xs ++ ys) a old := by
  have total : (xs ++ ys).length = xs.length + ys.length := List.length_append
  unfold overlaid
  rw [total]
  -- The address lies before both, in the first, in the second or behind both.
  by_cases first : a < va + xs.length
  · have beyond : ¬ (va + xs.length ≤ a ∧ a < va + xs.length + ys.length) := by omega
    rw [if_neg beyond, if_neg beyond]
    by_cases low : va ≤ a
    · have whole : va ≤ a ∧ a < va + (xs.length + ys.length) := by omega
      rw [if_pos whole, if_pos ⟨low, first⟩, List.getD_append _ _ _ _ (by omega)]
      exact ⟨rfl, rfl⟩
    · simp only [low, false_and, if_false, and_self]
  · have behind : ¬ (va ≤ a ∧ a < va + xs.length) := by omega
    rw [if_neg behind, if_neg behind]
    by_cases second : a < va + xs.length + ys.length
    · have whole : va ≤ a ∧ a < va + (xs.length + ys.length) := by omega
      have inside : va + xs.length ≤ a ∧ a < va + xs.length + ys.length := by omega
      rw [if_pos whole, if_pos inside, List.getD_append_right _ _ _ _ (by omega), Nat.sub_sub]
      exact ⟨rfl, rfl⟩
    · have outside : ¬ (va ≤ a ∧ a < va + (xs.length + ys.length)) := by omega
      simp only [outside, second, and_false, if_false, and_self]

end Overlaid

namespace Memory

variable {s : Memory} {arch : Arch} {child : Task} {pid va len a n m : Nat} {xs ys bytes : List UInt8} {write lazy : Bool}

/-- All pages of a range are there; those that the host writes as the process would can be written. -/
def Accessible (s : Memory) (pid va len : Nat) (write : Bool) : Prop :=
  ∀ a, va ≤ a → a < va + len → ∃ page, s.pages pid (a / pageSize) = some page ∧ (write = true → page.writable = true)

/-- Every byte of a process changes as its address tells. -/
def mapBytes (s : Memory) (pid : Nat) (f : Nat → UInt8 → UInt8) : Memory :=
  { s with
    pages := fun p q =>
      if p = pid then
        (s.pages p q).map fun page =>
          { page with bytes := fun i => if i < pageSize then f (q * pageSize + i) (page.bytes i) else page.bytes i }
      else s.pages p q }

/-- Bytes in the memory of a process, wherever it has pages for them. -/
def put (s : Memory) (pid va : Nat) (bytes : List UInt8) : Memory := s.mapBytes pid (overlaid va bytes)

theorem Accessible.mono {va' len' : Nat} (accessible : s.Accessible pid va len write) (low : va ≤ va')
    (high : va' + len' ≤ va + len) : s.Accessible pid va' len' write :=
  fun a above below => accessible a (by omega) (by omega)

theorem Accessible.put {start : Nat} (accessible : s.Accessible pid va len write) :
    (s.put pid start bytes).Accessible pid va len write := by
  intro a low high
  obtain ⟨page, is, writable⟩ := accessible a low high
  simp only [Memory.put, mapBytes, if_true, is, Option.map_some, Option.some.injEq, exists_eq_left']
  exact writable

theorem mapBytes_id : s.mapBytes pid (fun _ old => old) = s := by
  cases s
  simp [mapBytes]

theorem mapBytes_mapBytes {f g : Nat → UInt8 → UInt8} :
    (s.mapBytes pid f).mapBytes pid g = s.mapBytes pid fun a old => g a (f a old) := by
  simp only [mapBytes]
  congr 1
  funext p q
  split
  · rw [Option.map_map]
    congr 1
    funext page
    simp only [Function.comp_apply]
    congr 1
    funext i
    split <;> rfl
  · rfl

theorem put_nil : s.put pid va [] = s := by
  have unchanged : overlaid va [] = fun _ old => old := by
    funext a old
    exact overlaid_outside (by simp; omega)
  rw [put, unchanged, mapBytes_id]

/-- Two neighbouring stores are one, whichever of them comes first. -/
theorem put_append : (s.put pid va xs).put pid (va + xs.length) ys = s.put pid va (xs ++ ys) ∧
    (s.put pid (va + xs.length) ys).put pid va xs = s.put pid va (xs ++ ys) := by
  simp only [put, mapBytes_mapBytes, overlaid_append, and_self]

/-- A store right below another. -/
theorem put_below {top : Nat} (meets : va + xs.length = top) :
    (s.put pid top ys).put pid va xs = s.put pid va (xs ++ ys) := by
  subst meets
  exact put_append.2

theorem storeBytes_eq (fits : va % pageSize + bytes.length ≤ pageSize) : s.storeBytes pid va bytes = s.put pid va bytes := by
  unfold storeBytes put mapBytes
  congr 1
  funext p q
  by_cases own : p = pid
  · simp only [own, true_and, if_true]
    by_cases here : q = va / pageSize
    · rw [if_pos here]
      congr 1
      funext page
      congr 1
      funext i
      subst here
      unfold overlaid pageSize at *
      by_cases small : i < 4096
      · simp only [small, if_true]
        by_cases inside : va % 4096 ≤ i ∧ i < va % 4096 + bytes.length
        · rw [if_pos inside, if_pos (by omega), show va / 4096 * 4096 + i - va = i - va % 4096 by omega]
        · rw [if_neg inside, if_neg (by omega)]
      · simp only [small, if_false]
        rw [if_neg (by omega)]
    · -- The other pages have no address in the range.
      rw [if_neg here]
      cases s.pages pid q with
      | none => rfl
      | some page =>
        have unchanged : (fun i => if i < pageSize then overlaid va bytes (q * pageSize + i) (page.bytes i)
            else page.bytes i) = page.bytes := by
          funext i
          split
          · refine overlaid_outside ?_
            unfold pageSize at *
            omega
          · rfl
        rw [Option.map_some, unchanged]
  · simp [own]

/-- A page that is there is left as it is. -/
theorem childPtr_of_page {page : Page} (is : s.pages child.pid (va / pageSize) = some page)
    (writable : write = true → page.writable = true) : s.childPtr arch child va write lazy = (true, s) := by
  unfold childPtr
  simp only [is, Option.isNone_some, Bool.false_and, Bool.false_eq_true, if_false]
  cases write with
  | false => simp
  | true => simp [writable rfl]

/-- A copy to pages that are there stores the bytes. -/
theorem copyToLoop_eq (rounds : Nat) : ∀ (s : Memory) (cur : Nat) (src : List UInt8), src.length ≤ rounds →
    s.Accessible child.pid cur src.length write →
    copyToLoop arch child write lazy rounds s cur src = (true, s.put child.pid cur src) := by
  induction rounds with
  | zero =>
    intro s cur src short _
    obtain rfl := List.length_eq_zero_iff.mp (Nat.le_zero.mp short)
    rw [put_nil]
    rfl
  | succ rounds ih =>
    intro s cur src short accessible
    unfold copyToLoop
    by_cases empty : src = []
    · subst empty
      rw [put_nil]
      rfl
    · have some' : 0 < src.length := List.length_pos_iff.mpr empty
      obtain ⟨page, is, writable⟩ := accessible cur (Nat.le_refl _) (by omega)
      rw [if_neg (by simpa using empty), childPtr_of_page is writable]
      simp only [if_true]
      -- One round takes what fits in the page, and at least one byte.
      obtain ⟨n, is⟩ : ∃ n, n = min (pageSize - cur % pageSize) src.length := ⟨_, rfl⟩
      rw [← is]
      have left : cur % pageSize < pageSize := Nat.mod_lt _ (by decide)
      have size : (src.take n).length = n := by rw [List.length_take]; omega
      have rest : (src.drop n).length = src.length - n := List.length_drop
      rw [storeBytes_eq (by omega), ih _ _ _ (by omega)]
      · have joined : (s.put child.pid cur (src.take n)).put child.pid (cur + (src.take n).length) (src.drop n) =
            s.put child.pid cur (src.take n ++ src.drop n) := put_append.1
        rw [size, List.take_append_drop] at joined
        rw [joined]
      · exact (accessible.mono (by omega) (by omega)).put

/-- A copy as the process would make it goes through only if all the pages it goes to can be written. -/
theorem copyToLoop_writable (rounds : Nat) : ∀ (s : Memory) (cur : Nat) (src : List UInt8), src.length ≤ rounds →
    s.Accessible child.pid cur src.length false → (copyToLoop arch child true lazy rounds s cur src).1 = true →
    s.Accessible child.pid cur src.length true := by
  induction rounds with
  | zero =>
    intro s cur src short _ _ a low high
    omega
  | succ rounds ih =>
    intro s cur src short present copied a low high
    obtain ⟨page, is, -⟩ := present cur (Nat.le_refl _) (by omega)
    have some' : src ≠ [] := List.ne_nil_of_length_pos (by omega)
    have looked : s.childPtr arch child cur true lazy = (page.writable, s) := by simp [childPtr, is]
    unfold copyToLoop at copied
    rw [if_neg (by simpa using some'), looked] at copied
    -- The page at hand can be written, or the copy ends here.
    cases writable : page.writable with
    | false => simp [writable] at copied
    | true =>
      simp only [writable, if_true] at copied
      obtain ⟨n, count⟩ : ∃ n, n = min (pageSize - cur % pageSize) src.length := ⟨_, rfl⟩
      rw [← count] at copied
      have left : cur % pageSize < pageSize := Nat.mod_lt _ (by decide)
      have size : (src.take n).length = n := by rw [List.length_take]; omega
      have rest : (src.drop n).length = src.length - n := List.length_drop
      rw [storeBytes_eq (by omega)] at copied
      by_cases here : a < cur + n
      · have same : a / pageSize = cur / pageSize := by
          unfold pageSize at *
          omega
        exact ⟨page, same ▸ is, fun _ => writable⟩
      · have later := ih _ (cur + n) (src.drop n) (by omega) (present.mono (by omega) (by omega)).put copied
        obtain ⟨page', is', writable'⟩ := later a (by omega) (by omega)
        simp only [put, mapBytes, if_true, Option.map_eq_some_iff] at is'
        obtain ⟨old, was, rfl⟩ := is'
        exact ⟨old, was, writable'⟩

theorem copyToChild_eq (accessible : s.Accessible child.pid va bytes.length true) :
    s.copyToChild arch child va bytes = (true, s.put child.pid va bytes) :=
  copyToLoop_eq _ s va bytes (Nat.le_refl _) accessible

theorem copyToChild_refused (present : s.Accessible child.pid va bytes.length false)
    (refused : ¬ s.Accessible child.pid va bytes.length true) : (s.copyToChild arch child va bytes).1 = false :=
  eq_false_of_ne_true fun copied => refused (copyToLoop_writable _ s va bytes (Nat.le_refl _) present copied)

theorem loadBytes_append : s.loadBytes pid va n ++ s.loadBytes pid (va + n) m = s.loadBytes pid va (n + m) := by
  simp [loadBytes, List.range_add, Nat.add_assoc]

/-- A copy from pages that are there gives their bytes, and changes nothing. -/
theorem copyFromLoop_eq (rounds : Nat) : ∀ (cur left : Nat), left ≤ rounds → s.Accessible child.pid cur left false →
    copyFromLoop arch child rounds s cur left = (some (s.loadBytes child.pid cur left), s) := by
  induction rounds with
  | zero =>
    intro cur left short _
    obtain rfl := Nat.le_zero.mp short
    rfl
  | succ rounds ih =>
    intro cur left short accessible
    unfold copyFromLoop
    by_cases none : left = 0
    · subst none
      rfl
    · obtain ⟨page, is, writable⟩ := accessible cur (Nat.le_refl _) (by omega)
      rw [if_neg none, childPtr_of_page is writable]
      simp only [if_true]
      obtain ⟨n, is⟩ : ∃ n, n = min (pageSize - cur % pageSize) left := ⟨_, rfl⟩
      rw [← is]
      have some' : cur % pageSize < pageSize := Nat.mod_lt _ (by decide)
      rw [ih _ _ (by omega) (accessible.mono (by omega) (by omega))]
      simp only [Option.map_some, loadBytes_append]
      rw [show n + (left - n) = left by omega]

theorem copyFromChild_eq (accessible : s.Accessible child.pid va len false) :
    s.copyFromChild arch child va len = (some (s.loadBytes child.pid va len), s) :=
  copyFromLoop_eq len va len (Nat.le_refl _) accessible

/-- Every byte after a store. -/
theorem byteAt_put (mapped : s.pages pid (a / pageSize) ≠ none) :
    (s.put pid va bytes).byteAt pid a = overlaid va bytes a (s.byteAt pid a) := by
  unfold byteAt put mapBytes
  obtain ⟨page, is⟩ := Option.ne_none_iff_exists'.mp mapped
  simp only [is, if_true, Option.map_some]
  rw [if_pos (Nat.mod_lt _ (by decide)), Nat.mul_comm, Nat.div_add_mod]

end Memory

end Rel4.Host
