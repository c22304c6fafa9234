import Mathlib.Data.List.Nodup

/-!
Intrusive first-in first-out queues.

Every node carries one pair of links, whichever queue it is on; a queue only keeps its two ends.
A family of queues stands for one list per queue, and no node is on two of them.
-/

namespace Rel4.Lib

open Function (update update_apply update_of_ne update_self)

/-- The pair of links embedded in a node. -/
@[ext]
structure Links (N : Type*) where
  prev : Option N := none
  next : Option N := none
deriving DecidableEq

/-- The two ends of a queue. -/
structure QueueEnds (N : Type*) where
  head : Option N := none
  tail : Option N := none
deriving DecidableEq

section Operations

variable {N : Type*} [DecidableEq N]

/-- A node with neither neighbour may still be alone on some queue. -/
def Links.isUnlinked (links : Links N) : Bool := links.prev.isNone && links.next.isNone

/-- Point a neighbour forward, if there is one. -/
def setNext (links : N → Links N) (node : Option N) (next : Option N) : N → Links N :=
  match node with
  | some node => Function.update links node { links node with next }
  | none => links

/-- Point a neighbour back, if there is one. -/
def setPrev (links : N → Links N) (node : Option N) (prev : Option N) : N → Links N :=
  match node with
  | some node => Function.update links node { links node with prev }
  | none => links

/-- Forget the links of a node without touching any queue. -/
def clearLinks (links : N → Links N) (node : N) : N → Links N := Function.update links node {}

/-- Append a node to the tail of a queue. -/
def pushBack (links : N → Links N) (ends : QueueEnds N) (node : N) :
    (N → Links N) × QueueEnds N :=
  let fresh := Function.update links node { prev := ends.tail, next := none }
  match ends.tail with
  | some tail => (setNext fresh (some tail) (some node), { ends with tail := some node })
  | none => (fresh, { head := some node, tail := some node })

/-- Unlink a node from the queue it is assumed to be on. -/
def remove (links : N → Links N) (ends : QueueEnds N) (node : N) :
    (N → Links N) × QueueEnds N :=
  let prev := (links node).prev
  let next := (links node).next
  let links := setNext links prev next
  let ends := if prev.isNone then { ends with head := next } else ends
  let links := setPrev links next prev
  let ends := if next.isNone then { ends with tail := prev } else ends
  (clearLinks links node, ends)

/-- Remove the first node of a queue and name it. -/
def popFront (links : N → Links N) (ends : QueueEnds N) :
    Option (N × (N → Links N) × QueueEnds N) :=
  match ends.head with
  | none => none
  | some head =>
    let next := (links head).next
    let links := setPrev links next none
    let ends := if next.isNone then { ends with tail := none } else ends
    some (head, clearLinks links head, { ends with head := next })

/-- Whether following successors from a node arrives at another within a number of steps. -/
def reaches (links : N → Links N) (node : N) : Nat → Option N → Bool
  | 0, _ => false
  | _ + 1, none => false
  | steps + 1, some at' => at' == node || reaches links node steps (links at').next

end Operations

variable {N : Type*} {links links' : N → Links N} {ends : QueueEnds N} {node : N}
  {l pre post : List N}

/-- Following successors from a node visits exactly this list. -/
structure Forward (links : N → Links N) (head : Option N) (l : List N) : Prop where
  head : head = l.head?
  next : ∀ pre n post, l = pre ++ n :: post → (links n).next = post.head?

/-- The links of the listed nodes and the ends spell out one list. -/
structure IsQueue (links : N → Links N) (ends : QueueEnds N) (l : List N) : Prop where
  nodup : l.Nodup
  head : ends.head = l.head?
  tail : ends.tail = l.getLast?
  links : ∀ pre n post, l = pre ++ n :: post → links n = ⟨pre.getLast?, post.head?⟩

theorem IsQueue.forward (queue : IsQueue links ends l) : Forward links ends.head l :=
  ⟨queue.head, fun pre n post split => by rw [queue.links pre n post split]⟩

theorem Forward.tail {n : N} {rest : List N} (forward : Forward links (some n) (n :: rest)) :
    Forward links (links n).next rest := by
  refine ⟨forward.next [] n rest rfl, fun pre m post split => ?_⟩
  exact forward.next (n :: pre) m post (by rw [split, List.cons_append])

/-- A walk only depends on the links of the nodes it visits. -/
theorem Forward.congr {head : Option N} (forward : Forward links head l)
    (agree : ∀ n ∈ l, links' n = links n) : Forward links' head l := by
  refine ⟨forward.head, fun pre n post split => ?_⟩
  rw [agree n (by simp [split]), forward.next pre n post split]

theorem IsQueue.congr (queue : IsQueue links ends l) (agree : ∀ n ∈ l, links' n = links n) :
    IsQueue links' ends l := by
  refine ⟨queue.nodup, queue.head, queue.tail, fun pre n post split => ?_⟩
  rw [agree n (by simp [split]), queue.links pre n post split]

/-- A queue with no head is empty. -/
theorem IsQueue.eq_nil (queue : IsQueue links ends l) (empty : ends.head = none) : l = [] := by
  rw [queue.head] at empty
  exact List.head?_eq_none_iff.mp empty

/-- So are its two ends. -/
theorem IsQueue.ends_eq (queue : IsQueue links ends l) (empty : ends.head = none) : ends = {} := by
  have tail := queue.tail
  rw [queue.eq_nil empty, List.getLast?_nil] at tail
  cases ends
  simp_all

theorem IsQueue.empty : IsQueue links {} ([] : List N) :=
  ⟨List.nodup_nil, rfl, rfl, fun pre n post split => by simp at split⟩

variable [DecidableEq N]

/-- A walk long enough for its list finds exactly the listed nodes. -/
theorem Forward.reaches_iff {head : Option N} {steps : Nat} (forward : Forward links head l)
    (enough : l.length ≤ steps) : reaches links node steps head = true ↔ node ∈ l := by
  induction l generalizing head steps with
  | nil =>
    rw [forward.head]
    cases steps <;> simp [reaches]
  | cons n rest ih =>
    obtain ⟨steps, rfl⟩ : ∃ k, steps = k + 1 := ⟨steps - 1, by simp at enough; omega⟩
    have start : head = some n := forward.head
    subst start
    have shorter : rest.length ≤ steps := by simpa using enough
    rw [reaches, Bool.or_eq_true, beq_iff_eq, ih forward.tail shorter, List.mem_cons, eq_comm]

omit [DecidableEq N] in
/-- A node of a list without repeats determines what comes before and after it. -/
theorem eq_of_split {pre' post' : List N} (nodup : (pre ++ node :: post).Nodup)
    (split : pre ++ node :: post = pre' ++ node :: post') : pre = pre' ∧ post = post' := by
  induction pre generalizing pre' with
  | nil =>
    cases pre' with
    | nil => simpa using split
    | cons first rest =>
      simp only [List.nil_append, List.cons_append, List.cons.injEq] at split
      obtain ⟨rfl, same⟩ := split
      simp [same] at nodup
  | cons first rest ih =>
    cases pre' with
    | nil =>
      simp only [List.nil_append, List.cons_append, List.cons.injEq] at split
      obtain ⟨rfl, same⟩ := split
      simp at nodup
    | cons first' rest' =>
      simp only [List.cons_append, List.cons.injEq] at split
      obtain ⟨rfl, same⟩ := split
      have := ih (by simpa using (List.nodup_cons.mp nodup).2) same
      simp [this]

/-- Appending a node that is not queued here extends the list. -/
theorem IsQueue.pushBack (queue : IsQueue links ends l) (fresh : node ∉ l) :
    IsQueue (pushBack links ends node).1 (pushBack links ends node).2 (l ++ [node]) := by
  have nodup : (l ++ [node]).Nodup := by
    rw [List.nodup_append]
    exact ⟨queue.nodup, by simp, fun a ha b hb => by
      rw [List.mem_singleton] at hb
      exact fun same => fresh (hb ▸ same ▸ ha)⟩
  rcases List.eq_nil_or_concat l with rfl | ⟨front, last, rfl⟩
  · have noTail : ends.tail = none := queue.tail
    simp only [Lib.pushBack, noTail]
    refine ⟨nodup, by simp, by simp, fun pre n post split => ?_⟩
    obtain ⟨rfl, rfl⟩ : pre = [] ∧ post = [] := by
      rcases pre with _ | ⟨a, pre⟩ <;> simp_all
    obtain rfl : node = n := by simpa using split
    simp
  · rw [List.concat_eq_append] at *
    have hasTail : ends.tail = some last := by simp [queue.tail]
    have other : last ≠ node := by rintro rfl; simp at fresh
    simp only [Lib.pushBack, hasTail, setNext]
    refine ⟨nodup, ?_, by simp, fun pre n post split => ?_⟩
    · rw [queue.head]
      simp [List.head?_append]
    · -- Split on whether the node looked at is the new one, the old tail, or further up.
      rcases List.eq_nil_or_concat post with rfl | ⟨post', final, rfl⟩
      · have := List.append_inj' split rfl
        obtain ⟨rfl, same⟩ := this
        obtain rfl : node = n := by simpa using same
        rw [update_of_ne other.symm, update_self]
        simp
      · rw [List.concat_eq_append] at *
        have shape : front ++ [last] ++ [node] = (pre ++ n :: post') ++ [final] := by
          simp [split]
        obtain ⟨same, final'⟩ := List.append_inj' shape rfl
        obtain rfl : node = final := by simpa using final'
        have old := queue.links pre n post' same
        have queued : n ∈ front ++ [last] := by simp [same]
        have notNew : n ≠ node := fun eq => fresh (eq ▸ queued)
        by_cases atLast : n = last
        · subst atLast
          obtain ⟨rfl, rfl⟩ := eq_of_split queue.nodup same
          rw [update_self, update_of_ne other, old]
          simp
        · have more : post' ≠ [] := by
            rintro rfl
            have := List.append_inj' same rfl
            simp at this
            exact atLast this.2.symm
          rw [update_of_ne atLast, update_of_ne notNew, old]
          obtain ⟨first, rest, rfl⟩ := List.exists_cons_of_ne_nil more
          simp

/-- Only the new node and the old tail are touched. -/
theorem pushBack_links_of_ne {n : N} (notNew : n ≠ node) (notTail : ends.tail ≠ some n) :
    (pushBack links ends node).1 n = links n := by
  unfold Lib.pushBack
  split
  · rename_i tail hasTail
    have other : n ≠ tail := by rintro rfl; exact notTail hasTail
    simp [setNext, other, notNew]
  · simp [notNew]

/-- The links left by a removal, given the node's neighbours. -/
theorem remove_links {prev next : Option N} (neighbours : links node = ⟨prev, next⟩) (n : N) :
    (remove links ends node).1 n =
      if n = node then {} else
        ⟨if next = some n then prev else (links n).prev,
          if prev = some n then next else (links n).next⟩ := by
  simp only [Lib.remove, neighbours, clearLinks, update_apply]
  split
  · rfl
  · cases prev <;> cases next <;> simp only [setNext, setPrev, update_apply] <;>
      ext : 1 <;> grind

/-- Removing a node of the list closes the gap. -/
theorem IsQueue.remove (queue : IsQueue links ends (pre ++ node :: post)) :
    IsQueue (remove links ends node).1 (remove links ends node).2 (pre ++ post) := by
  have neighbours := queue.links pre node post rfl
  have nodup := queue.nodup
  have sub : (pre ++ post).Nodup := by
    rw [List.nodup_append, List.nodup_cons] at nodup
    rw [List.nodup_append]
    exact ⟨nodup.1, nodup.2.1.2, fun a ha b hb => nodup.2.2 a ha b (List.mem_cons_of_mem _ hb)⟩
  have absent : node ∉ pre ∧ node ∉ post := by
    rw [List.nodup_append, List.nodup_cons] at nodup
    exact ⟨fun h => nodup.2.2 node h node (by simp) rfl, nodup.2.1.1⟩
  have lastNotIn : ∀ {n}, n ∈ post → pre.getLast? ≠ some n := by
    intro n inPost isLast
    exact (List.nodup_append.mp sub).2.2 n (List.mem_of_getLast? isLast) n inPost rfl
  have headNotIn : ∀ {n}, n ∈ pre → post.head? ≠ some n := by
    intro n inPre isHead
    exact (List.nodup_append.mp sub).2.2 n inPre n (List.mem_of_head? isHead) rfl
  refine ⟨sub, ?_, ?_, fun pre' n post' split => ?_⟩
  · simp only [Lib.remove, neighbours]
    have old := queue.head
    rcases pre with _ | ⟨first, rest⟩ <;> rcases post with _ | ⟨first', rest'⟩ <;> simp_all
  · simp only [Lib.remove, neighbours]
    have old := queue.tail
    rcases List.eq_nil_or_concat post with rfl | ⟨front, last, rfl⟩
    · rcases pre with _ | ⟨first, rest⟩ <;> simp_all
    · rw [if_neg (by simp)]
      split
      all_goals
        rw [old]
        simp [List.getLast?_append, List.getLast?_cons]
  · rw [remove_links neighbours]
    have queued : n ∈ pre ++ post := by simp [split]
    have other : n ≠ node := by
      rintro rfl
      rw [List.mem_append] at queued
      exact queued.elim absent.1 absent.2
    rw [if_neg other]
    -- The node looked at is before or after the gap, and next to it or further away.
    rcases List.append_eq_append_iff.mp split with ⟨mid, rfl, rfl⟩ | ⟨mid, rfl, shape⟩
    · have old := queue.links (pre ++ node :: mid) n post' (by simp)
      rw [if_neg (lastNotIn (by simp)), old]
      rcases mid with _ | ⟨first, rest⟩
      · simp
      · have away : (first :: rest ++ n :: post').head? ≠ some n := by
          rw [List.cons_append, List.head?_cons]
          intro same
          have := (List.nodup_append.mp sub).2.1
          simp_all
        rw [if_neg away]
        simp
    · rcases mid with _ | ⟨first, rest⟩
      · have here : n :: post' = post := by simpa using shape
        subst here
        have old := queue.links (pre' ++ [] ++ [node]) n post' (by simp)
        rw [if_neg (lastNotIn (by simp)), old]
        simp
      · obtain ⟨rfl, rfl⟩ : n = first ∧ post' = rest ++ post := by simpa using shape
        have old := queue.links pre' n (rest ++ node :: post) (by simp)
        rw [if_neg (headNotIn (by simp)), old]
        rcases rest with _ | ⟨second, more⟩
        · simp
        · have away : (pre' ++ n :: second :: more).getLast? ≠ some n := by
            intro same
            have last : (second :: more).getLast? = some n := by simpa using same
            have := (List.nodup_append.mp sub).1
            have inRest := List.mem_of_getLast? last
            rw [List.nodup_append, List.nodup_cons] at this
            exact this.2.1.1 inRest
          rw [if_neg away]
          simp

/-- Only the node itself and its two neighbours are touched. -/
theorem IsQueue.remove_links_of_not_mem {n : N} (queue : IsQueue links ends (pre ++ node :: post))
    (outside : n ∉ pre ++ node :: post) : (Lib.remove links ends node).1 n = links n := by
  rw [remove_links (queue.links pre node post rfl)]
  simp only [List.mem_append, List.mem_cons, not_or] at outside
  have notLast : pre.getLast? ≠ some n := fun h => outside.1 (List.mem_of_getLast? h)
  have notHead : post.head? ≠ some n := fun h => outside.2.2 (List.mem_of_head? h)
  rw [if_neg outside.2.1, if_neg notHead, if_neg notLast]

/-- Popping is removing the head. -/
theorem IsQueue.popFront_eq {rest : List N} (queue : IsQueue links ends (node :: rest)) :
    popFront links ends = some (node, Lib.remove links ends node) := by
  have start : ends.head = some node := queue.head
  have neighbours : links node = ⟨none, rest.head?⟩ := queue.links [] node rest rfl
  simp only [Lib.popFront, Lib.remove, start, neighbours, setNext, Option.isNone_none, if_true]
  split <;> simp_all

/--
Queues that share one pair of links per node, each standing for its list.

A loose node is on no queue but may still carry links of a queue that was torn down.
-/
structure Family {P : Type*} (links : N → Links N) (ends : P → QueueEnds N) (lists : P → List N)
    (loose : N → Prop) : Prop where
  queue : ∀ p, IsQueue links (ends p) (lists p)
  apart : ∀ p p' n, n ∈ lists p → n ∈ lists p' → p = p'
  unlinked : ∀ n, (∀ p, n ∉ lists p) → ¬ loose n → links n = {}

namespace Family

variable {P : Type*} [DecidableEq P] {ends : P → QueueEnds N} {lists : P → List N}
  {loose : N → Prop} {p : P}

/-- A node that is on no queue may join one. -/
theorem pushBack (family : Family links ends lists loose) (p : P)
    (fresh : ∀ p', node ∉ lists p') :
    Family (pushBack links (ends p) node).1
      (update ends p (Lib.pushBack links (ends p) node).2)
      (update lists p (lists p ++ [node])) loose := by
  have untouched : ∀ {n}, n ≠ node → n ∉ lists p →
      (Lib.pushBack links (ends p) node).1 n = links n := by
    intro n notNew outside
    refine pushBack_links_of_ne notNew fun isTail => outside ?_
    exact List.mem_of_getLast? ((family.queue p).tail ▸ isTail)
  have member : ∀ {p' n}, n ∈ update lists p (lists p ++ [node]) p' →
      n ∈ lists p' ∨ n = node ∧ p' = p := by
    intro p' n inList
    by_cases here : p' = p
    · subst here
      simpa using inList
    · rw [update_of_ne here] at inList
      exact .inl inList
  refine ⟨fun p' => ?_, fun p₁ p₂ n first second => ?_, fun n outside tight => ?_⟩
  · by_cases here : p' = p
    · subst here
      simpa using (family.queue p').pushBack (fresh p')
    · rw [update_of_ne here, update_of_ne here]
      refine (family.queue p').congr fun n inList => untouched ?_ ?_
      · exact fun same => fresh p' (same ▸ inList)
      · exact fun inOther => here (family.apart p' p n inList inOther)
  · rcases member first with old | ⟨rfl, rfl⟩ <;> rcases member second with old' | ⟨same, rfl⟩
    · exact family.apart p₁ p₂ n old old'
    · exact absurd (same ▸ old) (fresh p₁)
    · exact absurd old' (fresh p₂)
    · rfl
  · have old : ∀ p', n ∉ lists p' := by
      intro p' inList
      refine outside p' ?_
      by_cases here : p' = p
      · subst here
        simp [inList]
      · rwa [update_of_ne here]
    have notNew : n ≠ node := by
      rintro rfl
      exact outside p (by simp)
    rw [untouched notNew (old p)]
    exact family.unlinked n old tight

/-- A queued node may leave its queue. -/
theorem remove (family : Family links ends lists loose) {pre post : List N}
    (split : lists p = pre ++ node :: post) :
    Family (remove links (ends p) node).1
      (update ends p (Lib.remove links (ends p) node).2)
      (update lists p (pre ++ post)) loose := by
  have queue := family.queue p
  rw [split] at queue
  have inList : node ∈ lists p := by simp [split]
  have absent : node ∉ pre ++ post := by
    have := queue.nodup
    rw [List.nodup_middle, List.nodup_cons] at this
    exact this.1
  have shrinks : ∀ {p' n}, n ∈ update lists p (pre ++ post) p' → n ∈ lists p' := by
    intro p' n here
    by_cases same : p' = p
    · subst same
      rw [update_self] at here
      rw [split]
      simp only [List.mem_append, List.mem_cons] at here ⊢
      tauto
    · rwa [update_of_ne same] at here
  refine ⟨fun p' => ?_, fun p₁ p₂ n first second => ?_, fun n outside tight => ?_⟩
  · by_cases here : p' = p
    · subst here
      simpa using queue.remove
    · rw [update_of_ne here, update_of_ne here]
      refine (family.queue p').congr fun n other => queue.remove_links_of_not_mem ?_
      rw [← split]
      exact fun inOther => here (family.apart p' p n other inOther)
  · exact family.apart p₁ p₂ n (shrinks first) (shrinks second)
  · by_cases removed : n = node
    · rw [remove_links (queue.links pre node post rfl), if_pos removed]
    · have old : ∀ p', n ∉ lists p' := by
        intro p' here
        refine outside p' ?_
        by_cases same : p' = p
        · subst same
          rw [split] at here
          rw [update_self]
          simp only [List.mem_append, List.mem_cons] at here ⊢
          tauto
        · rwa [update_of_ne same]
      rw [queue.remove_links_of_not_mem (split ▸ old p)]
      exact family.unlinked n old tight

omit [DecidableEq P] in
/-- A loose node may forget its links, and is loose no longer. -/
theorem clearLinks (family : Family links ends lists loose) (free : ∀ p, node ∉ lists p) :
    Family (clearLinks links node) ends lists (fun n => loose n ∧ n ≠ node) := by
  refine ⟨fun p => ?_, family.apart, fun n outside tight => ?_⟩
  · refine (family.queue p).congr fun n inList => ?_
    have other : n ≠ node := by
      rintro rfl
      exact free p inList
    exact update_of_ne other ..
  · by_cases here : n = node
    · rw [here]
      exact update_self ..
    · rw [Lib.clearLinks, update_of_ne here]
      exact family.unlinked n outside fun isLoose => tight ⟨isLoose, here⟩

omit [DecidableEq N] in
/-- A queue may keep some of its nodes, in any order, and leave the others loose. -/
theorem divide (family : Family links ends lists loose) {kept : QueueEnds N} {keeps others : List N}
    (perm : (keeps ++ others).Perm (lists p)) (queue : IsQueue links' kept keeps)
    (same : ∀ n ∉ lists p, links' n = links n) :
    Family links' (update ends p kept) (update lists p keeps)
      (fun n => loose n ∨ n ∈ others) := by
  have shrinks : ∀ {p' n}, n ∈ update lists p keeps p' → n ∈ lists p' := by
    intro p' n here
    by_cases same : p' = p
    · subst same
      rw [update_self] at here
      exact perm.mem_iff.mp (List.mem_append_left _ here)
    · rwa [update_of_ne same] at here
  refine ⟨fun p' => ?_, fun p₁ p₂ n first second => ?_, fun n outside tight => ?_⟩
  · by_cases here : p' = p
    · subst here
      simpa using queue
    · rw [update_of_ne here, update_of_ne here]
      exact (family.queue p').congr fun n inList =>
        same n fun inOther => here (family.apart p' p n inList inOther)
  · exact family.apart p₁ p₂ n (shrinks first) (shrinks second)
  · -- A node on no queue now was on none before, or was let go just now.
    have old : ∀ p', n ∉ lists p' := by
      intro p' here
      by_cases same : p' = p
      · subst same
        rcases List.mem_append.mp (perm.mem_iff.mpr here) with stays | goes
        · exact outside p' (by simpa using stays)
        · exact tight (.inr goes)
      · exact outside p' (by rwa [update_of_ne same])
    rw [same n (old p)]
    exact family.unlinked n old fun isLoose => tight (.inl isLoose)

end Family

end Rel4.Lib
