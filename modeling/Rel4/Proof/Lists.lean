import Rel4.Kernel.List

/-!
The intrusive lists stand for finite sequences.

Each queue is one sequence, and no node is on two of them. A node that is on none may still have links of its own.
-/

namespace Rel4

open Lib

variable {P N : Type*} [DecidableEq P] [DecidableEq N]

/-- The sequences, and the nodes on none of them whose links may be anything. -/
structure Sequences (P N : Type*) where
  lists : P → List N
  loose : N → Prop

namespace Sequences

variable (a : Sequences P N)

/-- A node joins the end of a queue. -/
def append (p : P) (node : N) : Sequences P N where
  lists := Function.update a.lists p (a.lists p ++ [node])
  loose := fun n => a.loose n ∧ n ≠ node

/-- A node leaves a queue, if it is there, and forgets its links. -/
def delete (p : P) (node : N) : Sequences P N :=
  if node ∈ a.lists p then
    { lists := Function.update a.lists p ((a.lists p).erase node), loose := fun n => a.loose n ∧ n ≠ node }
  else a

/-- The node that follows another, on whichever queue it is. -/
def Follows (node : N) (next : Option N) : Prop := ∃ p pre post, a.lists p = pre ++ node :: post ∧ next = post.head?

/-- What an operation needs: to append, a node on no queue; to remove, one on the queue; and enough steps to walk. -/
def Allows (steps : Nat) : ListOp P N → Prop
  | .pushBack _ node => ∀ p, node ∉ a.lists p
  | .popFront _ => True
  | .remove p node => node ∈ a.lists p
  | .removeIfPresent p _ | .contains p _ => (a.lists p).length ≤ steps
  | .nextOf node => ∃ p, node ∈ a.lists p

/-- What an operation on sequences answers, and what it leaves. -/
inductive Step : Sequences P N → ListOp P N → ListAnswer N → Sequences P N → Prop
  | pushBack {a : Sequences P N} (p : P) (node : N) : Step a (.pushBack p node) .done (a.append p node)
  | popEmpty {a : Sequences P N} (p : P) (empty : a.lists p = []) : Step a (.popFront p) (.node none) a
  | popFront {a : Sequences P N} {p : P} {node : N} {rest : List N} (first : a.lists p = node :: rest) :
      Step a (.popFront p) (.node (some node)) (a.delete p node)
  | remove {a : Sequences P N} (p : P) (node : N) : Step a (.remove p node) .done (a.delete p node)
  | removeIfPresent {a : Sequences P N} (p : P) (node : N) :
      Step a (.removeIfPresent p node) (.found (decide (node ∈ a.lists p))) (a.delete p node)
  | contains {a : Sequences P N} (p : P) (node : N) : Step a (.contains p node) (.found (decide (node ∈ a.lists p))) a
  | nextOf {a : Sequences P N} {node : N} {next : Option N} (follows : a.Follows node next) :
      Step a (.nextOf node) (.node next) a

/-- A run of operations on sequences, each of them allowed where it happens. -/
inductive Steps (steps : Nat) : Sequences P N → List (ListOp P N) → List (ListAnswer N) → Sequences P N → Prop
  | nil {a : Sequences P N} : Steps steps a [] [] a
  | cons {a b c : Sequences P N} {op : ListOp P N} {ops : List (ListOp P N)} {answer : ListAnswer N}
      {answers : List (ListAnswer N)} (allowed : a.Allows steps op) (step : Step a op answer b)
      (rest : Steps steps b ops answers c) : Steps steps a (op :: ops) (answer :: answers) c

end Sequences

/-- The lists are well linked, and stand for these sequences. -/
def Lists.StandsFor (s : Lists P N) (a : Sequences P N) : Prop := Family s.links s.ends a.lists a.loose

section Steps

variable {s : Lists P N} {a b : Sequences P N} {p : P} {node : N} {steps : Nat} {op : ListOp P N} {answer : ListAnswer N}

theorem standsFor_pushBack (stands : s.StandsFor a) (fresh : ∀ p, node ∉ a.lists p) :
    (s.pushBack p node).StandsFor (a.append p node) := by
  have family := Family.pushBack stands p fresh
  refine ⟨family.queue, family.apart, fun n outside tight => family.unlinked n outside fun loose => tight ⟨loose, ?_⟩⟩
  -- The node is on a queue now.
  rintro rfl
  exact outside p (by simp [Sequences.append])

theorem standsFor_remove (stands : s.StandsFor a) (mem : node ∈ a.lists p) :
    (s.remove p node).StandsFor (a.delete p node) := by
  obtain ⟨pre, post, split⟩ := List.append_of_mem mem
  have queue := stands.queue p
  rw [split] at queue
  have outside : node ∉ pre := by
    have nodup := queue.nodup
    rw [List.nodup_middle, List.nodup_cons] at nodup
    exact fun early => nodup.1 (List.mem_append_left _ early)
  have erased : (a.lists p).erase node = pre ++ post := by
    rw [split, List.erase_append_right _ outside, List.erase_cons_head]
  have unlinked : (s.remove p node).links node = {} := by
    show (Lib.remove s.links (s.ends p) node).1 node = {}
    rw [remove_links (queue.links pre node post rfl), if_pos rfl]
  have family := Family.remove stands split
  rw [Lists.StandsFor, Sequences.delete, if_pos mem, erased]
  refine ⟨family.queue, family.apart, fun n free tight => ?_⟩
  -- The removed node has no links, and any other one was as tight before.
  by_cases removed : n = node
  · rw [removed]
    exact unlinked
  · exact family.unlinked n free fun loose => tight ⟨loose, removed⟩

theorem popFront_empty (stands : s.StandsFor a) (empty : a.lists p = []) : s.popFront p = (none, s) := by
  have head : (s.ends p).head = none := by rw [(stands.queue p).head, empty, List.head?_nil]
  rw [Lists.popFront, Lib.popFront, head]

/-- The first node is removed as any other would be. -/
theorem popFront_first {rest : List N} (stands : s.StandsFor a) (first : a.lists p = node :: rest) :
    s.popFront p = (some node, s.remove p node) := by
  have queue := stands.queue p
  rw [first] at queue
  rw [Lists.popFront, queue.popFront_eq]
  rfl

omit [DecidableEq P] in
theorem contains_eq (node : N) (stands : s.StandsFor a) (enough : (a.lists p).length ≤ steps) :
    s.contains steps p node = decide (node ∈ a.lists p) := by
  have reached : reaches s.links node steps (s.ends p).head = true ↔ _ :=
    (stands.queue p).forward.reaches_iff enough
  rw [Bool.eq_iff_iff, decide_eq_true_iff]
  exact reached

theorem standsFor_removeIfPresent (node : N) (stands : s.StandsFor a) (enough : (a.lists p).length ≤ steps) :
    (s.removeIfPresent steps p node).1 = decide (node ∈ a.lists p) ∧
      (s.removeIfPresent steps p node).2.StandsFor (a.delete p node) := by
  rw [Lists.removeIfPresent, contains_eq node stands enough]
  by_cases mem : node ∈ a.lists p
  · simp only [mem, decide_true, if_true, true_and]
    exact standsFor_remove stands mem
  · simp only [mem, decide_false, Bool.false_eq_true, if_false, true_and, Sequences.delete]
    exact stands

omit [DecidableEq P] [DecidableEq N] in
theorem nextOf_eq {next : Option N} (stands : s.StandsFor a) (follows : a.Follows node next) : s.nextOf node = next := by
  obtain ⟨q, pre, post, split, rfl⟩ := follows
  rw [Lists.nextOf, (stands.queue q).links pre node post split]

/-- One operation does to the links what it does to the sequences. -/
theorem standsFor_step (stands : s.StandsFor a) (allowed : a.Allows steps op) (step : Sequences.Step a op answer b) :
    (s.run steps op).1 = answer ∧ (s.run steps op).2.StandsFor b := by
  cases step with
  | pushBack p node => exact ⟨rfl, standsFor_pushBack stands allowed⟩
  | popEmpty p empty =>
    rw [Lists.run, popFront_empty stands empty]
    exact ⟨rfl, stands⟩
  | popFront first =>
    rw [Lists.run, popFront_first stands first]
    exact ⟨rfl, standsFor_remove stands (first ▸ List.mem_cons_self ..)⟩
  | remove p node => exact ⟨rfl, standsFor_remove stands allowed⟩
  | removeIfPresent p node =>
    have removed := standsFor_removeIfPresent node stands allowed
    exact ⟨congrArg ListAnswer.found removed.1, removed.2⟩
  | contains p node => exact ⟨congrArg ListAnswer.found (contains_eq node stands allowed), stands⟩
  | nextOf follows => exact ⟨congrArg ListAnswer.node (nextOf_eq stands follows), stands⟩

/-- Every run of list operations answers as the run on the sequences does and leaves lists for its sequences; a node that
was removed has no links. -/
theorem lists_refine_sequences {ops : List (ListOp P N)} {answers : List (ListAnswer N)} (stands : s.StandsFor a)
    (run : Sequences.Steps steps a ops answers b) :
    (s.runs steps ops).1 = answers ∧ (s.runs steps ops).2.StandsFor b ∧
      ∀ node, (∀ p, node ∉ b.lists p) → ¬ b.loose node → (s.runs steps ops).2.links node = {} := by
  suffices (s.runs steps ops).1 = answers ∧ (s.runs steps ops).2.StandsFor b from
    ⟨this.1, this.2, this.2.unlinked⟩
  -- By induction on the run; each step goes on from lists that stand for the sequences so far.
  induction run generalizing s with
  | nil => exact ⟨rfl, stands⟩
  | cons allowed step rest ih =>
    obtain ⟨answered, stands'⟩ := standsFor_step stands allowed step
    obtain ⟨answers', last⟩ := ih stands'
    exact ⟨congrArg₂ List.cons answered answers', last⟩

/-- A node joins the first of two queues and is removed again, with no other node there. -/
theorem lists_refine_sequences_single :
    ((⟨fun _ => {}, fun _ => {}⟩ : Lists Bool Nat).runs 1 [.pushBack true 7, .removeIfPresent true 7]).1 =
      [.done, .found true] := by
  let start : Sequences Bool Nat := ⟨fun _ => [], fun _ => False⟩
  have stands : (⟨fun _ => {}, fun _ => {}⟩ : Lists Bool Nat).StandsFor start :=
    ⟨fun _ => IsQueue.empty, fun _ _ n mem => absurd mem (List.not_mem_nil), fun _ _ _ => rfl⟩
  have joins : start.Allows 1 (.pushBack true 7) := fun _ => List.not_mem_nil
  have walks : (start.append true 7).Allows 1 (.removeIfPresent true 7) := by
    simp [Sequences.Allows, Sequences.append, start]
  exact (lists_refine_sequences stands (.cons joins (.pushBack true 7) (.cons walks (.removeIfPresent true 7) .nil))).1

end Steps

end Rel4
