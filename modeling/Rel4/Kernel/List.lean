import Rel4.Lib.Queue

/-! The intrusive lists of the kernel: many queues, and one pair of links in every node. -/

namespace Rel4

/-- The links of all nodes, and the ends of all queues. -/
structure Lists (P N : Type*) where
  links : N → Lib.Links N
  ends : P → Lib.QueueEnds N

namespace Lists

variable {P N : Type*} [DecidableEq P] [DecidableEq N] (s : Lists P N)

def nextOf (node : N) : Option N := (s.links node).next

def pushBack (p : P) (node : N) : Lists P N :=
  let (links, ends) := Lib.pushBack s.links (s.ends p) node
  { links, ends := Function.update s.ends p ends }

def popFront (p : P) : Option N × Lists P N :=
  match Lib.popFront s.links (s.ends p) with
  | none => (none, s)
  | some (head, links, ends) => (some head, { links, ends := Function.update s.ends p ends })

def remove (p : P) (node : N) : Lists P N :=
  let (links, ends) := Lib.remove s.links (s.ends p) node
  { links, ends := Function.update s.ends p ends }

/-- Walk from the head, for so many nodes at most. -/
def contains (steps : Nat) (p : P) (node : N) : Bool := Lib.reaches s.links node steps (s.ends p).head

def removeIfPresent (steps : Nat) (p : P) (node : N) : Bool × Lists P N :=
  if s.contains steps p node then (true, s.remove p node) else (false, s)

end Lists

/-- The operations on lists. -/
inductive ListOp (P N : Type*)
  | pushBack (p : P) (node : N)
  | popFront (p : P)
  | remove (p : P) (node : N)
  | removeIfPresent (p : P) (node : N)
  | contains (p : P) (node : N)
  | nextOf (node : N)

/-- What an operation answers, if anything. -/
inductive ListAnswer (N : Type*)
  | done
  | node (node : Option N)
  | found (present : Bool)

def Lists.run {P N : Type*} [DecidableEq P] [DecidableEq N] (steps : Nat) (s : Lists P N) :
    ListOp P N → ListAnswer N × Lists P N
  | .pushBack p node => (.done, s.pushBack p node)
  | .popFront p => (.node (s.popFront p).1, (s.popFront p).2)
  | .remove p node => (.done, s.remove p node)
  | .removeIfPresent p node => (.found (s.removeIfPresent steps p node).1, (s.removeIfPresent steps p node).2)
  | .contains p node => (.found (s.contains steps p node), s)
  | .nextOf node => (.node (s.nextOf node), s)

/-- One operation after the other, with all the answers. -/
def Lists.runs {P N : Type*} [DecidableEq P] [DecidableEq N] (steps : Nat) :
    List (ListOp P N) → Lists P N → List (ListAnswer N) × Lists P N
  | [], s => ([], s)
  | op :: ops, s =>
    let (answers, last) := runs steps ops (s.run steps op).2
    ((s.run steps op).1 :: answers, last)

end Rel4
