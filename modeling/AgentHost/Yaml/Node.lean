import AgentHost.Yaml.Token
/-!
# The tree of a document

A document is a tree of scalars, sequences and mappings. An alias stands for a
node elsewhere in the tree, named by the number of its anchor.

A text with a fault in it has a tree up to the fault. What is missing is marked
by `broken`, which then is the last leaf of the tree: behind the last item that
was read, or in the place of the key or value that was not. `isWhole` says that a
tree has no such mark.
-/

namespace AgentHost.Yaml

/-- A node of the tree, with the place where it starts. -/
inductive Node where
  | scalar (mark : Mark) (anchor : Option Nat) (tag : Option (List Char)) (text : List Char)
    (style : Style)
  | sequence (mark : Mark) (anchor : Option Nat) (tag : Option (List Char)) (items : List Node)
  | mapping (mark : Mark) (anchor : Option Nat) (tag : Option (List Char))
    (entries : List (Node × Node))
  | alias (mark : Mark) (anchor : Nat)
  | broken
  deriving Repr, Inhabited

namespace Node

/-- A node that is not written: an empty plain scalar. -/
def empty (mark : Mark) : Node := .scalar mark none none [] .plain

mutual

/-- Nothing is missing in the tree. -/
def isWhole : Node → Bool
  | .scalar .. => true
  | .sequence _ _ _ items => areWhole items
  | .mapping _ _ _ entries => entriesAreWhole entries
  | .alias .. => true
  | .broken => false

/-- Nothing is missing in any of the trees. -/
def areWhole : List Node → Bool
  | [] => true
  | n :: rest => n.isWhole && areWhole rest

/-- Nothing is missing in any key or value. -/
def entriesAreWhole : List (Node × Node) → Bool
  | [] => true
  | (k, v) :: rest => k.isWhole && v.isWhole && entriesAreWhole rest

end

mutual

/-- The nodes of the tree with that anchor, in the order of the text. -/
def anchored (slot : Nat) : Node → List Node
  | .scalar m a t x s => if a = some slot then [.scalar m a t x s] else []
  | .sequence m a t items =>
    (if a = some slot then [.sequence m a t items] else []) ++ anchoredItems slot items
  | .mapping m a t entries =>
    (if a = some slot then [.mapping m a t entries] else []) ++ anchoredEntries slot entries
  | .alias .. => []
  | .broken => []

/-- The nodes with that anchor in some trees. -/
def anchoredItems (slot : Nat) : List Node → List Node
  | [] => []
  | n :: rest => n.anchored slot ++ anchoredItems slot rest

/-- The nodes with that anchor in some keys and values. -/
def anchoredEntries (slot : Nat) : List (Node × Node) → List Node
  | [] => []
  | (k, v) :: rest => k.anchored slot ++ v.anchored slot ++ anchoredEntries slot rest

end

/-- The node that an alias in the tree stands for: the last one with its anchor. -/
def target? (root : Node) (slot : Nat) : Option Node :=
  (root.anchored slot).getLast?

end Node

/-- What a text says: the tree of its first document, the fault that ended it if
one did, and whether anything follows. -/
structure Document where
  root : Node
  fault : Option Fault
  more : Bool

end AgentHost.Yaml
