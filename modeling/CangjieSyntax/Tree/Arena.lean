import CangjieSyntax.Text.Quoted

/-!
# Arenas

The nodes of a tree lie in arenas, one for each sort of node, and refer to each other by their place
there. A new node gets the next place; cutting an arena back forgets the nodes allocated since.
-/

namespace CangjieSyntax

/-- The sorts of nodes. -/
inductive NodeSort where
  | expr
  | type
  | pattern
  | decl
  deriving DecidableEq, Inhabited

/-- The place of a node of the given sort. -/
structure NodeId (s : NodeSort) where
  index : Nat
  deriving DecidableEq, Inhabited

abbrev ExprId := NodeId .expr
abbrev TypeId := NodeId .type
abbrev PatternId := NodeId .pattern
abbrev DeclId := NodeId .decl

/-- What a sort is called in the name of a place. -/
def NodeSort.name : NodeSort → String
  | expr => "ExprId"
  | type => "TypeId"
  | pattern => "PatternId"
  | decl => "DeclId"

/-- The name of a place, `ExprId(3)`. -/
def NodeId.name {s : NodeSort} (id : NodeId s) : String :=
  s.name ++ "(" ++ toString id.index ++ ")"

/-- The nodes of one sort in the order of their allocation. -/
structure Arena (s : NodeSort) (α : Type) where
  nodes : Array α := #[]
  deriving DecidableEq, Inhabited

namespace Arena

variable {α : Type} {s : NodeSort}

/-- The arena without nodes. -/
def empty : Arena s α :=
  {}

/-- How many nodes there are. -/
def size (a : Arena s α) : Nat :=
  a.nodes.size

/-- The place that the next node gets. -/
def next (a : Arena s α) : NodeId s :=
  ⟨a.size⟩

/-- The arena with one more node. -/
def push (a : Arena s α) (node : α) : Arena s α :=
  ⟨a.nodes.push node⟩

/-- The node at a place. -/
def get? (a : Arena s α) (id : NodeId s) : Option α :=
  a.nodes[id.index]?

/-- The arena with no more than the first `n` nodes. -/
def truncate (a : Arena s α) (n : Nat) : Arena s α :=
  ⟨a.nodes.shrink n⟩

/-- Each node with its place, in order. -/
def entries (a : Arena s α) : List (NodeId s × α) :=
  a.nodes.toList.zipIdx.map fun entry => (⟨entry.2⟩, entry.1)

/-- The nodes in brackets, each shown by `f`. -/
def listing (a : Arena s α) (f : α → String) : String :=
  "[" ++ ", ".intercalate (a.nodes.toList.map f) ++ "]"

@[simp] theorem get?_push_next (a : Arena s α) (node : α) :
    (a.push node).get? a.next = some node := by
  simp [get?, push, next, size]

@[simp] theorem size_push (a : Arena s α) (node : α) : (a.push node).size = a.size + 1 := by
  simp [push, size]

theorem get?_push_of_lt {a : Arena s α} {node : α} {id : NodeId s} (h : id.index < a.size) :
    (a.push node).get? id = a.get? id := by
  have : id.index ≠ a.nodes.size := Nat.ne_of_lt h
  simp [get?, push, Array.getElem?_push, this]

end Arena

end CangjieSyntax
