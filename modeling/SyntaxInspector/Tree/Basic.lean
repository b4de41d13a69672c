/-! # Trees

A source text is parsed into an ordered tree.  A node carries what the grammar says about it (its
kind, whether the grammar names it, whether it stands for an error) and where it lies in the text.

* `Node` is a node without its children, `Tree` a node with its subtrees in document order;
* `Tree.size` counts the nodes of a tree;
* `Tree.ofPreorder?` builds a tree from its nodes in preorder, each with its number of children. -/

namespace SyntaxInspector

/-- A place in a text: row and column, both from 0, the column in bytes. -/
structure Point where
  row : Nat
  column : Nat
  deriving DecidableEq, Repr

/-- A node without its children. -/
structure Node where
  /-- The kind the grammar gives the node; for an anonymous token often its text. -/
  kind : String
  /-- The grammar has a name for the node; keywords and punctuation are anonymous. -/
  isNamed : Bool
  /-- The node holds text that fits nowhere in the grammar. -/
  isError : Bool
  /-- The node was put in because the grammar needs it here; it has no text. -/
  isMissing : Bool
  /-- The bytes of the text that the node covers. -/
  startByte : Nat
  endByte : Nat
  startPoint : Point
  endPoint : Point
  /-- The part the node plays in its parent. -/
  field : Option String := none
  /-- For an error of a single unexpected character, that character as it is to be shown. -/
  unexpected : Option String := none
  deriving DecidableEq, Repr

/-- A node with its subtrees in document order. -/
inductive Tree where
  | node (info : Node) (children : List Tree)
  deriving Repr

namespace Tree

/-- The root of the tree, without its children. -/
def info : Tree → Node
  | node n _ => n

/-- The subtrees below the root. -/
def children : Tree → List Tree
  | node _ cs => cs

@[simp] theorem info_node (n : Node) (cs : List Tree) : (node n cs).info = n := rfl

@[simp] theorem children_node (n : Node) (cs : List Tree) : (node n cs).children = cs := rfl

/-- The root has no children. -/
def isLeaf (t : Tree) : Bool := t.children.isEmpty

mutual

/-- The number of nodes of a tree. -/
def size : Tree → Nat
  | node _ cs => 1 + sizes cs

/-- The number of nodes of several trees. -/
def sizes : List Tree → Nat
  | [] => 0
  | t :: ts => t.size + sizes ts

end

theorem sizes_append (xs ys : List Tree) : sizes (xs ++ ys) = sizes xs + sizes ys := by
  induction xs with
  | nil => simp [sizes]
  | cons t ts ih => simp [sizes, ih, Nat.add_assoc]

theorem size_eq (t : Tree) : t.size = 1 + sizes t.children := by
  cases t
  simp [size]

/-- The trees that the nodes spell one after the other.  Read from the back, a node takes as many of
the trees behind it as it has children. -/
def forestOfPreorder? : List (Node × Nat) → Option (List Tree)
  | [] => some []
  | (n, count) :: rest => do
    let ts ← forestOfPreorder? rest
    guard (count ≤ ts.length)
    return node n (ts.take count) :: ts.drop count

/-- The tree with these nodes in preorder, each with its number of children. -/
def ofPreorder? (rows : List (Node × Nat)) : Option Tree :=
  match forestOfPreorder? rows with
  | some [t] => some t
  | _ => none

end Tree
end SyntaxInspector
