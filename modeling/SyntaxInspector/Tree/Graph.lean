import SyntaxInspector.Tree.Walk

/-! # Trees as graphs

A tree is drawn down to some depth as a directed graph in the DOT language.  The drawn nodes are
numbered from 0 in preorder.  A node is joined to its parent, which is the last node on the path
from the root to it: the numbers on that path are kept while walking, and a node of depth `d` keeps
the first `d` of them.

* `Drawn` is a node of the graph, `Graph.ofPlaced` draws the nodes of a walk;
* `Graph.toDot` writes the graph, `escapeLabel` a node's label. -/

namespace SyntaxInspector

/-- A node of the graph; the root has no parent. -/
structure Drawn where
  id : Nat
  label : String
  isNamed : Bool
  parent : Option Nat
  deriving DecidableEq, Repr

/-- The label with a backslash in front of every backslash and every quote.  The backslashes come
first, so those that the quotes get stay single. -/
def escapeLabel (s : String) : String := (s.replace '\\' "\\\\").replace '"' "\\\""

/-- Fill colour and border colour. -/
structure Colours where
  fill : String
  border : String
  deriving DecidableEq, Repr

/-- Named nodes are blue, anonymous ones grey. -/
def Colours.ofNode (isNamed : Bool) : Colours :=
  if isNamed then ⟨"#E3F2FD", "#1976D2"⟩ else ⟨"#F5F5F5", "#757575"⟩

/-- The name of a node in the written graph. -/
def Drawn.name (id : Nat) : String := "node" ++ toString id

/-- The lines of a node: the node itself, then the edge from its parent. -/
def Drawn.lines (n : Drawn) : String :=
  let colours := Colours.ofNode n.isNamed
  "  " ++ name n.id ++ " [label=\"" ++ escapeLabel n.label ++ "\", fillcolor=\"" ++ colours.fill ++
    "\", color=\"" ++ colours.border ++ "\", style=\"rounded,filled\"];\n" ++
    match n.parent with
    | none => ""
    | some p => "  " ++ name p ++ " -> " ++ name n.id ++ ";\n"

/-- The drawn nodes in the order of their numbers. -/
abbrev Graph := List Drawn

namespace Graph

/-- The depth to which graphs are drawn unless another one is asked for. -/
def defaultDepth : Nat := 10

/-- Draws nodes of a walk, the first one with number `id`; `path` holds the numbers on the way from
the root to the node drawn last. -/
def ofPlaced (id : Nat) (path : List Nat) : List Placed → Graph
  | [] => []
  | (t, depth) :: rest =>
    let above := path.take depth
    ⟨id, t.info.kind, t.info.isNamed, above.getLast?⟩ :: ofPlaced (id + 1) (above ++ [id]) rest

/-- The lines before the nodes. -/
def header : String :=
  "digraph AST \x7b\n  rankdir=TB;\n  node [shape=box, style=rounded, fontname=Arial];\n" ++
    "  edge [fontname=Arial, fontsize=10];\n\n"

/-- The graph in the DOT language. -/
def toDot (g : Graph) : String := header ++ String.join (g.map Drawn.lines) ++ "\x7d"

end Graph

/-- The graph of the tree down to a depth. -/
def Tree.graph (t : Tree) (maxDepth : Nat) : Graph := Graph.ofPlaced 0 [] (t.walk (some maxDepth))

/-- The graph of the tree in the DOT language. -/
def Tree.toDot (t : Tree) (maxDepth : Nat) : String := (t.graph maxDepth).toDot

end SyntaxInspector
