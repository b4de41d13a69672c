import SyntaxInspector.Json.Basic
import SyntaxInspector.Summary.Tally
import SyntaxInspector.Tree.Walk

/-! # Summaries

A summary counts what a tree consists of: all nodes, the greatest depth, the named nodes by kind,
and the named children of the root with their places.

* `Summary` is a summary, `Tree.summary` that of a tree;
* `Summary.distribution` ranks the kinds by their counts;
* `Summary.prompt` is the summary in three lines, `Summary.toJson` as a JSON value. -/

namespace SyntaxInspector

/-- A place in a text as readers count it: lines from 1, columns in bytes from 0. -/
structure Position where
  line : Nat
  column : Nat
  deriving DecidableEq, Repr

/-- The position of a point. -/
def Position.ofPoint (p : Point) : Position := ⟨p.row + 1, p.column⟩

/-- A named child of the root. -/
structure TopLevel where
  kind : String
  start : Position
  stop : Position
  deriving DecidableEq, Repr

/-- What a tree consists of. -/
structure Summary where
  totalNodes : Nat
  maxDepth : Nat
  kinds : Tally
  topLevel : List TopLevel

namespace Summary

/-- The summary of no nodes. -/
def empty : Summary := ⟨0, 0, .empty, []⟩

instance : Inhabited Summary := ⟨empty⟩

/-- The summary with one more node of a walk.  Anonymous nodes count only towards the number of
nodes and the depth. -/
def add (s : Summary) (p : Placed) : Summary :=
  let (t, depth) := p
  let n := t.info
  let s := { s with totalNodes := s.totalNodes + 1, maxDepth := max s.maxDepth depth }
  if n.isNamed then
    let s := { s with kinds := s.kinds.bump n.kind }
    if depth = 1 then
      let entry : TopLevel := ⟨n.kind, .ofPoint n.startPoint, .ofPoint n.endPoint⟩
      { s with topLevel := s.topLevel ++ [entry] }
    else s
  else s

/-- One entry ranks before another: by the higher count, then by the smaller kind. -/
def ranksBefore (a b : String × Nat) : Bool := b.2 < a.2 || (a.2 == b.2 && a.1 ≤ b.1)

/-- The kinds with their counts, the most frequent first, at most `limit` of them. -/
def distribution (s : Summary) (limit : Nat) : List (String × Nat) :=
  (s.kinds.entries.mergeSort ranksBefore).take limit

/-- How many children of the root the short summary names. -/
def promptLimit : Nat := 10

/-- The summary in three lines. -/
def prompt (s : Summary) : String :=
  "Total Nodes: " ++ toString s.totalNodes ++ "\nTree Depth: " ++ toString s.maxDepth ++
    "\nTop-level Nodes: " ++ ", ".intercalate ((s.topLevel.take promptLimit).map TopLevel.kind)

/-- A position as a JSON value. -/
def positionJson (p : Position) : Json :=
  .record [("line", .number p.line), ("column", .number p.column)]

/-- A child of the root as a JSON value. -/
def topLevelJson (n : TopLevel) : Json :=
  .record [("kind", .text n.kind), ("start", positionJson n.start), ("end", positionJson n.stop)]

/-- The summary as a JSON value; the kinds are members in ascending order. -/
def toJson (s : Summary) : Json :=
  .record [
    ("total_nodes", .number s.totalNodes),
    ("max_depth", .number s.maxDepth),
    ("node_types", .record (s.kinds.entries.map fun e => (e.1, .number e.2))),
    ("top_level_nodes", .list (s.topLevel.map topLevelJson))]

end Summary

/-- The summary of all nodes of the tree. -/
def Tree.summary (t : Tree) : Summary := (t.walk none).foldl Summary.add .empty

end SyntaxInspector
