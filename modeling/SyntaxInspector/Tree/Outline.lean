import SyntaxInspector.Text.ByteRange
import SyntaxInspector.Text.Quoted
import SyntaxInspector.Tree.Walk

/-! # Outlines

An outline has an entry for every node of a walk: its kind, indented by its depth and marked if the
node is a leaf, the bytes it covers, and a quoted preview of its text.  The preview of a leaf is its
whole text, that of another node at most the first 40 characters. -/

namespace SyntaxInspector

namespace Outline

/-- How many characters the preview of a node with children shows. -/
def previewLimit : Nat := 40

/-- The first `limit` characters, with dots behind them if there are more. -/
def shorten (limit : Nat) (cs : List Char) : List Char :=
  if limit < cs.length then cs.take limit ++ ['.', '.', '.'] else cs

/-- The text a node covers, or nothing if its range has no slice of the source. -/
def covered (source : List Char) (n : Node) : List Char :=
  (Text.slice? source n.startByte n.endByte).getD []

/-- The preview of a node: a leaf in full, another node shortened. -/
def preview (source : List Char) (t : Tree) : List Char :=
  let text := covered source t.info
  if t.isLeaf then text else shorten previewLimit text

/-- The entry of a node, a line of its own as long as the kind has no line break. -/
def entry (source : List Char) (p : Placed) : String :=
  let (t, depth) := p
  String.ofList (List.replicate (2 * depth) ' ') ++ t.info.kind ++ (if t.isLeaf then "*" else "") ++
    " [" ++ toString t.info.startByte ++ ".." ++ toString t.info.endByte ++ "] " ++
    Text.quote (String.ofList (preview source t)) ++ "\n"

end Outline

/-- The outline of the tree of a source text. -/
def Tree.outline (t : Tree) (source : String) (maxDepth : Option Nat) : String :=
  String.join ((t.walk maxDepth).map (Outline.entry source.toList))

end SyntaxInspector
