import SyntaxInspector.Json.Decode
import SyntaxInspector.Source.Parsed

/-! # Trees written as rows

A tree can be handed over as JSON: an object whose member `nodes` lists the nodes in preorder, one
row each, and whose member `has_error` says whether anything in the tree is wrong.  A row holds the
kind, the number of children, the marks (`n` for a named node, `e` for an error, `m` for a missing
node), the first and the last byte, the row and column of both, the field, and what is shown of an
unexpected character.

* `ParsedTree.decode` asks for such a tree, `ParsedTree.ofText?` reads one. -/

namespace SyntaxInspector

namespace Json

/-- A truth value. -/
def decodeBool : Decoder Bool
  | .bool b => .ok b
  | d => .error d.mistyped

/-- A natural number without fraction and exponent. -/
def decodeNat : Decoder Nat
  | .number n =>
    match n.toNat? with
    | some k => .ok k
    | none => .error .mistyped
  | d => .error d.mistyped

end Json

open Json in
/-- A node and the number of its children. -/
def decodeRow : Decoder (Node × Nat)
  | .array [kind, count, marks, startByte, endByte, startRow, startColumn, endRow, endColumn, field,
      unexpected] .closed => do
    let marks := (← decodeText marks).toList
    let info : Node :=
      { kind := ← decodeText kind
        isNamed := marks.contains 'n'
        isError := marks.contains 'e'
        isMissing := marks.contains 'm'
        startByte := ← decodeNat startByte
        endByte := ← decodeNat endByte
        startPoint := ⟨← decodeNat startRow, ← decodeNat startColumn⟩
        endPoint := ⟨← decodeNat endRow, ← decodeNat endColumn⟩
        field := ← decodeOptional decodeText field
        unexpected := ← decodeOptional decodeText unexpected }
    return (info, ← decodeNat count)
  | d => .error d.mistyped

namespace ParsedTree

open Json in
/-- Asks for a tree in rows. -/
def decode : Decoder ParsedTree := fun d => do
  let (hasError, rows) ← decodeRecord₂ (.required "has_error" decodeBool)
    (.listed "nodes" decodeRow) d
  match Tree.ofPreorder? rows with
  | some root => return { root, hasError }
  | none => throw .mistyped

/-- The tree that a text writes in rows. -/
def ofText? (text : String) : Option ParsedTree := ((Json.read text).decode decode).toOption

end ParsedTree
end SyntaxInspector
