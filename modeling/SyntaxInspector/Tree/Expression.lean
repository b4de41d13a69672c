import SyntaxInspector.Tree.Basic

/-! # Trees as symbolic expressions

The named nodes of a tree as nested parentheses: the kind of a node, then its children.  Anonymous
nodes are left out with all below them, unless they are missing; a child with a field is introduced
by the name of the field. -/

namespace SyntaxInspector.Tree

mutual

/-- The expression of a tree; empty if its root is not shown. -/
def toExpression : Tree → String
  | node n children =>
    if n.isMissing then
      if n.isNamed then "(MISSING " ++ n.kind ++ ")" else "(MISSING \"" ++ n.kind ++ "\")"
    else if !n.isNamed then ""
    else match n.unexpected with
      | some shown => "(UNEXPECTED " ++ shown ++ ")"
      | none => "(" ++ " ".intercalate (n.kind :: childExpressions children) ++ ")"

/-- The expressions of the children that are shown. -/
def childExpressions : List Tree → List String
  | [] => []
  | t :: ts =>
    let shown := t.toExpression
    if shown.isEmpty then childExpressions ts
    else match t.info.field with
      | none => shown :: childExpressions ts
      | some field => (field ++ ": " ++ shown) :: childExpressions ts

end

end SyntaxInspector.Tree
