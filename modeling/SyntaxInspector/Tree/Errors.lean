import SyntaxInspector.Diagnostic
import SyntaxInspector.Tree.Walk

/-! # Syntax errors

A parser that tolerates errors leaves them in the tree as nodes of two sorts: text that fits nowhere
and nodes that had to be put in. -/

namespace SyntaxInspector

/-- An error node of a tree. -/
inductive SyntaxError where
  | unexpected (span : Span)
  | missing (kind : String) (span : Span)
  deriving DecidableEq, Repr

namespace SyntaxError

/-- Where the error is. -/
def span : SyntaxError → Span
  | unexpected s => s
  | missing _ s => s

/-- What is wrong. -/
def message : SyntaxError → String
  | unexpected _ => "unexpected syntax"
  | missing kind _ => "missing `" ++ kind ++ "`"

/-- The error as it is shown. -/
def diagnostic (e : SyntaxError) : Diagnostic :=
  match e with
  | unexpected s => { message := e.message, code := "syntax::unexpected", labels := [⟨"here", s⟩] }
  | missing _ s =>
    { message := e.message, code := "syntax::missing", labels := [⟨"expected here", s⟩] }

/-- The error a node stands for. -/
def ofNode? (n : Node) : Option SyntaxError :=
  let span : Span := ⟨n.startByte, n.endByte - n.startByte⟩
  if n.isError then some (unexpected span)
  else if n.isMissing then some (missing n.kind span)
  else none

end SyntaxError

/-- The errors of a tree in document order. -/
def Tree.errors (t : Tree) : List SyntaxError :=
  (t.walk none).filterMap fun p => SyntaxError.ofNode? p.1.info

end SyntaxInspector
