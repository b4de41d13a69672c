import SyntaxInspector.Language
import SyntaxInspector.Tree.Errors

/-! # Parsed sources

What parsing a source text yields.  The parser says of the whole tree whether anything in it is
wrong (`hasError`); this can be true without an error node, if what is missing has no node. -/

namespace SyntaxInspector

/-- The answer of a grammar to a source text. -/
structure ParsedTree where
  root : Tree
  hasError : Bool
  deriving Repr

/-- A source text together with its tree. -/
structure ParsedSource extends ParsedTree where
  language : Language
  source : String
  deriving Repr

/-- The syntax errors of the source in document order.  The tree is searched only if the parser says
that something is wrong. -/
def ParsedSource.errors (p : ParsedSource) : List SyntaxError :=
  if p.hasError then p.root.errors else []

end SyntaxInspector
