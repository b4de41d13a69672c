/-! # Diagnostics

An error that is shown with a code and, where there is something to say, with a hint or with labels
that point into a source text. -/

namespace SyntaxInspector

/-- A stretch of a text: its first byte and its number of bytes. -/
structure Span where
  offset : Nat
  length : Nat
  deriving DecidableEq, Repr

/-- A remark about a stretch of the source text. -/
structure Label where
  text : String
  span : Span
  deriving DecidableEq, Repr

/-- An error as it is shown. -/
structure Diagnostic where
  message : String
  code : String
  help : Option String := none
  labels : List Label := []
  deriving DecidableEq, Repr

/-- The diagnostic as lines of text, the hint last. -/
def Diagnostic.render (d : Diagnostic) : String :=
  let labels := d.labels.map fun l =>
    s!"   ╰─▶ {l.text} [{l.span.offset}..{l.span.offset + l.span.length}]\n"
  d.code ++ "\n\n  × " ++ d.message ++ "\n" ++ String.join labels ++
    match d.help with
    | none => ""
    | some h => "  help: " ++ h ++ "\n"

end SyntaxInspector
