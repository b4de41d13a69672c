/-! # Text in columns

Texts are padded to a width counted in characters.  A text that is already as wide is left alone.

* `padRight`, `padLeft` and `centre` put the spaces behind, in front, or on both sides;
* `Alignment` chooses one of them and `Field` is a column with a width and an upper limit. -/

namespace SyntaxInspector.Text

/-- `n` spaces. -/
def spaces (n : Nat) : String := String.ofList (List.replicate n ' ')

/-- Spaces behind the text. -/
def padRight (width : Nat) (s : String) : String := s ++ spaces (width - s.length)

/-- Spaces in front of the text. -/
def padLeft (width : Nat) (s : String) : String := spaces (width - s.length) ++ s

/-- Spaces on both sides; the odd one goes behind. -/
def centre (width : Nat) (s : String) : String :=
  let room := width - s.length
  spaces (room / 2) ++ s ++ spaces (room - room / 2)

/-- Where a text stands in its column. -/
inductive Alignment where
  | left
  | right
  | centred
  deriving DecidableEq, Repr

/-- A column: at least `width` characters are filled, at most `limit` characters of the text are
shown. -/
structure Field where
  width : Option Nat := none
  limit : Option Nat := none
  alignment : Alignment := .left
  deriving DecidableEq, Repr

/-- The text as the column shows it. -/
def Field.render (f : Field) (s : String) : String :=
  let cut := match f.limit with
    | none => s
    | some n => String.ofList (s.toList.take n)
  match f.width, f.alignment with
  | none, _ => cut
  | some w, .left => padRight w cut
  | some w, .right => padLeft w cut
  | some w, .centred => centre w cut

end SyntaxInspector.Text
