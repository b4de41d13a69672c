/-! # Numbers on the command line

A number is written in decimal digits of ASCII, with any number of zeros in front, and with at most
one sign before them. -/

namespace SyntaxInspector.CommandLine

/-- The number that digits denote; there has to be one. -/
def natural? (digits : List Char) : Option Nat :=
  if digits.isEmpty || !digits.all Char.isDigit then none
  else some (digits.foldl (fun n c => n * 10 + (c.toNat - '0'.toNat)) 0)

/-- An unsigned number, which may have a plus in front. -/
def unsigned? : List Char → Option Nat
  | '+' :: digits => natural? digits
  | digits => natural? digits

/-- A signed number. -/
def signed? : List Char → Option Int
  | '-' :: digits => (natural? digits).map fun n => -(n : Int)
  | digits => (unsigned? digits).map fun n => (n : Int)

end SyntaxInspector.CommandLine
