/-! # JSON numerals

A numeral is kept as its digits.  Whoever wants a number reads it as a floating-point number of
double precision, in two steps: as many leading digits as fit a 64-bit word become an integer, the
rest a power of ten.  Each of the two is rounded, and so is their product.  A numeral has no number
(`exceedsDouble`) if that product lies beyond the largest finite double. -/

namespace SyntaxInspector.Json

/-- The parts of a numeral; an exponent has a sign (`true` for a minus) and digits. -/
structure Numeral where
  negative : Bool
  whole : List Char
  fraction : List Char := []
  exponent : Option (Bool × List Char) := none
  deriving DecidableEq, Repr

namespace Numeral

/-- The value of a decimal digit. -/
def digit (c : Char) : Nat := c.toNat - '0'.toNat

/-- The number that decimal digits denote. -/
def natOf (digits : List Char) : Nat := digits.foldl (fun n c => n * 10 + digit c) 0

/-- The number of a numeral without sign, fraction and exponent. -/
def toNat? (n : Numeral) : Option Nat :=
  if n.negative || !n.fraction.isEmpty || n.exponent.isSome then none else some (natOf n.whole)

/-- The largest 64-bit word. -/
def maxWord : Nat := UInt64.size - 1

/-- The leading digits as long as they fit a word, after a number already read, and the digits left
over. -/
def fill (significand : Nat) : List Char → Nat × List Char
  | [] => (significand, [])
  | c :: cs =>
    let next := significand * 10 + digit c
    if next ≤ maxWord then fill next cs else (significand, c :: cs)

/-- A natural number rounded to 53 significant bits, a tie to the even neighbour. -/
def roundDouble (n : Nat) : Nat :=
  let drop := n.log2 + 1 - 53
  let unit := 1 <<< drop
  let q := n / unit
  let r := n % unit
  if 2 * r < unit || (2 * r == unit && q % 2 == 0) then q * unit else (q + 1) * unit

/-- The product of significand and power of ten, each rounded, lies beyond every finite double. -/
def overflows (significand : Nat) (power : Int) : Bool :=
  if significand == 0 then false
  else if power > 308 then true
  else if power < 0 then false
  else 1 <<< 1024 - 1 <<< 970 ≤ roundDouble significand * roundDouble (Nat.pow 10 power.toNat)

/-- The numeral has no double-precision number. -/
def exceedsDouble (n : Numeral) : Bool :=
  let (head, rest) := fill 0 n.whole
  let (significand, unread) := fill head n.fraction
  let start : Int := rest.length - (n.fraction.length - unread.length : Int)
  match n.exponent with
  | none => if rest.isEmpty && n.fraction.isEmpty then false else overflows significand start
  | some (minus, digits) =>
    let e := natOf digits
    if e ≥ 1 <<< 31 then significand != 0 && !minus
    else overflows significand (if minus then start - e else start + e)

end Numeral
end SyntaxInspector.Json
