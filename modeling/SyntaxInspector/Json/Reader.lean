import SyntaxInspector.Json.Draft
import SyntaxInspector.Text.ByteRange

/-! # Reading JSON

`read` turns any text into a `Document`.  The reader goes through the text once from left to right;
a reading function takes the characters that are left and returns what it read together with the
characters after it, or with `none` once the text has stopped being JSON.

Quoted texts (`readQuoted`) and numerals (`readNumeral`) are read by structural recursion.  Arrays
and objects nest, so `readValue` and its companions recurse on an allowance that every call lowers
by one; a call that lowers it twice in a row has consumed a character, so `read` provides enough. -/

namespace SyntaxInspector.Json

/-- The spacing of JSON. -/
def isSpacing (c : Char) : Bool := c = ' ' || c = '\n' || c = '\t' || c = '\r'

/-- The characters from the first one that is no spacing. -/
def skipSpacing (cs : List Char) : List Char := cs.dropWhile isSpacing

/-! ### Quoted texts -/

/-- The value of a hexadecimal digit. -/
def hexValue? (c : Char) : Option Nat :=
  if c.isDigit then some (c.toNat - '0'.toNat)
  else if 'a' ≤ c && c ≤ 'f' then some (c.toNat - 'a'.toNat + 10)
  else if 'A' ≤ c && c ≤ 'F' then some (c.toNat - 'A'.toNat + 10)
  else none

/-- The number that four hexadecimal digits denote. -/
def hexQuad? (a b c d : Char) : Option Nat := do
  return (((← hexValue? a) * 16 + (← hexValue? b)) * 16 + (← hexValue? c)) * 16 + (← hexValue? d)

/-- The character that an escape with a single letter stands for. -/
def letterEscape? : Char → Option Char
  | '"' => some '"'
  | '\\' => some '\\'
  | '/' => some '/'
  | 'b' => some (Char.ofNat 0x08)
  | 'f' => some (Char.ofNat 0x0C)
  | 'n' => some '\n'
  | 'r' => some '\r'
  | 't' => some '\t'
  | _ => none

/-- The characters of a quoted text so far (last first), a leading surrogate that waits for its
trailing one, and whether some surrogate stayed without its partner. -/
structure QuoteState where
  chars : List Char := []
  leading : Option Nat := none
  spoiled : Bool := false
  deriving DecidableEq, Repr

namespace QuoteState

/-- The next character is no trailing surrogate, so one that waits is unpaired. -/
def settle (q : QuoteState) : QuoteState :=
  { q with leading := none, spoiled := q.spoiled || q.leading.isSome }

/-- The text goes on with a character. -/
def push (q : QuoteState) (c : Char) : QuoteState :=
  let q := q.settle
  { q with chars := c :: q.chars }

/-- The text goes on with a UTF-16 code unit. -/
def pushUnit (q : QuoteState) (n : Nat) : QuoteState :=
  if 0xDC00 ≤ n && n ≤ 0xDFFF then
    match q.leading with
    | some high =>
      { q with
        chars := Char.ofNat ((high - 0xD800) * 0x400 + (n - 0xDC00) + 0x10000) :: q.chars
        leading := none }
    | none => { q with spoiled := true }
  else if 0xD800 ≤ n && n ≤ 0xDBFF then { q.settle with leading := some n }
  else q.push (Char.ofNat n)

/-- The characters of the finished text, unless a surrogate is unpaired. -/
def finish (q : QuoteState) : Option String :=
  if q.settle.spoiled then none else some (String.ofList q.chars.reverse)

end QuoteState

/-- Fewer than four bytes are left. -/
def fewerThanFourBytes (cs : List Char) : Bool := Text.byteLength cs < 4

/-- The rest of a quoted text, from behind its opening quote: its characters and what follows the
closing quote. -/
def readQuoted (q : QuoteState) : List Char → Except Break (Option String × List Char)
  | [] => .error (.quoteEnds q.spoiled)
  | '"' :: cs => .ok (q.finish, cs)
  | '\\' :: 'u' :: a :: b :: c :: d :: cs =>
    match hexQuad? a b c d with
    | some n => readQuoted (q.pushUnit n) cs
    | none => .error .malformed
  | '\\' :: 'u' :: cs => .error (if fewerThanFourBytes cs then .quoteEnds q.spoiled else .malformed)
  | '\\' :: e :: cs =>
    match letterEscape? e with
    | some c => readQuoted (q.push c) cs
    | none => .error .malformed
  | ['\\'] => .error (.quoteEnds q.spoiled)
  | c :: cs => if c.toNat < 0x20 then .error .malformed else readQuoted (q.push c) cs

/-! ### Numerals and names -/

/-- The leading digits and what follows them. -/
def readDigits (cs : List Char) : List Char × List Char :=
  (cs.takeWhile Char.isDigit, cs.dropWhile Char.isDigit)

/-- A numeral that lacks a digit: the text ends, or another character stands there. -/
def lacksDigit (cs : List Char) : Break := if cs.isEmpty then .numeralEnds else .malformed

/-- The exponent of a numeral, if there is one. -/
def readExponent : List Char → Except Break (Option (Bool × List Char) × List Char)
  | c :: cs =>
    if c = 'e' || c = 'E' then
      let (minus, cs) := match cs with
        | '+' :: cs => (false, cs)
        | '-' :: cs => (true, cs)
        | cs => (false, cs)
      let (digits, rest) := readDigits cs
      if digits.isEmpty then .error (lacksDigit cs) else .ok (some (minus, digits), rest)
    else .ok (none, c :: cs)
  | [] => .ok (none, [])

/-- The fraction of a numeral, without its point. -/
def readFraction : List Char → Except Break (List Char × List Char)
  | '.' :: cs =>
    let (digits, rest) := readDigits cs
    if digits.isEmpty then .error (lacksDigit cs) else .ok (digits, rest)
  | cs => .ok ([], cs)

/-- The whole part of a numeral: a zero that no digit follows, or digits that begin with another. -/
def readWhole : List Char → Except Break (List Char × List Char)
  | [] => .error .numeralEnds
  | c :: cs =>
    if c = '0' then
      if (cs.takeWhile Char.isDigit).isEmpty then .ok (['0'], cs) else .error .malformed
    else if c.isDigit then .ok (readDigits (c :: cs))
    else .error .malformed

/-- A numeral and what follows it. -/
def readNumeral (cs : List Char) : Except Break (Numeral × List Char) := do
  let (negative, cs) := match cs with
    | '-' :: cs => (true, cs)
    | cs => (false, cs)
  let (whole, cs) ← readWhole cs
  let (fraction, cs) ← readFraction cs
  let (exponent, cs) ← readExponent cs
  return ({ negative, whole, fraction, exponent }, cs)

/-- The rest of a name such as `null`, and what follows it. -/
def readName : (name : List Char) → List Char → Except Break (List Char)
  | [], cs => .ok cs
  | _ :: _, [] => .error .textEnds
  | n :: ns, c :: cs => if c = n then readName ns cs else .error .malformed

/-! ### Values -/

/-- What is left to read, or `none` once the text has stopped being JSON. -/
abbrev Rest := Option (List Char)

/-- A scalar that reads to its end, or a broken one. -/
def scalar {α : Type} (make : α → Draft) : Except Break (α × List Char) → Draft × Rest
  | .ok (a, cs) => (make a, some cs)
  | .error b => (.broken b, none)

/-- A name as a value. -/
def named (value : Draft) (name : List Char) (cs : List Char) : Draft × Rest :=
  match readName name cs with
  | .ok cs => (value, some cs)
  | .error b => (.broken b, none)

mutual

/-- A value and what follows it. -/
def readValue : (allowance : Nat) → List Char → Draft × Rest
  | 0, _ => (.broken .textEnds, none)
  | n + 1, cs =>
    match skipSpacing cs with
    | [] => (.broken .textEnds, none)
    | 'n' :: cs => named .null ['u', 'l', 'l'] cs
    | 't' :: cs => named (.bool true) ['r', 'u', 'e'] cs
    | 'f' :: cs => named (.bool false) ['a', 'l', 's', 'e'] cs
    | '"' :: cs => scalar .text (readQuoted {} cs)
    | '[' :: cs =>
      match skipSpacing cs with
      | [] => (.array [] (.broken .textEnds), none)
      | ']' :: cs => (.array [] .closed, some cs)
      | cs =>
        let (items, ending, rest) := readItems n cs
        (.array items ending, rest)
    | '\x7b' :: cs =>
      match skipSpacing cs with
      | [] => (.object [] (.broken .textEnds), none)
      | '\x7d' :: cs => (.object [] .closed, some cs)
      | cs =>
        let (members, ending, rest) := readMembers n cs
        (.object members ending, rest)
    | c :: cs =>
      if c = '-' || c.isDigit then scalar .number (readNumeral (c :: cs))
      else (.broken .malformed, none)

/-- The items of an array from the beginning of one, and what follows the closing bracket. -/
def readItems : (allowance : Nat) → List Char → List Draft × Ending × Rest
  | 0, _ => ([], .broken .textEnds, none)
  | n + 1, cs =>
    match readValue n cs with
    | (v, none) => ([v], .closed, none)
    | (v, some cs) =>
      match skipSpacing cs with
      | [] => ([v], .broken .textEnds, none)
      | ']' :: cs => ([v], .closed, some cs)
      | ',' :: cs =>
        match skipSpacing cs with
        | [] => ([v], .comma, none)
        | ']' :: _ => ([v], .broken .malformed, none)
        | cs =>
          let (vs, ending, rest) := readItems n cs
          (v :: vs, ending, rest)
      | _ :: _ => ([v], .broken .malformed, none)

/-- The members of an object from the beginning of one, and what follows the closing brace. -/
def readMembers : (allowance : Nat) → List Char → List (Option String × Draft) × Ending × Rest
  | 0, _ => ([], .broken .textEnds, none)
  | n + 1, '"' :: cs =>
    match readQuoted {} cs with
    | .error b => ([], .broken b, none)
    | .ok (key, cs) =>
      match readMemberValue n cs with
      | (v, none) => ([(key, v)], .closed, none)
      | (v, some cs) =>
        match skipSpacing cs with
        | [] => ([(key, v)], .broken .textEnds, none)
        | '\x7d' :: cs => ([(key, v)], .closed, some cs)
        | ',' :: cs =>
          match skipSpacing cs with
          | [] => ([(key, v)], .comma, none)
          | cs =>
            let (ms, ending, rest) := readMembers n cs
            ((key, v) :: ms, ending, rest)
        | _ :: _ => ([(key, v)], .broken .malformed, none)
  | _ + 1, _ => ([], .broken .malformed, none)

/-- The colon behind a key and the value behind the colon.  Without its colon the value is broken
before it begins. -/
def readMemberValue : (allowance : Nat) → List Char → Draft × Rest
  | 0, _ => (.broken .textEnds, none)
  | n + 1, cs =>
    match skipSpacing cs with
    | [] => (.broken .textEnds, none)
    | ':' :: cs => readValue n cs
    | _ :: _ => (.broken .malformed, none)

end

/-- A whole text.  From one character to the next the allowance is lowered at most three times: by
a value, by the items or members it opens, and by the colon of a member. -/
def read (s : String) : Document :=
  let cs := s.toList
  match readValue (3 * cs.length + 3) cs with
  | (v, none) => ⟨v, false⟩
  | (v, some rest) => ⟨v, !(skipSpacing rest).isEmpty⟩

end SyntaxInspector.Json
