import SyntaxInspector.Json.Reader

/-! # The grammar of JSON

Which characters are JSON (RFC 8259), and of which value: one relation for each production.  The
reader of JSON is not used here, so that it can be held against the grammar.

* `SpellsPieces` and `denote` are quoted texts: pieces that are characters or code units of UTF-16,
  and the characters that they make up, if every surrogate has its partner;
* `SpellsNumeral` are numerals;
* `Spells`, `SpellsItems` and `SpellsMembers` are values, the items of arrays and the members of
  objects;
* `IsJson` is a whole text, with spacing around its value. -/

namespace SyntaxInspector.Json

/-- Characters that may stand around values and signs. -/
def IsGap (cs : List Char) : Prop := ∀ c ∈ cs, isSpacing c

/-! ### Quoted texts -/

/-- A piece of a quoted text: a character, or an escaped code unit. -/
inductive Piece where
  | char (c : Char)
  | unit (n : Nat)
  deriving DecidableEq, Repr

/-- The characters of a piece. -/
inductive SpellsPiece : List Char → Piece → Prop
  | plain {c : Char} : c ≠ '"' → c ≠ '\\' → 0x20 ≤ c.toNat → SpellsPiece [c] (.char c)
  | letter {e c : Char} : letterEscape? e = some c → SpellsPiece ['\\', e] (.char c)
  | hex {a b c d : Char} {n : Nat} :
      hexQuad? a b c d = some n → SpellsPiece ['\\', 'u', a, b, c, d] (.unit n)

/-- The characters between the quotes. -/
inductive SpellsPieces : List Char → List Piece → Prop
  | nil : SpellsPieces [] []
  | cons {cs cs' : List Char} {p : Piece} {ps : List Piece} :
      SpellsPiece cs p → SpellsPieces cs' ps → SpellsPieces (cs ++ cs') (p :: ps)

/-- The first half of a surrogate pair. -/
def isLeading (n : Nat) : Bool := 0xD800 ≤ n && n ≤ 0xDBFF

/-- The second half of a surrogate pair. -/
def isTrailing (n : Nat) : Bool := 0xDC00 ≤ n && n ≤ 0xDFFF

/-- The character of a surrogate pair. -/
def pairChar (high low : Nat) : Char :=
  Char.ofNat ((high - 0xD800) * 0x400 + (low - 0xDC00) + 0x10000)

/-- The characters that pieces make up.  A surrogate without its partner is none. -/
def denote : List Piece → Option (List Char)
  | [] => some []
  | .char c :: ps => (denote ps).map (c :: ·)
  | .unit high :: .unit low :: ps =>
    if isLeading high && isTrailing low then (denote ps).map (pairChar high low :: ·)
    else if isLeading high || isTrailing high then none
    else (denote (.unit low :: ps)).map (Char.ofNat high :: ·)
  | .unit n :: ps =>
    if isLeading n || isTrailing n then none else (denote ps).map (Char.ofNat n :: ·)

/-! ### Numerals -/

/-- One digit or more. -/
def IsDigits (cs : List Char) : Prop := cs ≠ [] ∧ ∀ c ∈ cs, c.isDigit

/-- The sign of a numeral; `true` is a minus. -/
inductive SpellsSign : List Char → Bool → Prop
  | absent : SpellsSign [] false
  | minus : SpellsSign ['-'] true

/-- The whole part of a numeral: a zero alone, or digits that begin with another. -/
inductive IsWhole : List Char → Prop
  | zero : IsWhole ['0']
  | digits {c : Char} {cs : List Char} : c ≠ '0' → IsDigits (c :: cs) → IsWhole (c :: cs)

/-- The fraction of a numeral, and its digits. -/
inductive SpellsFraction : List Char → List Char → Prop
  | absent : SpellsFraction [] []
  | present {digits : List Char} : IsDigits digits → SpellsFraction ('.' :: digits) digits

/-- The sign of an exponent; `true` is a minus. -/
inductive SpellsExponentSign : List Char → Bool → Prop
  | absent : SpellsExponentSign [] false
  | plus : SpellsExponentSign ['+'] false
  | minus : SpellsExponentSign ['-'] true

/-- The exponent of a numeral. -/
inductive SpellsExponent : List Char → Option (Bool × List Char) → Prop
  | absent : SpellsExponent [] none
  | present {e : Char} {sign digits : List Char} {minus : Bool} :
      e = 'e' ∨ e = 'E' → SpellsExponentSign sign minus → IsDigits digits →
      SpellsExponent (e :: (sign ++ digits)) (some (minus, digits))

/-- The characters of a numeral. -/
inductive SpellsNumeral : List Char → Numeral → Prop
  | mk {sign whole fraction exponent digits : List Char} {negative : Bool}
      {power : Option (Bool × List Char)} :
      SpellsSign sign negative → IsWhole whole → SpellsFraction fraction digits →
      SpellsExponent exponent power →
      SpellsNumeral (sign ++ (whole ++ (fraction ++ exponent)))
        { negative, whole, fraction := digits, exponent := power }

/-! ### Values -/

mutual

/-- The characters of a value, without spacing around it. -/
inductive Spells : List Char → Draft → Prop
  | nullName : Spells ['n', 'u', 'l', 'l'] .null
  | trueName : Spells ['t', 'r', 'u', 'e'] (.bool true)
  | falseName : Spells ['f', 'a', 'l', 's', 'e'] (.bool false)
  | number {cs : List Char} {n : Numeral} : SpellsNumeral cs n → Spells cs (.number n)
  | text {cs : List Char} {ps : List Piece} :
      SpellsPieces cs ps → Spells ('"' :: (cs ++ ['"'])) (.text ((denote ps).map String.ofList))
  | emptyArray {gap : List Char} : IsGap gap → Spells ('[' :: (gap ++ [']'])) (.array [] .closed)
  | array {cs : List Char} {items : List Draft} :
      SpellsItems cs items → Spells ('[' :: (cs ++ [']'])) (.array items .closed)
  | emptyObject {gap : List Char} :
      IsGap gap → Spells ('\x7b' :: (gap ++ ['\x7d'])) (.object [] .closed)
  | object {cs : List Char} {members : List (Option String × Draft)} :
      SpellsMembers cs members → Spells ('\x7b' :: (cs ++ ['\x7d'])) (.object members .closed)

/-- The characters of a value with spacing around it. -/
inductive SpellsPadded : List Char → Draft → Prop
  | mk {before cs after : List Char} {d : Draft} :
      IsGap before → Spells cs d → IsGap after → SpellsPadded (before ++ (cs ++ after)) d

/-- The items of an array, with commas between them. -/
inductive SpellsItems : List Char → List Draft → Prop
  | one {cs : List Char} {d : Draft} : SpellsPadded cs d → SpellsItems cs [d]
  | more {cs cs' : List Char} {d : Draft} {ds : List Draft} :
      SpellsPadded cs d → SpellsItems cs' ds → SpellsItems (cs ++ ',' :: cs') (d :: ds)

/-- A member of an object: a quoted key, a colon and a value, with spacing around them. -/
inductive SpellsMember : List Char → Option String × Draft → Prop
  | mk {before key gap cs : List Char} {ps : List Piece} {d : Draft} :
      IsGap before → SpellsPieces key ps → IsGap gap → SpellsPadded cs d →
      SpellsMember (before ++ '"' :: (key ++ '"' :: (gap ++ ':' :: cs)))
        ((denote ps).map String.ofList, d)

/-- The members of an object, with commas between them. -/
inductive SpellsMembers : List Char → List (Option String × Draft) → Prop
  | one {cs : List Char} {m : Option String × Draft} : SpellsMember cs m → SpellsMembers cs [m]
  | more {cs cs' : List Char} {m : Option String × Draft} {ms : List (Option String × Draft)} :
      SpellsMember cs m → SpellsMembers cs' ms → SpellsMembers (cs ++ ',' :: cs') (m :: ms)

end

/-- The text is JSON, of this value. -/
def IsJson (s : String) (d : Draft) : Prop := SpellsPadded s.toList d

end SyntaxInspector.Json
