/-! # UTF-8

A byte sequence is read one byte at a time.  The reader stands either between two characters or
inside one, in a state that says how many bytes are owed and in which interval the next one has to
lie; so overlong forms, surrogates and code points beyond the last plane are refused at the first
byte that rules them out.

* `encode` gives the bytes of a text;
* `decode?` reads bytes that are UTF-8 throughout;
* `decodeLossy` reads any bytes, with U+FFFD for each stretch that cannot be part of a character. -/

namespace SyntaxInspector.Text

/-- The UTF-8 bytes of a text. -/
def encode (s : String) : List UInt8 := s.toList.flatMap String.utf8EncodeChar

@[simp] theorem encode_append (s t : String) : encode (s ++ t) = encode s ++ encode t := by
  simp [encode]

/-- A character of which some bytes have been read: how many are owed, the least and the greatest
byte the next one may be, and the code point bits so far. -/
structure Started where
  owed : Nat
  low : Nat
  high : Nat
  bits : Nat
  deriving DecidableEq, Repr

/-- What one byte means to a reader that stands between characters. -/
inductive FirstByte where
  | whole (c : Char)
  | starts (s : Started)
  | malformed
  deriving DecidableEq, Repr

/-- The lead bytes of UTF-8. -/
def firstByte (b : UInt8) : FirstByte :=
  let n := b.toNat
  if n ≤ 0x7F then .whole (Char.ofNat n)
  else if 0xC2 ≤ n && n ≤ 0xDF then .starts ⟨1, 0x80, 0xBF, n - 0xC0⟩
  else if n == 0xE0 then .starts ⟨2, 0xA0, 0xBF, 0⟩
  else if n == 0xED then .starts ⟨2, 0x80, 0x9F, n - 0xE0⟩
  else if 0xE1 ≤ n && n ≤ 0xEF then .starts ⟨2, 0x80, 0xBF, n - 0xE0⟩
  else if n == 0xF0 then .starts ⟨3, 0x90, 0xBF, 0⟩
  else if 0xF1 ≤ n && n ≤ 0xF3 then .starts ⟨3, 0x80, 0xBF, n - 0xF0⟩
  else if n == 0xF4 then .starts ⟨3, 0x80, 0x8F, n - 0xF0⟩
  else .malformed

/-- The characters of a byte sequence, with `none` for each stretch that is part of no character:
a lead byte with as many continuation bytes as fit, or a single byte that starts nothing. -/
def scan : Option Started → List UInt8 → List (Option Char)
  | none, [] => []
  | some _, [] => [none]
  | none, b :: bs =>
    match firstByte b with
    | .whole c => some c :: scan none bs
    | .starts s => scan (some s) bs
    | .malformed => none :: scan none bs
  | some s, b :: bs =>
    if s.low ≤ b.toNat && b.toNat ≤ s.high then
      let bits := s.bits * 64 + b.toNat % 64
      if s.owed ≤ 1 then some (Char.ofNat bits) :: scan none bs
      else scan (some ⟨s.owed - 1, 0x80, 0xBF, bits⟩) bs
    else
      none :: match firstByte b with
        | .whole c => some c :: scan none bs
        | .starts s => scan (some s) bs
        | .malformed => none :: scan none bs

/-- The text with these bytes, if they are UTF-8. -/
def decode? (bytes : List UInt8) : Option String :=
  ((scan none bytes).mapM id).map String.ofList

/-- The text with these bytes, where U+FFFD stands for what is not UTF-8. -/
def decodeLossy (bytes : List UInt8) : String :=
  String.ofList ((scan none bytes).map (·.getD (Char.ofNat 0xFFFD)))

end SyntaxInspector.Text
