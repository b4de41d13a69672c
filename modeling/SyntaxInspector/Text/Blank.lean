/-! # Blank characters

A character is blank if it has the Unicode property `White_Space`.  Blankness decides three
things: what is trimmed from the ends of a text, whether source code counts as empty, and whether
an API key counts as missing.

* `isBlank` is the property, `isBlankText` its extension to a whole text;
* `trim` removes the blank characters at both ends. -/

namespace SyntaxInspector.Text

/-- The characters of the Unicode property `White_Space`. -/
def isBlank (c : Char) : Bool :=
  let n := c.toNat
  (0x09 ≤ n && n ≤ 0x0D) || n == 0x20 || n == 0x85 || n == 0xA0 || n == 0x1680 ||
    (0x2000 ≤ n && n ≤ 0x200A) || n == 0x2028 || n == 0x2029 || n == 0x202F || n == 0x205F ||
    n == 0x3000

/-- Every character of the text is blank; the empty text is blank too. -/
def isBlankText (s : String) : Bool := s.toList.all isBlank

/-- The characters without the blank ones at both ends. -/
def trimChars (cs : List Char) : List Char :=
  ((cs.dropWhile isBlank).reverse.dropWhile isBlank).reverse

/-- The text without the blank characters at both ends. -/
def trim (s : String) : String := String.ofList (trimChars s.toList)

@[simp] theorem toList_trim (s : String) : (trim s).toList = trimChars s.toList := by
  simp [trim]

end SyntaxInspector.Text
