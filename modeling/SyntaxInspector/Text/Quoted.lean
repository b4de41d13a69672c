import SyntaxInspector.Text.Unshown

/-! # Quoted text

A quoted text stands between double quotes on one line.  The quote and the backslash are written
with a backslash in front, the null character, tab, line feed and carriage return by a letter, and
every other character that is not shown as it is (`isUnshown`) by its code point in hexadecimal.

* `escape` is the written form of one character, `quote` that of a text. -/

namespace SyntaxInspector.Text

/-- The written form of one character of a quoted text. -/
def escape (c : Char) : List Char :=
  if c = '"' then ['\\', '"']
  else if c = '\\' then ['\\', '\\']
  else if c = '\n' then ['\\', 'n']
  else if c = '\r' then ['\\', 'r']
  else if c = '\t' then ['\\', 't']
  else if c = Char.ofNat 0 then ['\\', '0']
  else if isUnshown c then ['\\', 'u', '\x7b'] ++ Nat.toDigits 16 c.toNat ++ ['\x7d']
  else [c]

/-- The text between double quotes, each character in its written form. -/
def quote (s : String) : String :=
  String.ofList ('"' :: s.toList.flatMap escape ++ ['"'])

@[simp] theorem toList_quote (s : String) :
    (quote s).toList = '"' :: s.toList.flatMap escape ++ ['"'] := by
  simp [quote]

end SyntaxInspector.Text
