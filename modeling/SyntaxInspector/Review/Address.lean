import SyntaxInspector.Path
import SyntaxInspector.Text.Utf8

/-! # Web addresses

An address names a server and what is asked of it.  It is read leniently: blanks around it, tabs and
line breaks do not count, a backslash is as good as a slash, and parts of the path that are dots
lead nowhere or one step up.  What is asked goes out in ASCII, so every character that cannot stand
there is written as its bytes, each behind a percent sign.

* `percentEncode` writes text in ASCII, `Address.reduce` takes the dots out of a path;
* `WebAddress` is an address that has been read, `WebAddress.ofText?` reads one. -/

namespace SyntaxInspector

namespace Address

/-- The hexadecimal digit of a number below 16, in upper case. -/
def hexDigit (n : Nat) : Char := (Nat.digitChar n).toUpper

/-- A byte behind a percent sign. -/
def percentByte (b : UInt8) : List Char := ['%', hexDigit (b.toNat / 16), hexDigit (b.toNat % 16)]

/-- The characters with those of a set, and all that are not printable ASCII, as their bytes. -/
def percentEncode (reserved : List Char) (cs : List Char) : List Char :=
  cs.flatMap fun c =>
    if c.toNat < 0x20 || 0x7F ≤ c.toNat || reserved.contains c then
      (String.utf8EncodeChar c).flatMap percentByte
    else [c]

/-- The printable characters that cannot stand in a path. -/
def pathReserved : List Char := [' ', '"', '#', '<', '>', '?', Char.ofNat 0x60, '\x7b', '\x7d']

/-- The printable characters that cannot stand in a query. -/
def queryReserved : List Char := [' ', '"', '#', '<', '>', '\'']

/-- The characters with every dot written as a dot. -/
def plainDots : List Char → List Char
  | '%' :: '2' :: 'e' :: cs | '%' :: '2' :: 'E' :: cs => '.' :: plainDots cs
  | c :: cs => c :: plainDots cs
  | [] => []

/-- A part of a path that leads nowhere. -/
def isDot (part : List Char) : Bool := plainDots part = ['.']

/-- A part of a path that leads one step up. -/
def isDoubleDot (part : List Char) : Bool := plainDots part = ['.', '.']

/-- The parts of a path without those that are dots, behind parts already `taken`.  Dots at the end
leave an empty part, so the path ends in a slash. -/
def reduce (taken : List (List Char)) : List (List Char) → List (List Char)
  | [] => taken
  | part :: rest =>
    let taken :=
      if isDoubleDot part then taken.dropLast
      else if isDot part then taken
      else taken ++ [part]
    if rest.isEmpty && (isDoubleDot part || isDot part) then taken ++ [[]] else reduce taken rest

/-- A slash, or a backslash in its place. -/
def isSlash (c : Char) : Bool := c = '/' || c = '\\'

/-- The path as it goes out; it begins with a slash. -/
def writePath (path : List Char) : List Char :=
  let parts := Path.split ((path.drop 1).map fun c => if c = '\\' then '/' else c)
  (reduce [] parts).flatMap fun part => '/' :: percentEncode pathReserved part

/-- The query as it goes out, behind its question mark; what follows a hash stays at home. -/
def writeQuery : List Char → List Char
  | '?' :: query => '?' :: percentEncode queryReserved (query.takeWhile (· ≠ '#'))
  | _ => []

/-- The characters of an address that count. -/
def clean (cs : List Char) : List Char :=
  let isPadding := fun c : Char => c.toNat ≤ 0x20
  let cs := ((cs.dropWhile isPadding).reverse.dropWhile isPadding).reverse
  cs.filter fun c => c ≠ '\t' && c ≠ '\n' && c ≠ '\r'

end Address

/-- An address that a request can be sent to: the scheme, the server, and what is asked of it. -/
structure WebAddress where
  scheme : String
  server : String
  target : String
  deriving DecidableEq, Repr

open Address in
/-- Reads an address.  It has to have a scheme of the web and a server. -/
def WebAddress.ofText? (text : String) : Option WebAddress :=
  let cs := clean text.toList
  let scheme := (cs.takeWhile (· ≠ ':')).map Char.toLower
  let rest := (cs.drop (scheme.length + 1)).dropWhile isSlash
  let server := rest.takeWhile fun c => !isSlash c && c ≠ '?' && c ≠ '#'
  let rest := rest.drop server.length
  let path := rest.takeWhile fun c => c ≠ '?' && c ≠ '#'
  let isWeb := scheme = ['h', 't', 't', 'p'] || scheme = ['h', 't', 't', 'p', 's']
  if isWeb && scheme.length < cs.length && !server.isEmpty then
    some {
      scheme := String.ofList scheme
      server := String.ofList server
      target := String.ofList (writePath path ++ writeQuery (rest.drop path.length)) }
  else none

end SyntaxInspector
