/-! # File paths

A path is a text whose parts are separated by slashes.  Empty parts and parts that are a single dot
lead nowhere and are passed over.

* `Path.parts` are the remaining parts;
* `Path.fileName?` is the last of them, `Path.extension?` what follows its last dot. -/

namespace SyntaxInspector.Path

/-- The characters between slashes. -/
def split : List Char → List (List Char)
  | [] => [[]]
  | c :: cs =>
    if c = '/' then [] :: split cs
    else match split cs with
      | [] => [[c]]
      | part :: parts => (c :: part) :: parts

/-- The parts that lead somewhere. -/
def parts (path : String) : List String :=
  ((split path.toList).filter fun p => p ≠ [] && p ≠ ['.']).map String.ofList

/-- The last part, unless it leads upwards. -/
def fileName? (path : String) : Option String :=
  match (parts path).getLast? with
  | some ".." => none
  | name => name

/-- What follows the last dot of a file name.  A dot at the beginning is part of the name. -/
def extensionOf? (name : List Char) : Option (List Char) :=
  let backwards := name.reverse
  match backwards.dropWhile (· ≠ '.') with
  | [] | [_] => none
  | _ => some (backwards.takeWhile (· ≠ '.')).reverse

/-- The extension of the file a path names. -/
def extension? (path : String) : Option String := do
  let name ← fileName? path
  return String.ofList (← extensionOf? name.toList)

end SyntaxInspector.Path
