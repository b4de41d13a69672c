import SyntaxInspector.Output.Device
import SyntaxInspector.Path
import SyntaxInspector.Text.ByteRange

/-! # Files

A store of files, directories and devices below a current directory.  A path is walked part by part;
every part but the last has to be a directory, and so has the last one if a slash or a dot follows
it.

* `Location` names a place, `Files` says what is there;
* `Files.locate` and `Files.locateNew` walk a path, `Files.read` and `Files.create` open the file it
  leads to. -/

namespace SyntaxInspector

/-- What can be at a place. -/
inductive Entry where
  | file (content : List UInt8)
  | directory
  /-- A device has nothing to read and answers writing as it likes. -/
  | device (answers : List Answer)
  /-- What is there cannot be used, neither as a file nor as a directory. -/
  | barred (cause : IoError)
  deriving DecidableEq, Repr

/-- A place: the steps to it from the current directory.  The first step may be to the root, and
steps to a parent can only stand where nothing is left to be taken back. -/
abbrev Location := List String

/-- What is at which place; the first entry of a place counts. -/
structure Files where
  entries : List (Location × Entry) := []
  deriving DecidableEq, Repr

namespace Files

/-- The step to the root directory. -/
def rootStep : String := "/"

/-- The step to the parent directory. -/
def parentStep : String := ".."

/-- The greatest number of bytes of a file name. -/
def maxName : Nat := 255

/-- The greatest number of bytes of a path. -/
def maxPath : Nat := 4095

/-- What is at a place.  The current directory, its parents and the root are directories. -/
def find? (fs : Files) (place : Location) : Option Entry :=
  match place.getLast? with
  | none => some .directory
  | some step =>
    if step = parentStep || place = [rootStep] then some .directory else fs.entries.lookup place

/-- Puts an entry at a place. -/
def put (fs : Files) (place : Location) (e : Entry) : Files :=
  ⟨(place, e) :: fs.entries.filter (·.1 ≠ place)⟩

/-- The place one step up. -/
def parent (place : Location) : Location :=
  match place.getLast? with
  | none => [parentStep]
  | some step =>
    if place = [rootStep] then place
    else if step = parentStep then place ++ [parentStep]
    else place.dropLast

/-- There has to be a directory at a place that a walk goes on from. -/
def requireDirectory (fs : Files) (place : Location) : Except IoError Unit :=
  match fs.find? place with
  | none => .error .noSuchFile
  | some .directory => .ok ()
  | some (.barred cause) => .error cause
  | some _ => .error .notADirectory

/-- Where a part of a path leads from a directory. -/
def step (place : Location) (part : List Char) : Except IoError Location :=
  if part = [] || part = ['.'] then .ok place
  else if part = ['.', '.'] then .ok (parent place)
  else if maxName < Text.byteLength part then .error .nameTooLong
  else .ok (place ++ [String.ofList part])

/-- One step along a path. -/
def advance (fs : Files) (place : Location) (part : List Char) : Except IoError Location := do
  fs.requireDirectory place
  step place part

/-- Where the walk along a path begins, and the parts it goes through. -/
def route (path : List Char) : Except IoError (Location × List (List Char)) :=
  if path.contains (Char.ofNat 0) then .error .nullInFileName
  else if maxPath < Text.byteLength path then .error .nameTooLong
  else match path with
    | [] => .error .noSuchFile
    | '/' :: rest => .ok ([rootStep], Path.split rest)
    | path => .ok ([], Path.split path)

/-- The place a path leads to; whether anything is there is another question. -/
def locate (fs : Files) (path : String) : Except IoError Location := do
  let (start, parts) ← route path.toList
  parts.foldlM (advance fs) start

/-- The content of the file at a path. -/
def read (fs : Files) (path : String) : Except IoError (List UInt8) := do
  match fs.find? (← fs.locate path) with
  | some (.file content) => return content
  | some (.device _) => return []
  | some .directory => throw .isADirectory
  | some (.barred cause) => throw cause
  | none => throw .noSuchFile

/-- The place of the file that a path names for writing.  All but the last name of the path are
walked.  A last name with a slash behind it is none of a file, so nobody looks for it. -/
def locateNew (fs : Files) (path : String) : Except IoError Location := do
  let (start, parts) ← route path.toList
  let named := (parts.reverse.dropWhile List.isEmpty).reverse
  let place ← named.dropLast.foldlM (advance fs) start
  fs.requireDirectory place
  match named.getLast? with
  | none => throw .isADirectory
  | some name =>
    if named.length < parts.length then throw .isADirectory
    let place ← step place name
    match fs.find? place with
    | some .directory => throw .isADirectory
    | some (.barred cause) => throw cause
    | _ => return place

/-- The store after the file at a path has been created or emptied, and the place of the file. -/
def create (fs : Files) (path : String) : Except IoError (Location × Files) := do
  let place ← fs.locateNew path
  match fs.find? place with
  | some (.device _) => return (place, fs)
  | _ => return (place, fs.put place (.file []))

/-- Puts bytes behind the content of a file. -/
def append (fs : Files) (place : Location) (bytes : List UInt8) : Files :=
  match fs.find? place with
  | some (.file content) => fs.put place (.file (content ++ bytes))
  | _ => fs

end Files
end SyntaxInspector
