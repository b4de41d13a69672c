import SyntaxInspector.CommandLine.Usage
import SyntaxInspector.Run
import SyntaxInspector.Tree.Rows

/-! # The program

The outer layer: arguments and environment, files and standard streams, and the exit code.  Grammars
are not part of it.  Whoever parses a source text beforehand leaves the tree, written in rows, in
the file that the variable `SYNTAX_TREE_FILE` names.  The program starts no other programs and opens
no connections, so drawing an image and asking for a review fail as if there were none to be
found. -/

namespace SyntaxInspector.Terminal

/-- A failure as the operating system reports it. -/
def ioError : IO.Error → IoError
  | .alreadyExists _ n d | .otherError n d | .resourceBusy n d | .resourceVanished n d
  | .unsupportedOperation n d | .hardwareFault n d | .unsatisfiedConstraints n d
  | .illegalOperation n d | .protocolError n d | .timeExpired n d | .interrupted _ n d
  | .noFileOrDirectory _ n d | .invalidArgument _ n d | .permissionDenied _ n d
  | .resourceExhausted _ n d | .inappropriateType _ n d | .noSuchThing _ n d => .system n.toNat d
  | .unexpectedEof => .system 0 "end of file"
  | .userError d => .system 0 d

/-- An action whose failure is an outcome. -/
def attempt {α : Type} (action : IO α) : ExceptT IoError IO α := ExceptT.mk do
  try return .ok (← action) catch e => return .error (ioError e)

/-- A stream to write to. -/
def sink (stream : IO.FS.Stream) : Sink IO where
  writeAll bytes := attempt (stream.write ⟨bytes.toArray⟩)
  flush := attempt stream.flush

/-- The bytes of a file. -/
def readFile (path : String) : ExceptT IoError IO (List UInt8) := attempt do
  let handle ← IO.FS.Handle.mk path .read
  return (← handle.readBinToEnd).toList

/-- Creates or empties a file. -/
def createFile (path : String) : ExceptT IoError IO (Sink IO) := do
  let handle ← attempt (IO.FS.Handle.mk path .write)
  return sink (.ofHandle handle)

/-- The tree that was left in a file. -/
def parsedBeforehand (path : Option String) : IO (Option ParsedTree) := do
  match path with
  | none => return none
  | some path =>
    match ← (readFile path).run with
    | .ok content => return (Text.decode? content).bind ParsedTree.ofText?
    | .error _ => return none

/-- The grammars: a tree that was parsed beforehand, or nothing. -/
def grammars (path : Option String) : Grammars IO where
  load _ := return if path.isSome then .ok () else .error "SYNTAX_TREE_FILE names no tree"
  parse _ _ := parsedBeforehand path

/-- The operations of a run. -/
def host (tree : Option String) (input output : IO.FS.Stream) : Host IO where
  readFile := readFile
  readInput := do return (← attempt input.readBinToEnd).toList
  createFile := createFile
  standardOutput := sink output
  grammars := grammars tree
  startProgram _ _ := throw .noSuchFile
  send _ := return none

/-- Prints to a stream; whether it arrives does not matter. -/
def print (stream : IO.FS.Stream) (text : String) : IO Unit := do
  try stream.putStr text catch _ => return ()

/-- A whole run, and its exit code. -/
def execute (args : Args) : IO Nat := do
  let log ← IO.getStderr
  if 1 < args.verbosity then print log (args.describe ++ "\n")
  let tree ← IO.getEnv "SYNTAX_TREE_FILE"
  let outcome ← (run (host tree (← IO.getStdin) (← IO.getStdout)) args).run
  if let .error e := outcome then print log e.report
  return exitCode outcome

end SyntaxInspector.Terminal

open SyntaxInspector in
/-- Reads the command line and runs. -/
def main (words : List String) : IO UInt32 := do
  let environment : Environment :=
    { apiKey := ← IO.getEnv "GEMINI_API_KEY"
      model := ← IO.getEnv "ASTVIEW_MODEL"
      apiBase := ← IO.getEnv "ASTVIEW_API_BASE" }
  match Args.parse words environment with
  | .ok args => return (← Terminal.execute args).toUInt32
  | .error refusal =>
    Terminal.print (← IO.getStdout) refusal.answer
    Terminal.print (← IO.getStderr) refusal.complaint
    return refusal.exitCode.toUInt32
