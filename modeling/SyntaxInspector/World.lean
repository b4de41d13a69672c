import SyntaxInspector.Run
import SyntaxInspector.World.Files

/-! # A world for runs

A `World` is all that a run can read or change, as a value: files, standard input and output, the
grammars, the programs that can be started, and the server that reviews are asked of.  It records
what has been done to it, so that two runs can be compared by the worlds they leave.

* `Program` is a program that can be started, `Started` what is known of one that was;
* `World.host` are the operations of a run on a world;
* `World.exec` is a whole run in a world. -/

namespace SyntaxInspector

/-- A program that can be started.  It reads its input to the end or not at all, may write a file,
and ends. -/
structure Program where
  name : String
  readsInput : Bool := true
  /-- What it writes to the output file its arguments name. -/
  product : Option (List UInt8) := none
  errorOutput : List UInt8 := []
  status : ExitStatus := .exited 0
  deriving DecidableEq, Repr

/-- How many bytes fit a pipe that nobody reads. -/
def pipeCapacity : Nat := 65536

/-- Whether a program can be given an input: all of it fits the pipe, or is read from there. -/
def Program.takes (p : Program) (input : List UInt8) : Except IoError Unit :=
  if p.readsInput || input.length ≤ pipeCapacity then .ok () else .error .closedPipe

/-- The file that the arguments of a program name for its output. -/
def outputArgument? : List String → Option String
  | "-o" :: path :: _ => some path
  | _ :: args => outputArgument? args
  | [] => none

/-- A program that was started: its arguments, the input it has read if it reads any, and whether it
was waited for. -/
structure Started where
  program : String
  arguments : List String
  input : Option (List UInt8) := none
  waitedFor : Bool := false
  deriving DecidableEq, Repr

/-- Something a run does with the world, apart from changing files and standard output. -/
inductive Event where
  | readFile (path : String)
  | readInput
  | loadedGrammar (language : Language)
  | parsed (language : Language) (source : String)
  | createdFile (path : String)
  | started (program : String)
  | requested (request : HttpRequest)
  deriving DecidableEq, Repr

/-- All that a run can read or change. -/
structure World where
  files : Files := {}
  input : List UInt8 := []
  /-- Reading standard input to its end may fail. -/
  inputError : Option IoError := none
  output : Device := {}
  /-- How writing to files is answered. -/
  disk : Device := {}
  /-- Loading a grammar fails with a reason. -/
  loads : Language → Except String Unit := fun _ => .ok ()
  parses : Language → String → Option ParsedTree := fun _ _ => none
  programs : List Program := []
  children : List Started := []
  /-- Replies to requests; a request may reach nobody. -/
  server : HttpRequest → Option HttpReply := fun _ => none
  events : List Event := []

namespace World

/-- Records an event. -/
def note (e : Event) : StateM World Unit := modify fun w => { w with events := w.events ++ [e] }

/-- An operation that changes the world and may fail. -/
abbrev Action (α : Type) := ExceptT IoError (StateM World) α

/-- Writes bytes to standard output. -/
def writeOutput (bytes : List UInt8) : Action Unit := ExceptT.mk fun w =>
  let (outcome, output) := w.output.write bytes
  (outcome, { w with output })

/-- Flushes standard output. -/
def flushOutput : Action Unit := ExceptT.mk fun w =>
  let (outcome, output) := w.output.flush
  (outcome, { w with output })

/-- Writes bytes behind the content of a file. -/
def writeFile (place : Location) (bytes : List UInt8) : Action Unit := ExceptT.mk fun w =>
  match w.files.find? place with
  | some (.device answers) =>
    let (outcome, device) := ({ answers := answers } : Device).write bytes
    (outcome, { w with files := w.files.put place (.device device.answers) })
  | _ =>
    let (taken, outcome, answers) := deliver w.disk.answers bytes
    (outcome, { w with files := w.files.append place taken, disk := { w.disk with answers } })

/-- Flushes a file. -/
def flushFile : Action Unit := ExceptT.mk fun w =>
  let (outcome, disk) := w.disk.flush
  (outcome, { w with disk })

/-- Creates or empties a file. -/
def createFile (path : String) : Action (Sink (StateM World)) := ExceptT.mk fun w =>
  match w.files.create path with
  | .error e => (.error e, w)
  | .ok (place, files) =>
    (.ok { writeAll := writeFile place, flush := flushFile },
      { w with files, events := w.events ++ [.createdFile path] })

/-- Changes what is known of the program started last. -/
def updateChild (f : Started → Started) (w : World) : World :=
  match w.children.getLast? with
  | none => w
  | some c => { w with children := w.children.dropLast ++ [f c] }

/-- Gives input to the program started last. -/
def feed (p : Program) (bytes : List UInt8) : Action Unit := ExceptT.mk fun w =>
  (p.takes bytes, w.updateChild fun c =>
    { c with input := if p.readsInput then some (c.input.getD [] ++ bytes) else none })

/-- Waits for the program started last; its output file is written by then. -/
def wait (p : Program) (args : List String) : Action Ended := ExceptT.mk fun w =>
  let w := w.updateChild fun c => { c with waitedFor := true }
  let files := match p.product, outputArgument? args with
    | some bytes, some path =>
      match w.files.create path with
      | .ok (place, files) => files.append place bytes
      | .error _ => w.files
    | _, _ => w.files
  (.ok ⟨p.status.reported, p.errorOutput⟩, { w with files })

/-- Why a program that is not among the known ones does not start.  A name with a slash is the path
of a file, which may be there, but is not meant to be run. -/
def startFailure (w : World) (program : String) : IoError :=
  if program.toList.contains '/' then
    match w.files.locate program with
    | .error e => e
    | .ok place => if (w.files.find? place).isSome then .notPermitted else .noSuchFile
  else .noSuchFile

/-- Starts a program, found by its name. -/
def startProgram (program : String) (args : List String) : Action (Child (StateM World)) :=
  ExceptT.mk fun w =>
    if (program :: args).any (·.toList.contains (Char.ofNat 0)) then (.error .nullInArgument, w)
    else match w.programs.find? (·.name == program) with
      | none => (.error (w.startFailure program), w)
      | some p =>
        let started : Started :=
          { program, arguments := args, input := if p.readsInput then some [] else none }
        (.ok { feed := feed p, wait := wait p args },
          { w with children := w.children ++ [started], events := w.events ++ [.started program] })

/-- The grammars of the world. -/
def grammars : Grammars (StateM World) where
  load l := do
    note (.loadedGrammar l)
    return (← get).loads l
  parse l source := do
    note (.parsed l source)
    return (← get).parses l source

/-- What reading standard input to its end gives. -/
def readableInput (w : World) : Except IoError (List UInt8) :=
  match w.inputError with
  | none => .ok w.input
  | some e => .error e

/-- The operations of a run on a world.  A request counts as made even if nobody answers it. -/
def host : Host (StateM World) where
  readFile path := ExceptT.mk do
    note (.readFile path)
    return (← get).files.read path
  readInput := ExceptT.mk do
    note .readInput
    return (← get).readableInput
  createFile := createFile
  standardOutput := { writeAll := writeOutput, flush := flushOutput }
  grammars := grammars
  startProgram := startProgram
  send request := do
    note (.requested request)
    return ((← get).server request).bind HttpReply.arriving?

/-- A whole run: its outcome and the world it leaves. -/
def exec (a : Args) (w : World) : Except RunError Unit × World := (run host a).run.run w

end World
end SyntaxInspector
