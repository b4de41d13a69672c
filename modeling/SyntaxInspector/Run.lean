import SyntaxInspector.CommandLine.Args
import SyntaxInspector.Error
import SyntaxInspector.Tree.Expression
import SyntaxInspector.Tree.Graph
import SyntaxInspector.Tree.Outline

/-! # Runs

A run has stages: the arguments are checked against each other, the language is chosen, the source
is read, it is parsed unless it is blank, the target is computed, and the text is written.  The
first stage that fails ends the run, and only the last one writes.

* `Args.validate`, `resolveLanguage`, `readSource`, `parseSource` and `computeText` are the stages;
* `run` is a whole run. -/

namespace SyntaxInspector

variable {m : Type → Type} [Monad m]

/-- Images are drawn of graphs only. -/
def Args.validate (a : Args) : Except RunError Unit :=
  if a.image.isSome && a.target ≠ .graph then .error .imageNeedsGraph else .ok ()

/-- The language that is given, or else the one of the path. -/
def resolveLanguage (explicit : Option Language) (path : Option String) :
    Except RunError Language :=
  match explicit.or (path.bind Language.ofPath?) with
  | some l => .ok l
  | none => .error .unknownLanguage

/-- The source text: that of the file, or else of standard input. -/
def readSource (host : Host m) (path : Option String) : ExceptT RunError m String := do
  let read := match path with
    | some p => host.readFile p
    | none => host.readInput
  let bytes ← read.adapt RunError.input
  match Text.decode? bytes with
  | some text => return text
  | none => throw (.input .notUtf8)

/-- Parses a source text unless it is blank. -/
def parseSource (g : Grammars m) (l : Language) (source : String) (c : Cache) :
    m (Except RunError ParsedSource × Cache) :=
  if Text.isBlankText source then return (.error .emptyInput, c)
  else do
    let (outcome, c) ← c.parse g l source
    return (outcome.mapError .parse, c)

/-- A source without syntax errors passes. -/
def check (p : ParsedSource) (name : String) : Except RunError Unit :=
  if p.errors.isEmpty then .ok () else .error (.check name p.source p.errors)

/-- The summary of a source in the form asked for. -/
def summaryText (p : ParsedSource) (format : SummaryFormat) : Except RunError String :=
  match format with
  | .text => p.root.summary.report.mapError .noReport
  | .json => .ok p.root.summary.toJson.pretty

/-- The review of a source. -/
def reviewText (host : Host m) (p : ParsedSource) (c : ReviewConfig) : ExceptT RunError m String :=
  ExceptT.mk do
    let outcome ← requestReview host.send c
      { language := p.language, code := p.source, summary := p.root.summary.prompt }
    return outcome.mapError .review

/-- The name of a source without a path. -/
def standardInputName : String := "<stdin>"

/-- The path under which failures of standard output are reported. -/
def standardOutputName : String := "<stdout>"

/-- The text of the target. -/
def computeText (host : Host m) (a : Args) (p : ParsedSource) : ExceptT RunError m String :=
  match a.target with
  | .graph => return p.root.toDot a.maxDepth
  | .tree => return p.root.toExpression
  | .outline => return p.root.outline p.source (some a.maxDepth)
  | .summary => liftExcept (summaryText p a.format)
  | .review => reviewText host p a.reviewConfig
  | .check => do
    let name := a.inputPath.getD standardInputName
    liftExcept (check p name)
    return "no syntax errors in " ++ name
where
  /-- A pure outcome as that of a stage. -/
  liftExcept {α : Type} (e : Except RunError α) : ExceptT RunError m α := ExceptT.mk (pure e)

/-- Writes the text to standard output. -/
def writeToOutput (host : Host m) (text : String) : ExceptT RunError m Unit :=
  (writeStandard host.standardOutput text).adapt (RunError.output standardOutputName)

/-- Writes the text to the output file, or else to standard output. -/
def writeResult (host : Host m) (path : Option String) (text : String) :
    ExceptT RunError m Unit :=
  match path with
  | some p => do
    let sink ← (host.createFile p).adapt (RunError.output p)
    (writeText sink text).adapt (RunError.output p)
  | none => writeToOutput host text

/-- The Graphviz program that draws images. -/
def graphvizProgram : String := "dot"

/-- Draws an image if one is asked for together with a file for it, or else writes the text. -/
def deliverResult (host : Host m) (a : Args) (text : String) : ExceptT RunError m Unit :=
  match a.target, a.image, a.outputPath with
  | .graph, some format, some output =>
    ExceptT.mk do
      let outcome ← drawImage host graphvizProgram format output text
      return outcome.mapError .image
  | _, _, output => writeResult host output text

/-- Loads every grammar and shows how that went; it is a failure if none loads. -/
def listLanguages (host : Host m) (c : Cache) : ExceptT RunError m Unit := do
  let (statuses, _) ← ExceptT.lift (c.loadAll host.grammars)
  writeToOutput host (statusTable statuses)
  unless anyLoaded statuses do throw .noLanguages

/-- A whole run. -/
def run (host : Host m) (a : Args) : ExceptT RunError m Unit := do
  ExceptT.mk (pure a.validate)
  if a.listLanguages then listLanguages host {}
  else do
    let language ← ExceptT.mk (pure (resolveLanguage a.language a.inputPath))
    let source ← readSource host a.inputPath
    let (outcome, _) ← ExceptT.lift (parseSource host.grammars language source {})
    let parsed ← ExceptT.mk (pure outcome)
    let text ← computeText host a parsed
    deliverResult host a text

/-- The exit code of a run. -/
def exitCode (outcome : Except RunError Unit) : Nat :=
  match outcome with
  | .ok () => 0
  | .error _ => 1

end SyntaxInspector
