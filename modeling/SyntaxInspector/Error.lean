import SyntaxInspector.Graphviz
import SyntaxInspector.Summary.Report

/-! # Why a run fails

* `RunError` lists the causes, `RunError.message` words them;
* `RunError.report` is what is printed about one. -/

namespace SyntaxInspector

/-- Why a run fails. -/
inductive RunError where
  /-- The source cannot be read. -/
  | input (cause : IoError)
  /-- The output cannot be written. -/
  | output (path : String) (cause : IoError)
  /-- An image is asked for, but no graph. -/
  | imageNeedsGraph
  /-- The source is blank. -/
  | emptyInput
  /-- No language is given and none can be told from the path. -/
  | unknownLanguage
  /-- The source has no tree. -/
  | parse (cause : ParseError)
  /-- The source is checked and has errors. -/
  | check (name source : String) (errors : List SyntaxError)
  /-- There is no review. -/
  | review (cause : ReviewError)
  /-- The summary has no report.  A formatter that cannot go on ends the process on the spot: it
  returns no error, and the exit code is 101, that of a crash.  Here the run ends like any other
  that fails: its exit code is 1, and it is worded as a summary that cannot be encoded. -/
  | noReport (cause : ReportError)
  /-- There is no image. -/
  | image (cause : DrawError)
  /-- No grammar loads. -/
  | noLanguages
  deriving DecidableEq, Repr

namespace RunError

/-- What is wrong. -/
def message : RunError → String
  | input cause => "failed to read input: " ++ cause.message
  | output path cause => "failed to write " ++ path ++ ": " ++ cause.message
  | imageNeedsGraph => "--render requires --emit graph"
  | emptyInput => "no code to analyze"
  | unknownLanguage => "cannot infer the language, pass --language"
  | parse cause => cause.message
  | check _ _ errors => toString errors.length ++ " syntax error(s) found"
  | review cause => cause.message
  | noReport cause => "failed to encode summary: " ++ cause.message
  | image cause => "graphviz failed: " ++ cause.message
  | noLanguages => "no grammar could be loaded"

/-- The last line printed about an error that is not shown as a diagnostic. -/
def errorLine (e : RunError) : String := "Error: " ++ e.message ++ "\n"

/-- What is printed about an error.  Syntax errors are shown one by one before they are counted. -/
def report (e : RunError) : String :=
  match e with
  | parse cause => cause.diagnostic.render
  | review cause => cause.diagnostic.render
  | check _ _ errors => String.join (errors.map fun s => s.diagnostic.render) ++ e.errorLine
  | _ => e.errorLine

end RunError
end SyntaxInspector
