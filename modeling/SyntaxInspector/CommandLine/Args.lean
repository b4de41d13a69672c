import SyntaxInspector.Graphviz
import SyntaxInspector.Language
import SyntaxInspector.Review.Config

/-! # Arguments of the command line

* `Args` are the arguments of a run, each with a value;
* `Target` is what a run emits, `SummaryFormat` the form of a summary;
* `Args.reviewConfig` are the settings of the review service among the arguments;
* `Args.describe` shows the arguments, the API key without its secret. -/

namespace SyntaxInspector

/-- What a run emits. -/
inductive Target where
  | graph
  | tree
  | outline
  | summary
  | review
  | check
  deriving DecidableEq, Repr

/-- The name of the target on the command line. -/
def Target.name : Target → String
  | .graph => "graph"
  | .tree => "tree"
  | .outline => "outline"
  | .summary => "summary"
  | .review => "review"
  | .check => "check"

/-- Every target. -/
def Target.all : List Target := [.graph, .tree, .outline, .summary, .review, .check]

/-- The form of a summary. -/
inductive SummaryFormat where
  | text
  | json
  deriving DecidableEq, Repr

/-- The name of the form on the command line. -/
def SummaryFormat.name : SummaryFormat → String
  | .text => "text"
  | .json => "json"

/-- Every image format. -/
def ImageFormat.all : List ImageFormat := [.svg, .png, .pdf]

/-- The arguments of a run. -/
structure Args where
  /-- The source file; standard input if there is none. -/
  inputPath : Option String := none
  /-- The language; told from the path if there is none. -/
  language : Option Language := none
  target : Target := .graph
  /-- The depth of graphs and outlines. -/
  maxDepth : Nat := 8
  /-- The output file; standard output if there is none. -/
  outputPath : Option String := none
  /-- The format of an image to be drawn instead of emitting the graph. -/
  image : Option ImageFormat := none
  format : SummaryFormat := .text
  listLanguages : Bool := false
  apiKey : Option ApiKey := none
  model : String := defaultModel
  apiBase : String := defaultApiBase
  /-- The patience with the review service, in seconds. -/
  timeout : Nat := defaultTimeout
  /-- How talkative the log is. -/
  verbosity : Nat := 0
  deriving DecidableEq

namespace Args

/-- The settings of the review service; without a key the key is empty. -/
def reviewConfig (a : Args) : ReviewConfig :=
  { apiKey := a.apiKey.getD ⟨""⟩, model := a.model, apiBase := a.apiBase, timeout := a.timeout }

/-- An argument that may be missing, as it is shown. -/
def describeOptional {α : Type} (describe : α → String) : Option α → String
  | some value => "Some(" ++ describe value ++ ")"
  | none => "None"

/-- One of several possible values as it is shown: its name with a capital letter. -/
def describeChoice {α : Type} (name : α → String) (value : α) : String := (name value).capitalize

/-- A path as it is shown.  Unlike in other texts, apostrophes are escaped. -/
def describePath (path : String) : String :=
  let escape (c : Char) : List Char := if c = Char.ofNat 0x27 then ['\\', c] else Text.escape c
  String.ofList ('"' :: path.toList.flatMap escape ++ ['"'])

/-- The settings of the review service as they are shown among the arguments. -/
def describeReview (a : Args) : String :=
  "ReviewArgs \x7b api_key: " ++ describeOptional ApiKey.redacted a.apiKey ++
    ", model: " ++ Text.quote a.model ++ ", api_base: " ++ Text.quote a.apiBase ++
    ", timeout_secs: " ++ toString a.timeout ++ " \x7d"

/-- The arguments as they are shown. -/
def describe (a : Args) : String :=
  "Args \x7b input_path: " ++ describeOptional describePath a.inputPath ++
    ", language: " ++ describeOptional (describeChoice Language.fenceTag) a.language ++
    ", emit: " ++ describeChoice Target.name a.target ++
    ", max_depth: " ++ toString a.maxDepth ++
    ", output: " ++ describeOptional describePath a.outputPath ++
    ", render: " ++ describeOptional (describeChoice ImageFormat.name) a.image ++
    ", format: " ++ describeChoice SummaryFormat.name a.format ++
    ", list_languages: " ++ toString a.listLanguages ++ ", review: " ++ a.describeReview ++
    ", verbose: " ++ toString a.verbosity ++ " \x7d"

end Args
end SyntaxInspector
