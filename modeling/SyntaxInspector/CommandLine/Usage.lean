import SyntaxInspector.CommandLine.Parse

/-! # What is printed instead of a run

A command line without arguments of a run asks for the help or the version, or it is wrong.

* `usage` is the help, with a line for each option, and `versionLine` names the program;
* `Refusal.answer` is printed on standard output, `Refusal.complaint` on standard error. -/

namespace SyntaxInspector

/-- The name of the program and its version. -/
def versionLine : String := "astview 0.1.0\n"

/-- What an option is for. -/
def Switch.purpose : Switch → String
  | .inputPath => "source file, standard input if there is none"
  | .language => "source language, told from the file extension if there is none"
  | .target => "what to emit: " ++ ", ".intercalate (Target.all.map Target.name)
  | .maxDepth => "greatest depth of graph and outline, 3 to 15"
  | .outputPath => "output file, standard output if there is none"
  | .image => "draw the graph with Graphviz: " ++
      ", ".intercalate (ImageFormat.all.map ImageFormat.name)
  | .format => "form of a summary: text, json"
  | .listLanguages => "load every grammar and show how that went"
  | .apiKey => "key of the review service, or GEMINI_API_KEY"
  | .model => "model that reviews, or ASTVIEW_MODEL"
  | .apiBase => "address of the review service, or ASTVIEW_API_BASE"
  | .timeout => "patience with the review service in seconds"
  | .verbose => "log more, the more often it is given"
  | .help => "show this help"
  | .version => "show the version"

/-- The forms of an option. -/
def Switch.forms (s : Switch) : String :=
  let short := match s.letter? with
    | some c => String.ofList ['-', c] ++ ", "
    | none => "    "
  short ++ "--" ++ s.longName ++ (if s.takesValue then " <VALUE>" else "")

/-- The help. -/
def usage : String :=
  "parse source code with tree-sitter and inspect its syntax tree\n\n" ++
    "Usage: astview [OPTIONS]\n\nOptions:\n" ++
    String.join (Switch.all.map fun s =>
      "  " ++ Text.padRight 28 s.forms ++ s.purpose ++ "\n")

namespace Refusal

/-- What is wrong with the command line; nothing if it asks for help or version. -/
def message? : Refusal → Option String
  | .unknownArgument => some "unexpected argument"
  | .invalidValue => some "invalid value"
  | .invalidNumber => some "invalid number"
  | .repeated => some "an option is given more than once"
  | .unexpectedValue => some "a flag takes no value"
  | .missingOutput => some "--render requires --output"
  | .help | .version => none

/-- What is printed on standard output. -/
def answer : Refusal → String
  | .help => usage
  | .version => versionLine
  | _ => ""

/-- What is printed on standard error. -/
def complaint (r : Refusal) : String :=
  match r.message? with
  | some message => "error: " ++ message ++ "\n\nFor more information, try --help.\n"
  | none => ""

end Refusal
end SyntaxInspector
