/-! # Options of the command line

* `Switch` is an option, `Switch.ofLong?` and `Switch.ofShort?` find it by its name or letter;
* `Switch.takesValue` tells options with a value from flags. -/

namespace SyntaxInspector

/-- An option of the command line. -/
inductive Switch where
  | inputPath
  | language
  | target
  | maxDepth
  | outputPath
  | image
  | format
  | listLanguages
  | apiKey
  | model
  | apiBase
  | timeout
  | verbose
  | help
  | version
  deriving DecidableEq, Repr

namespace Switch

/-- The name of an option behind two dashes. -/
def longName : Switch → String
  | inputPath => "input-path"
  | language => "language"
  | target => "emit"
  | maxDepth => "max-depth"
  | outputPath => "output"
  | image => "render"
  | format => "format"
  | listLanguages => "list-languages"
  | apiKey => "api-key"
  | model => "model"
  | apiBase => "api-base"
  | timeout => "timeout-secs"
  | verbose => "verbose"
  | help => "help"
  | version => "version"

/-- The letter of an option behind one dash, for the options that have one. -/
def letter? : Switch → Option Char
  | inputPath => some 'i'
  | language => some 'l'
  | target => some 'e'
  | maxDepth => some 'd'
  | outputPath => some 'o'
  | verbose => some 'v'
  | help => some 'h'
  | version => some 'V'
  | _ => none

/-- Every option. -/
def all : List Switch :=
  [inputPath, language, target, maxDepth, outputPath, image, format, listLanguages, apiKey, model,
    apiBase, timeout, verbose, help, version]

/-- The option is followed by a value. -/
def takesValue : Switch → Bool
  | listLanguages | verbose | help | version => false
  | _ => true

/-- The option with a name; names are not abbreviated. -/
def ofLong? (name : String) : Option Switch := all.find? (·.longName == name)

/-- The option with a letter. -/
def ofShort? (c : Char) : Option Switch := all.find? (·.letter? == some c)

end Switch
end SyntaxInspector
