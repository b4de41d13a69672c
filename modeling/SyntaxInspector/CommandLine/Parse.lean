import SyntaxInspector.CommandLine.Args
import SyntaxInspector.CommandLine.Number
import SyntaxInspector.CommandLine.Switch

/-! # Reading the command line

The words of a command line are read from left to right, and the first error ends the reading.  An
option may get its value from the same word or from the next one.  In the second case the value is
looked at only when the next option is recognised or the line ends; until then it is pending, so an
unknown word behind it is reported first.  A word that begins with a dash and has more to it is
never a value.

Options that are not on the line take their values from the environment, if it has any, and else
their defaults.

* `Refusal` says why there are no arguments, `Environment` is the part of the environment that
  counts;
* `Given` collects the values, `Reading` is the state between two words;
* `Args.parse` reads a command line. -/

namespace SyntaxInspector

/-- Why a command line yields no arguments. -/
inductive Refusal where
  /-- There is no such option, or a word that belongs to none. -/
  | unknownArgument
  /-- A value is missing, empty, or not one of the possible values. -/
  | invalidValue
  /-- A value is not a number in the range of the option. -/
  | invalidNumber
  /-- An option is given twice. -/
  | repeated
  /-- A flag is given a value. -/
  | unexpectedValue
  /-- An image is asked for, but no file for it. -/
  | missingOutput
  /-- The help is asked for. -/
  | help
  /-- The version is asked for. -/
  | version
  deriving DecidableEq, Repr

/-- The exit code of a program that is asked for help or version is that of success. -/
def Refusal.exitCode : Refusal → Nat
  | .help | .version => 0
  | _ => 2

/-- The variables of the environment that stand in for options. -/
structure Environment where
  apiKey : Option String := none
  model : Option String := none
  apiBase : Option String := none
  deriving DecidableEq, Repr

/-- The values found so far. -/
structure Given where
  inputPath : Option String := none
  language : Option Language := none
  target : Option Target := none
  maxDepth : Option Nat := none
  outputPath : Option String := none
  image : Option ImageFormat := none
  format : Option SummaryFormat := none
  listLanguages : Option Unit := none
  apiKey : Option String := none
  model : Option String := none
  apiBase : Option String := none
  timeout : Option Nat := none
  verbosity : Nat := 0
  deriving DecidableEq, Repr

namespace CommandLine

/-- The value of an option that is given once; `old` is an earlier one. -/
def once {α : Type} (old : Option α) (new : Except Refusal α) : Except Refusal (Option α) :=
  if old.isSome then .error .repeated else new.map some

/-- A path, which is not empty. -/
def pathValue (value : String) : Except Refusal String :=
  if value.isEmpty then .error .invalidValue else .ok value

/-- One of some possible values, by its exact name. -/
def choice {α : Type} (name : α → String) (values : List α) (value : String) : Except Refusal α :=
  match values.find? (name · == value) with
  | some a => .ok a
  | none => .error .invalidValue

/-- A language by its fence tag, or by one of two short names. -/
def languageValue (value : String) : Except Refusal Language :=
  if value = "js" then .ok .javaScript
  else if value = "c++" then .ok .cpp
  else choice Language.fenceTag Language.all value

/-- The least and the greatest depth that may be asked for. -/
def depthRange : Nat × Nat := (3, 15)

/-- A depth in its range. -/
def depthValue (value : String) : Except Refusal Nat :=
  match signed? value.toList with
  | some n =>
    if depthRange.1 ≤ n && n ≤ depthRange.2 then .ok n.toNat else .error .invalidNumber
  | none => .error .invalidNumber

/-- A number of seconds that fits a 64-bit word. -/
def timeoutValue (value : String) : Except Refusal Nat :=
  match unsigned? value.toList with
  | some n => if n < UInt64.size then .ok n else .error .invalidNumber
  | none => .error .invalidNumber

/-- The greatest verbosity; counting stops there. -/
def maxVerbosity : Nat := 255

end CommandLine

namespace Given

open CommandLine

/-- Gives an option a value. -/
def assign (g : Given) (s : Switch) (value : String) : Except Refusal Given :=
  match s with
  | .inputPath => do return { g with inputPath := ← once g.inputPath (pathValue value) }
  | .language => do return { g with language := ← once g.language (languageValue value) }
  | .target => do return { g with target := ← once g.target (choice Target.name Target.all value) }
  | .maxDepth => do return { g with maxDepth := ← once g.maxDepth (depthValue value) }
  | .outputPath => do return { g with outputPath := ← once g.outputPath (pathValue value) }
  | .image => do
    return { g with image := ← once g.image (choice ImageFormat.name ImageFormat.all value) }
  | .format => do
    return { g with format := ← once g.format (choice SummaryFormat.name [.text, .json] value) }
  | .apiKey => do return { g with apiKey := ← once g.apiKey (.ok value) }
  | .model => do return { g with model := ← once g.model (.ok value) }
  | .apiBase => do return { g with apiBase := ← once g.apiBase (.ok value) }
  | .timeout => do return { g with timeout := ← once g.timeout (timeoutValue value) }
  | .listLanguages | .verbose | .help | .version => .error .unexpectedValue

/-- Sets a flag.  An option that needs a value is none. -/
def flag (g : Given) (s : Switch) : Except Refusal Given :=
  match s with
  | .listLanguages => do return { g with listLanguages := ← once g.listLanguages (.ok ()) }
  | .verbose => .ok { g with verbosity := min maxVerbosity (g.verbosity + 1) }
  | .help => .error .help
  | .version => .error .version
  | _ => .error .invalidValue

end Given

/-- The state between two words: the values found, the option whose value is pending with the word
for it, if that has come, and whether options are over. -/
structure Reading where
  given : Given := {}
  pending : Option (Switch × Option String) := none
  finished : Bool := false
  deriving DecidableEq, Repr

namespace Reading

/-- Looks at the pending value. -/
def settle (r : Reading) : Except Refusal Reading :=
  match r.pending with
  | none => .ok r
  | some (_, none) => .error .invalidValue
  | some (s, some value) => do return { r with given := ← r.given.assign s value, pending := none }

/-- An option with its value in the same word. -/
def withValue (r : Reading) (s : Switch) (value : String) : Except Refusal Reading := do
  let r ← r.settle
  return { r with given := ← r.given.assign s value }

/-- An option whose value is the next word. -/
def expectValue (r : Reading) (s : Switch) : Except Refusal Reading := do
  let r ← r.settle
  return { r with pending := some (s, none) }

/-- A flag. -/
def withFlag (r : Reading) (s : Switch) : Except Refusal Reading := do
  let r ← r.settle
  return { r with given := ← r.given.flag s }

/-- A word behind two dashes: a name, and a value behind an equals sign. -/
def long (r : Reading) (word : List Char) : Except Refusal Reading :=
  let name := String.ofList (word.takeWhile (· ≠ '='))
  match Switch.ofLong? name, word.dropWhile (· ≠ '=') with
  | none, _ => .error .unknownArgument
  | some s, [] => if s.takesValue then r.expectValue s else r.withFlag s
  | some s, _ :: value =>
    if s.takesValue then r.withValue s (String.ofList value) else .error .unexpectedValue

/-- A word behind one dash: letters of flags, of which the last one may be of an option with a value
behind it, with or without an equals sign. -/
def short (r : Reading) : List Char → Except Refusal Reading
  | [] => .ok r
  | c :: cs =>
    match Switch.ofShort? c with
    | none => .error .unknownArgument
    | some s =>
      if s.takesValue then
        match cs with
        | [] => r.expectValue s
        | '=' :: value => r.withValue s (String.ofList value)
        | value => r.withValue s (String.ofList value)
      else do
        let r ← r.withFlag s
        r.short cs

/-- A word that is no option: the value of the option before it, or else unknown. -/
def plain (r : Reading) (word : String) : Except Refusal Reading :=
  match r.pending with
  | some (s, none) => .ok { r with pending := some (s, some word) }
  | _ => .error .unknownArgument

/-- The next word. -/
def word (r : Reading) (w : String) : Except Refusal Reading :=
  if r.finished then .error .unknownArgument
  else match w.toList with
    | ['-', '-'] => .ok { r with finished := true }
    | '-' :: '-' :: name => r.long name
    | ['-'] => r.plain w
    | '-' :: letters => r.short letters
    | _ => r.plain w

/-- All words. -/
def words (r : Reading) : List String → Except Refusal Reading
  | [] => r.settle
  | w :: ws => do
    let r ← r.word w
    r.words ws

end Reading

/-- The values with those of the environment where the line has none. -/
def Given.orElse (g : Given) (e : Environment) : Given :=
  { g with
    apiKey := g.apiKey.or e.apiKey
    model := g.model.or e.model
    apiBase := g.apiBase.or e.apiBase }

/-- The arguments, with defaults where there is no value. -/
def Given.toArgs (g : Given) : Args :=
  let d : Args := {}
  { inputPath := g.inputPath
    language := g.language
    target := g.target.getD d.target
    maxDepth := g.maxDepth.getD d.maxDepth
    outputPath := g.outputPath
    image := g.image
    format := g.format.getD d.format
    listLanguages := g.listLanguages.isSome
    apiKey := g.apiKey.map ApiKey.mk
    model := g.model.getD d.model
    apiBase := g.apiBase.getD d.apiBase
    timeout := g.timeout.getD d.timeout
    verbosity := g.verbosity }

/-- The arguments of a command line in an environment. -/
def Args.parse (words : List String) (e : Environment) : Except Refusal Args := do
  let r ← Reading.words {} words
  let g := r.given.orElse e
  if g.image.isSome && g.outputPath.isNone then throw .missingOutput
  return g.toArgs

/-- A command line yields arguments if its words yield values, and with an image a file for it. -/
theorem Args.parse_eq_ok_iff {words : List String} {e : Environment} {a : Args} :
    Args.parse words e = .ok a ↔
      ∃ r : Reading, Reading.words {} words = .ok r ∧
        ((r.given.orElse e).image.isSome → (r.given.orElse e).outputPath.isSome) ∧
        (r.given.orElse e).toArgs = a := by
  unfold Args.parse
  cases Reading.words {} words with
  | error refusal => simp [bind, Except.bind]
  | ok r =>
      cases himage : (r.given.orElse e).image.isSome <;>
      cases hpath : (r.given.orElse e).outputPath <;>
      simp [bind, Except.bind, pure, Except.pure, throw, throwThe, MonadExceptOf.throw, himage,
        hpath]

end SyntaxInspector
