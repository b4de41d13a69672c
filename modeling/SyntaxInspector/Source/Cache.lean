import SyntaxInspector.Source.Error
import SyntaxInspector.Source.Parsed
import SyntaxInspector.Text.Column

/-! # Loading grammars

A grammar is loaded when it is first asked for and kept from then on; one that does not load is
tried again at the next request.

* `Grammars` are the operations on grammars: loading one, and parsing with it;
* `Cache` remembers which grammars are loaded, `Cache.require`, `Cache.parse` and `Cache.loadAll`
  use them, `Cache.parseOnce` does without one;
* `LoadStatus` is the outcome of loading one grammar, `statusTable` shows the outcomes. -/

namespace SyntaxInspector

variable {m : Type → Type} [Monad m]

/-- The operations on grammars.  Loading fails with a reason; parsing may yield no tree. -/
structure Grammars (m : Type → Type) where
  load : Language → m (Except String Unit)
  parse : Language → String → m (Option ParsedTree)

/-- The languages whose grammars are loaded. -/
structure Cache where
  loaded : List Language := []
  deriving DecidableEq, Repr

/-- The outcome of loading the grammar of a language. -/
structure LoadStatus where
  language : Language
  failure : Option ParseError := none
  deriving DecidableEq, Repr

namespace Cache

/-- The grammar of the language is loaded. -/
def isLoaded (c : Cache) (l : Language) : Bool := c.loaded.contains l

/-- Sees to it that the grammar of a language is loaded.  Nothing is remembered of a failure. -/
def require (g : Grammars m) (l : Language) (c : Cache) : m (Except ParseError Unit × Cache) :=
  if c.isLoaded l then return (.ok (), c)
  else do
    match ← g.load l with
    | .ok () => return (.ok (), ⟨l :: c.loaded⟩)
    | .error reason => return (.error (.grammarNotLoaded l reason), c)

/-- Parses a source text with the grammar of a language, loaded if need be. -/
def parse (g : Grammars m) (l : Language) (source : String) (c : Cache) :
    m (Except ParseError ParsedSource × Cache) := do
  match ← c.require g l with
  | (.error e, c) => return (.error e, c)
  | (.ok (), c) =>
    match ← g.parse l source with
    | some tree => return (.ok { tree with language := l, source }, c)
    | none => return (.error (.noTree l), c)

/-- Parses a source text with a cache of its own. -/
def parseOnce (g : Grammars m) (l : Language) (source : String) :
    m (Except ParseError ParsedSource) := do
  let (outcome, _) ← ({} : Cache).parse g l source
  return outcome

/-- Loads the grammars of some languages in order; a failure does not stop the others. -/
def loadEach (g : Grammars m) : List Language → Cache → m (List LoadStatus × Cache)
  | [], c => return ([], c)
  | l :: ls, c => do
    let (outcome, c) ← c.require g l
    let status : LoadStatus := match outcome with
      | .ok () => ⟨l, none⟩
      | .error e => ⟨l, some e⟩
    let (statuses, c) ← loadEach g ls c
    return (status :: statuses, c)

/-- Loads every grammar. -/
def loadAll (g : Grammars m) (c : Cache) : m (List LoadStatus × Cache) := loadEach g Language.all c

end Cache

/-- The line of a language in the table: its name, its extensions, and how loading went. -/
def LoadStatus.line (s : LoadStatus) : String :=
  Text.padRight 12 s.language.displayName ++
    Text.padRight 32 (", ".intercalate s.language.extensions) ++
    (match s.failure with
      | none => "ok\n"
      | some e => "error: " ++ e.message ++ "\n")

/-- The outcomes as a table. -/
def statusTable (statuses : List LoadStatus) : String := String.join (statuses.map LoadStatus.line)

/-- At least one grammar is loaded. -/
def anyLoaded (statuses : List LoadStatus) : Bool := statuses.any (·.failure.isNone)

end SyntaxInspector
