import SyntaxInspector.Diagnostic
import SyntaxInspector.Language

/-! # Why a source text has no tree -/

namespace SyntaxInspector

/-- Why a source text has no tree. -/
inductive ParseError where
  /-- No language has this name. -/
  | unsupportedLanguage (name : String)
  /-- The grammar of a language does not load; the loader says why. -/
  | grammarNotLoaded (language : Language) (reason : String)
  /-- The grammar is loaded, but parsing gives no tree. -/
  | noTree (language : Language)
  deriving DecidableEq, Repr

namespace ParseError

/-- What is wrong. -/
def message : ParseError → String
  | unsupportedLanguage name => "unsupported language: " ++ name
  | grammarNotLoaded l reason => "failed to load " ++ l.displayName ++ " grammar: " ++ reason
  | noTree l => "tree-sitter returned no tree for " ++ l.displayName ++ " source"

/-- The names of all languages. -/
def supported : String := ", ".intercalate (Language.all.map Language.displayName)

/-- The error as it is shown. -/
def diagnostic (e : ParseError) : Diagnostic :=
  match e with
  | unsupportedLanguage _ =>
    { message := e.message
      code := "parser::unsupported_language"
      help := some ("supported languages: " ++ supported) }
  | grammarNotLoaded _ _ => { message := e.message, code := "parser::language_load" }
  | noTree _ => { message := e.message, code := "parser::parse_failed" }

end ParseError

/-- The language with a name, or the error that there is none. -/
def Language.ofName (name : String) : Except ParseError Language :=
  match ofName? name with
  | some l => .ok l
  | none => .error (.unsupportedLanguage name)

end SyntaxInspector
