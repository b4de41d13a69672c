import SyntaxInspector.Path
import SyntaxInspector.Text.Blank

/-! # Source languages

The languages whose source code can be inspected, and the ways to find a language: by its name, by
the extension of a file, or by the path of a file.

* `Language.all` lists the languages in the order in which they are shown and tried;
* `Language.ofName?`, `Language.ofExtension?` and `Language.ofPath?` find a language. -/

namespace SyntaxInspector

/-- A language with a grammar. -/
inductive Language where
  | python
  | javaScript
  | java
  | c
  | cpp
  deriving DecidableEq, Repr

namespace Language

/-- Every language, in the order in which they are shown and tried. -/
def all : List Language := [python, javaScript, java, c, cpp]

theorem mem_all (l : Language) : l ∈ all := by
  cases l <;> decide

/-- The name as it is shown. -/
def displayName : Language → String
  | python => "Python"
  | javaScript => "JavaScript"
  | java => "Java"
  | c => "C"
  | cpp => "C++"

/-- The name behind the opening fence of a code block. -/
def fenceTag : Language → String
  | python => "python"
  | javaScript => "javascript"
  | java => "java"
  | c => "c"
  | cpp => "cpp"

/-- The usual extension of a file, in lower case and without its dot. -/
def mainExtension : Language → String
  | python => "py"
  | javaScript => "js"
  | java => "java"
  | c => "c"
  | cpp => "cpp"

/-- The other extensions. -/
def otherExtensions : Language → List String
  | python | java => []
  | javaScript => ["mjs", "cjs"]
  | c => ["h"]
  | cpp => ["cc", "cxx", "hpp", "hh", "hxx"]

/-- Every extension, the usual one first. -/
def extensions (l : Language) : List String := l.mainExtension :: l.otherExtensions

/-- The characters with the letters of ASCII in lower case. -/
def fold (s : String) : List Char := s.toList.map Char.toLower

/-- The two texts differ at most in the case of ASCII letters. -/
def sameFold (s t : String) : Bool := fold s == fold t

/-- The language a file extension belongs to, in upper or lower case. -/
def ofExtension? (ext : String) : Option Language :=
  all.find? fun l => l.extensions.any (·.toList == fold ext)

/-- The language of a file, by the extension of its name. -/
def ofPath? (path : String) : Option Language := (Path.extension? path).bind ofExtension?

/-- The language has this name: the one shown, the fence tag or the usual extension. -/
def hasName (l : Language) (name : String) : Bool :=
  sameFold name l.displayName || sameFold name l.fenceTag || sameFold name l.mainExtension

/-- The language with a name, in upper or lower case and with blanks around it. -/
def ofName? (name : String) : Option Language := all.find? (·.hasName (Text.trim name))

end Language
end SyntaxInspector
