import SyntaxInspector.Json.Basic
import SyntaxInspector.Language

/-! # Asking for a review

* `ReviewRequest.prompt` is the text a model is asked with: source code and summary between fixed
  instructions;
* `requestBody` is the JSON text that carries it. -/

namespace SyntaxInspector

/-- What a review is asked about. -/
structure ReviewRequest where
  language : Language
  code : String
  summary : String
  deriving DecidableEq, Repr

/-- The text a model is asked with; code and summary stand in it as they are. -/
def ReviewRequest.prompt (r : ReviewRequest) : String :=
  "You are a code analysis expert. Analyze the following " ++ r.language.displayName ++
    " code and its Abstract Syntax Tree summary.\n\nCode:\n```" ++ r.language.fenceTag ++ "\n" ++
    r.code ++ "\n```\n\nAST Summary:\n" ++ r.summary ++
    "\n\nPlease provide:\n1. A brief overview of what the code does\n" ++
    "2. Potential bugs or issues (if any)\n3. Code quality observations\n" ++
    "4. Suggestions for improvement (if applicable)\n\nKeep your analysis concise and practical."

/-- A prompt as the only part of the only content of a request. -/
def requestJson (prompt : String) : Json :=
  .record [("contents", .list [
    .record [("role", .text "user"), ("parts", .list [.record [("text", .text prompt)]])]])]

/-- The JSON text that carries a prompt. -/
def requestBody (prompt : String) : String := (requestJson prompt).compact

end SyntaxInspector
