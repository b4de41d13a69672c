import SyntaxInspector.Diagnostic
import SyntaxInspector.Json.Draft

/-! # Why there is no review -/

namespace SyntaxInspector

/-- Why there is no review. -/
inductive ReviewError where
  /-- The key is missing or blank. -/
  | missingApiKey
  /-- The request cannot be made, or nobody answers it. -/
  | unreachable
  /-- The service answers with another status than success. -/
  | refused (status : Nat) (detail : String)
  /-- The answer is not what the service should answer. -/
  | undecodable (fault : Json.Fault)
  /-- The service does not answer this prompt. -/
  | blocked (reason : String)
  /-- The answer has no text. -/
  | emptyResponse
  deriving DecidableEq, Repr

namespace ReviewError

/-- What is wrong. -/
def message : ReviewError → String
  | missingApiKey => "Gemini API key not found"
  | unreachable => "request to the review service failed"
  | refused status detail => "review service returned " ++ toString status ++ ": " ++ detail
  | undecodable _ => "failed to decode review response"
  | blocked reason => "the prompt was blocked by the review service: " ++ reason
  | emptyResponse => "the review service returned no text"

/-- The code the error is shown with. -/
def code : ReviewError → String
  | missingApiKey => "review::missing_api_key"
  | unreachable => "review::http"
  | refused _ _ => "review::api"
  | undecodable _ => "review::decode"
  | blocked _ => "review::blocked"
  | emptyResponse => "review::empty_response"

/-- What can be done about it. -/
def help : ReviewError → Option String
  | missingApiKey => some "pass --api-key or set GEMINI_API_KEY"
  | _ => none

/-- The error as it is shown. -/
def diagnostic (e : ReviewError) : Diagnostic :=
  { message := e.message, code := e.code, help := e.help }

end ReviewError
end SyntaxInspector
