import SyntaxInspector.Json.Decode
import SyntaxInspector.Review.Error
import SyntaxInspector.Text.Blank

/-! # Answers of the review service

A successful answer holds candidates, each with a content made of parts, and possibly the reason why
the prompt was blocked.  The review is the text of the first candidate.

* `Response` is an answer, `Response.decode` reads it, `Response.review` takes the review out of it;
* `ServiceError` is what the service says about a failure, `refusal` the error made of it. -/

namespace SyntaxInspector

/-- A piece of a content; it may hold something other than text. -/
structure Part where
  text : Option String
  deriving DecidableEq, Repr

/-- A content in pieces. -/
structure Content where
  parts : List Part
  deriving DecidableEq, Repr

/-- One of the answers the model gives. -/
structure Candidate where
  content : Option Content
  deriving DecidableEq, Repr

/-- What the service says about the prompt. -/
structure PromptFeedback where
  blockReason : Option String
  deriving DecidableEq, Repr

/-- A successful answer of the service. -/
structure Response where
  candidates : List Candidate
  promptFeedback : Option PromptFeedback
  deriving DecidableEq, Repr

open Json in
/-- Asks for a part. -/
def Part.decode : Decoder Part := fun d =>
  (decodeRecord₁ (.optional "text" decodeText) d).map Part.mk

open Json in
/-- Asks for a content. -/
def Content.decode : Decoder Content := fun d =>
  (decodeRecord₁ (.listed "parts" Part.decode) d).map Content.mk

open Json in
/-- Asks for a candidate. -/
def Candidate.decode : Decoder Candidate := fun d =>
  (decodeRecord₁ (.optional "content" Content.decode) d).map Candidate.mk

open Json in
/-- Asks for what is said about the prompt. -/
def PromptFeedback.decode : Decoder PromptFeedback := fun d =>
  (decodeRecord₁ (.optional "blockReason" decodeText) d).map PromptFeedback.mk

namespace Response

open Json in
/-- Asks for a successful answer. -/
def decode : Decoder Response := fun d =>
  (decodeRecord₂ (.listed "candidates" Candidate.decode)
    (.optional "promptFeedback" PromptFeedback.decode) d).map fun (c, f) => ⟨c, f⟩

/-- The text of a candidate: the texts of its parts, one after the other. -/
def candidateText (c : Candidate) : String :=
  match c.content with
  | none => ""
  | some content => String.join (content.parts.filterMap Part.text)

/-- The text of the first candidate. -/
def text (r : Response) : String :=
  match r.candidates with
  | [] => ""
  | c :: _ => candidateText c

/-- The review: the text of the first candidate, unless the prompt was blocked or the text is
blank. -/
def review (r : Response) : Except ReviewError String :=
  match r.promptFeedback.bind PromptFeedback.blockReason with
  | some reason => .error (.blocked reason)
  | none => if Text.isBlankText r.text then .error .emptyResponse else .ok r.text

/-- The review in the body of a successful answer. -/
def reviewOfBody (body : String) : Except ReviewError String :=
  match (Json.read body).decode decode with
  | .ok r => r.review
  | .error fault => .error (.undecodable fault)

end Response

/-- What the service says about a failure. -/
structure ServiceError where
  message : String
  status : Option String
  deriving DecidableEq, Repr

namespace ServiceError

open Json in
/-- Asks for the failure itself. -/
def decodeDetail : Decoder ServiceError := fun d =>
  (decodeRecord₂ (.required "message" decodeText) (.optional "status" decodeText) d).map
    fun (m, s) => ⟨m, s⟩

open Json in
/-- Asks for the object that holds the failure. -/
def decode : Decoder ServiceError := decodeRecord₁ (.required "error" decodeDetail)

/-- The failure in a few words. -/
def describe (e : ServiceError) : String :=
  match e.status with
  | some status => status ++ ": " ++ e.message
  | none => e.message

end ServiceError

/-- The error for an answer without success: what the service says about it, or else the body. -/
def refusal (status : Nat) (body : String) : ReviewError :=
  match (Json.read body).decode ServiceError.decode with
  | .ok e => .refused status e.describe
  | .error _ => .refused status (Text.trim body)

end SyntaxInspector
