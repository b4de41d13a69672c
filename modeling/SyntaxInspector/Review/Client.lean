import SyntaxInspector.Review.Address
import SyntaxInspector.Review.Config
import SyntaxInspector.Review.Prompt
import SyntaxInspector.Review.Response
import SyntaxInspector.Text.Utf8

/-! # Requesting a review

One request is sent and one answer comes back.  Nothing is sent if the key is blank, if the key
cannot be sent, or if the address is none a request can be sent to.

* `HttpRequest` is what is sent, `HttpReply` what comes back;
* `ReviewConfig.request?` is the request for a prompt, `HttpReply.review` the outcome of a reply;
* `requestReview` sends the one and judges the other. -/

namespace SyntaxInspector

variable {m : Type → Type} [Monad m]

/-- A request to post JSON, identified by an API key. -/
structure HttpRequest where
  address : WebAddress
  apiKey : String
  body : String
  deriving DecidableEq, Repr

/-- The answer to a request. -/
structure HttpReply where
  status : Nat
  body : List UInt8
  deriving DecidableEq, Repr

/-- The request for a prompt, if it can be made. -/
def ReviewConfig.request? (c : ReviewConfig) (prompt : String) : Option HttpRequest := do
  let address ← WebAddress.ofText? c.endpoint
  guard c.apiKey.isSendable
  return ⟨address, c.apiKey.secret, requestBody prompt⟩

/-- What arrives of an answer that was sent.  A status has three digits, and one below 200 only
announces an answer that does not come, unless it agrees to talk otherwise (101).  The statuses 101,
204 and 304 come without a body. -/
def HttpReply.arriving? (r : HttpReply) : Option HttpReply :=
  if r.status = 101 || r.status = 204 || r.status = 304 then some { r with body := [] }
  else if 200 ≤ r.status && r.status ≤ 999 then some r
  else none

/-- The status says that the request was successful. -/
def HttpReply.isSuccess (r : HttpReply) : Bool := 200 ≤ r.status && r.status ≤ 299

/-- The outcome of a reply. -/
def HttpReply.review (r : HttpReply) : Except ReviewError String :=
  let body := Text.decodeLossy r.body
  if r.isSuccess then Response.reviewOfBody body else .error (refusal r.status body)

/-- The settings are good enough to ask for a review. -/
def ReviewConfig.checkKey (c : ReviewConfig) : Except ReviewError Unit :=
  if c.apiKey.isBlank then .error .missingApiKey else .ok ()

/-- Asks for a review.  `send` is `none` if nobody answers. -/
def requestReview (send : HttpRequest → m (Option HttpReply)) (c : ReviewConfig)
    (r : ReviewRequest) : m (Except ReviewError String) := do
  match c.checkKey with
  | .error e => return .error e
  | .ok () =>
    match c.request? r.prompt with
    | none => return .error .unreachable
    | some request =>
      match ← send request with
      | none => return .error .unreachable
      | some reply => return reply.review

end SyntaxInspector
