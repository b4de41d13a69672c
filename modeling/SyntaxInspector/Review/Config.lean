import SyntaxInspector.Text.Blank
import SyntaxInspector.Text.Quoted

/-! # Settings of the review service

* `ApiKey` is a key that is shown as redacted wherever settings are shown;
* `ReviewConfig` holds the settings, `ReviewConfig.endpoint` is the address of the service. -/

namespace SyntaxInspector

/-- The key that identifies the user to the review service. -/
structure ApiKey where
  secret : String
  deriving DecidableEq

namespace ApiKey

/-- The key as it is shown: without the secret. -/
def redacted (_ : ApiKey) : String := "ApiKey(<redacted>)"

/-- A blank key counts as missing. -/
def isBlank (k : ApiKey) : Bool := Text.isBlankText k.secret

/-- The key can be sent as the value of a header: it has no control character but the tab. -/
def isSendable (k : ApiKey) : Bool :=
  k.secret.toList.all fun c => c = '\t' || (0x20 ≤ c.toNat && c.toNat ≠ 0x7F)

end ApiKey

/-- The model that is asked unless another one is named. -/
def defaultModel : String := "gemini-2.0-flash-exp"

/-- The address of the service unless another one is given. -/
def defaultApiBase : String := "https://generativelanguage.googleapis.com/v1beta"

/-- How many seconds to wait for the service unless told otherwise. -/
def defaultTimeout : Nat := 60

/-- The settings of the review service; the timeout is in seconds. -/
structure ReviewConfig where
  apiKey : ApiKey
  model : String := defaultModel
  apiBase : String := defaultApiBase
  timeout : Nat := defaultTimeout
  deriving DecidableEq

namespace ReviewConfig

/-- The text without the slashes at its end. -/
def trimSlashes (s : String) : String :=
  String.ofList (s.toList.reverse.dropWhile (· = '/')).reverse

/-- The address a review is requested at. -/
def endpoint (c : ReviewConfig) : String :=
  trimSlashes c.apiBase ++ "/models/" ++ c.model ++ ":generateContent"

/-- A number of seconds as it is shown. -/
def showSeconds (n : Nat) : String := if n = 0 then "0ns" else toString n ++ "s"

/-- The settings as they are shown. -/
def describe (c : ReviewConfig) : String :=
  "ReviewConfig \x7b api_key: " ++ c.apiKey.redacted ++ ", model: " ++ Text.quote c.model ++
    ", api_base: " ++ Text.quote c.apiBase ++ ", timeout: " ++ showSeconds c.timeout ++ " \x7d"

end ReviewConfig
end SyntaxInspector
