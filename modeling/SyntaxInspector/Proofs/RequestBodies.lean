import SyntaxInspector.Proofs.JsonLayout
import SyntaxInspector.Proofs.ReviewOutcome
import SyntaxInspector.Proofs.TextBytes
import SyntaxInspector.Review.Prompt

/-! # Bodies of requests

A prompt may hold any characters, those that mean something in JSON included.  In the body of a
request it is one text all the same, and nothing else of the body depends on it.

* `requestDraft` is the value that a body is JSON of;
* `decodeContents` asks for the contents of a request, by the decoders that answers are read with;
* `requestBody_holds_prompt` is the result. -/

namespace SyntaxInspector

open Json

/-- An object of some members, as it is read. -/
def closedObject (members : List (String × Draft)) : Draft :=
  .object (members.map fun m => (some m.1, m.2)) .closed

/-- The body of a request as it is read: one content with a role and one part, which is the
prompt. -/
def requestDraft (prompt : String) : Draft :=
  closedObject [("contents", .array [closedObject [
    ("role", .text (some "user")),
    ("parts", .array [closedObject [("text", .text (some prompt))]] .closed)]] .closed)]

/-- A content of a request: whose it is, and its parts. -/
structure SentContent where
  role : String
  parts : List Part
  deriving DecidableEq, Repr

/-- Asks for a content of a request. -/
def SentContent.decode : Decoder SentContent := fun d =>
  (decodeRecord₂ (.required "role" decodeText) (.listed "parts" Part.decode) d).map
    fun (role, parts) => ⟨role, parts⟩

/-- Asks for the contents of a request. -/
def decodeContents : Decoder (List SentContent) :=
  decodeRecord₁ (.listed "contents" SentContent.decode)

theorem draft_requestJson (prompt : String) :
    (requestJson prompt).draft = requestDraft prompt := by
  rfl

theorem isJson_requestBody_iff (prompt : String) (d : Draft) :
    IsJson (requestBody prompt) d ↔ d = requestDraft prompt := by
  rw [requestBody, isJson_compact_iff, draft_requestJson]

theorem decodeContents_requestDraft (prompt : String) :
    decodeContents (requestDraft prompt) = .ok [⟨"user", [⟨some prompt⟩]⟩] := by
  rfl

/-- The contents of a request are those of its prompt. -/
theorem decode_requestBody (prompt : String) :
    (Json.read (requestBody prompt)).decode decodeContents =
      .ok [⟨"user", [⟨some prompt⟩]⟩] := by
  have hjson : IsJson (requestBody prompt) (requestDraft prompt) :=
    (isJson_requestBody_iff prompt _).mpr rfl
  obtain ⟨hread, -⟩ := isJson_iff.mp hjson
  rw [hread, Document.decode, decodeContents_requestDraft]
  rfl

/-- The body of a request is JSON, of one value only: a content of the user with one part, which is
the prompt.  Its bytes are read back as the prompt, character for character, so different prompts
have different bodies. -/
theorem requestBody_holds_prompt (prompt : String) :
    (∀ d, IsJson (requestBody prompt) d ↔ d = requestDraft prompt) ∧
    (Json.read (Text.decodeLossy (Text.encode (requestBody prompt)))).decode decodeContents =
      .ok [⟨"user", [⟨some prompt⟩]⟩] ∧
    ∀ prompt', Text.encode (requestBody prompt') = Text.encode (requestBody prompt) ↔
      prompt' = prompt := by
  refine ⟨isJson_requestBody_iff prompt, ?_, fun prompt' => ⟨fun hbytes => ?_, fun h => h ▸ rfl⟩⟩
  · rw [Text.decodeLossy_encode]
    exact decode_requestBody prompt
  · have hbody : requestBody prompt' = requestBody prompt := by
      rw [← Text.decodeLossy_encode (requestBody prompt'), hbytes, Text.decodeLossy_encode]
    have hread := decode_requestBody prompt'
    rw [hbody, decode_requestBody] at hread
    simpa using hread.symm

end SyntaxInspector
