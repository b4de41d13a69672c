import SyntaxInspector.Proofs.JsonShapes
import SyntaxInspector.Proofs.Trimming
import SyntaxInspector.Review.Client

/-! # The outcome of a review

What comes of asking for a review, from the key and from the answer: its status, and the text of its
body.

* `responseShape` and `failureShape` are the JSON values the service should answer with, and
  `decode_response_iff`, `decode_failure_iff` say that these are what is decoded;
* `Response.joinedText` is the text of an answer;
* `requestReview_outcome` is the outcome for every key and every answer. -/

namespace SyntaxInspector

open Json

/-! ### Answers -/

/-- A piece of a content. -/
def partShape : Shape Part := fun d p => RecordShape₁ (.optional "text" TextShape) d p.text

/-- A content. -/
def contentShape : Shape Content := fun d c => RecordShape₁ (.listed "parts" partShape) d c.parts

/-- A candidate. -/
def candidateShape : Shape Candidate := fun d c =>
  RecordShape₁ (.optional "content" contentShape) d c.content

/-- What is said about the prompt. -/
def promptFeedbackShape : Shape PromptFeedback := fun d f =>
  RecordShape₁ (.optional "blockReason" TextShape) d f.blockReason

/-- A successful answer. -/
def responseShape : Shape Response := fun d r =>
  RecordShape₂ (.listed "candidates" candidateShape)
    (.optional "promptFeedback" promptFeedbackShape) d (r.candidates, r.promptFeedback)

/-- What the service says about a failure. -/
def detailShape : Shape ServiceError := fun d e =>
  RecordShape₂ (.required "message" TextShape) (.optional "status" TextShape) d
    (e.message, e.status)

/-- The answer of a service that fails. -/
def failureShape : Shape ServiceError := RecordShape₁ (.required "error" detailShape)

theorem Json.Decodes.map {α β : Type} {decode : Decoder α} {shape : Shape α}
    (h : Decodes decode shape) (make : α → β) (parts : β → α)
    (hmake : ∀ b, make (parts b) = b) (hparts : ∀ a, parts (make a) = a) :
    Decodes (fun d => (decode d).map make) (fun d b => shape d (parts b)) := by
  intro d b
  rw [map_eq_ok_iff]
  constructor
  · rintro ⟨a, ha, rfl⟩
    dsimp only
    rw [hparts]
    exact (h d a).mp ha
  · intro hb
    exact ⟨parts b, (h d _).mpr hb, hmake b⟩

theorem decodes_part : Decodes Part.decode partShape :=
  (decodes_record₁ (has_optional "text" decodes_text)).map Part.mk Part.text (fun _ => rfl)
    (fun _ => rfl)

theorem decodes_content : Decodes Content.decode contentShape :=
  (decodes_record₁ (has_listed "parts" decodes_part)).map Content.mk Content.parts (fun _ => rfl)
    (fun _ => rfl)

theorem decodes_candidate : Decodes Candidate.decode candidateShape :=
  (decodes_record₁ (has_optional "content" decodes_content)).map Candidate.mk Candidate.content
    (fun _ => rfl) (fun _ => rfl)

theorem decodes_promptFeedback : Decodes PromptFeedback.decode promptFeedbackShape :=
  (decodes_record₁ (has_optional "blockReason" decodes_text)).map PromptFeedback.mk
    PromptFeedback.blockReason (fun _ => rfl) (fun _ => rfl)

theorem decodes_response : Decodes Response.decode responseShape :=
  (decodes_record₂ (has_listed "candidates" decodes_candidate)
    (has_optional "promptFeedback" decodes_promptFeedback) (by decide)).map
    (fun p => (⟨p.1, p.2⟩ : Response)) (fun r => (r.candidates, r.promptFeedback)) (fun _ => rfl)
    (fun _ => rfl)

theorem decodes_detail : Decodes ServiceError.decodeDetail detailShape :=
  (decodes_record₂ (has_required "message" decodes_text) (has_optional "status" decodes_text)
    (by decide)).map (fun p => (⟨p.1, p.2⟩ : ServiceError)) (fun e => (e.message, e.status))
    (fun _ => rfl) (fun _ => rfl)

theorem decodes_failure : Decodes ServiceError.decode failureShape :=
  decodes_record₁ (has_required "error" decodes_detail)

theorem decode_response_iff (b : String) (r : Response) :
    (Json.read b).decode Response.decode = .ok r ↔ ∃ d, IsJson b d ∧ responseShape d r :=
  decode_eq_ok_iff decodes_response b r

theorem decode_failure_iff (b : String) (e : ServiceError) :
    (Json.read b).decode ServiceError.decode = .ok e ↔ ∃ d, IsJson b d ∧ failureShape d e :=
  decode_eq_ok_iff decodes_failure b e

/-! ### Outcomes -/

/-- The text of an answer: what the parts of the first candidate have of it, in order, and nothing
if there is no such candidate or it has no content. -/
def Response.joinedText (r : Response) : String :=
  String.join ((((r.candidates.head?.bind Candidate.content).map Content.parts).getD []).filterMap
    Part.text)

theorem Response.text_eq_joinedText (r : Response) : r.text = r.joinedText := by
  obtain ⟨_ | ⟨⟨_ | content⟩, candidates⟩, feedback⟩ := r <;> rfl

theorem refusal_of_failure {b : String} {d : Draft} {e : ServiceError} (hb : IsJson b d)
    (he : failureShape d e) (status : Nat) : refusal status b = .refused status e.describe := by
  rw [refusal, (decode_failure_iff b e).mpr ⟨d, hb, he⟩]

theorem refusal_of_other {b : String} (h : ¬∃ d e, IsJson b d ∧ failureShape d e)
    (status : Nat) : refusal status b = .refused status (Text.trim b) := by
  unfold refusal
  split
  · rename_i e hdecode
    obtain ⟨d, hb, he⟩ := (decode_failure_iff b e).mp hdecode
    exact absurd ⟨d, e, hb, he⟩ h
  · rfl

namespace Response

theorem reviewOfBody_of_response {b : String} {d : Draft} {r : Response} (hb : IsJson b d)
    (hr : responseShape d r) : reviewOfBody b = r.review := by
  rw [reviewOfBody, (decode_response_iff b r).mpr ⟨d, hb, hr⟩]

theorem reviewOfBody_of_other {b : String} (h : ¬∃ d r, IsJson b d ∧ responseShape d r) :
    ∃ fault, reviewOfBody b = .error (.undecodable fault) := by
  unfold reviewOfBody
  split
  · rename_i r hdecode
    obtain ⟨d, hb, hr⟩ := (decode_response_iff b r).mp hdecode
    exact absurd ⟨d, r, hb, hr⟩ h
  · exact ⟨_, rfl⟩

theorem review_of_blocked {r : Response} {reason : String}
    (h : r.promptFeedback.bind PromptFeedback.blockReason = some reason) :
    r.review = .error (.blocked reason) := by
  rw [review, h]

theorem review_of_blank {r : Response}
    (h : r.promptFeedback.bind PromptFeedback.blockReason = none)
    (htext : Text.trim r.joinedText = "") : r.review = .error .emptyResponse := by
  rw [Text.trim_eq_empty_iff, ← text_eq_joinedText] at htext
  simp [review, h, htext]

theorem review_of_text {r : Response}
    (h : r.promptFeedback.bind PromptFeedback.blockReason = none)
    (htext : Text.trim r.joinedText ≠ "") : r.review = .ok r.joinedText := by
  rw [Ne, Text.trim_eq_empty_iff, ← text_eq_joinedText] at htext
  simp [review, h, htext, ← text_eq_joinedText]

/-- Only a text that is not blank, and no blocked one, is a review. -/
theorem review_eq_ok_iff {r : Response} {x : String} :
    r.review = .ok x ↔ r.promptFeedback.bind PromptFeedback.blockReason = none ∧
      Text.trim r.joinedText ≠ "" ∧ x = r.joinedText := by
  cases h : r.promptFeedback.bind PromptFeedback.blockReason with
  | some reason => simp [review_of_blocked h]
  | none =>
      by_cases htext : Text.trim r.joinedText = ""
      · simp [review_of_blank h htext, htext]
      · simp [review_of_text h htext, htext, eq_comm]

theorem reviewOfBody_eq_ok_iff {b x : String} :
    reviewOfBody b = .ok x ↔ ∃ d r, IsJson b d ∧ responseShape d r ∧ r.review = .ok x := by
  constructor
  · intro h
    by_cases hb : ∃ d r, IsJson b d ∧ responseShape d r
    · obtain ⟨d, r, hb, hr⟩ := hb
      exact ⟨d, r, hb, hr, by rw [← h, reviewOfBody_of_response hb hr]⟩
    · obtain ⟨fault, hfault⟩ := reviewOfBody_of_other hb
      rw [hfault] at h
      cases h
  · rintro ⟨d, r, hb, hr, hx⟩
    rw [reviewOfBody_of_response hb hr, hx]

end Response

namespace HttpReply

theorem isSuccess_iff (r : HttpReply) : r.isSuccess ↔ 200 ≤ r.status ∧ r.status ≤ 299 := by
  simp [isSuccess]

theorem review_of_success {r : HttpReply} (h : 200 ≤ r.status ∧ r.status ≤ 299) :
    r.review = Response.reviewOfBody (Text.decodeLossy r.body) := by
  rw [review, if_pos (r.isSuccess_iff.mpr h)]

theorem review_of_failure {r : HttpReply} (h : ¬(200 ≤ r.status ∧ r.status ≤ 299)) :
    r.review = .error (refusal r.status (Text.decodeLossy r.body)) := by
  rw [review, if_neg (mt r.isSuccess_iff.mp h)]

end HttpReply

variable {m : Type → Type} [Monad m]

theorem requestReview_of_blank (send : HttpRequest → m (Option HttpReply)) {c : ReviewConfig}
    (h : Text.trim c.apiKey.secret = "") (r : ReviewRequest) :
    requestReview send c r = pure (.error .missingApiKey) := by
  have hkey : c.checkKey = .error .missingApiKey := by
    rw [ReviewConfig.checkKey, ApiKey.isBlank, if_pos ((Text.trim_eq_empty_iff _).mp h)]
  rw [requestReview, hkey]

theorem requestReview_of_request (send : HttpRequest → m (Option HttpReply)) {c : ReviewConfig}
    (h : Text.trim c.apiKey.secret ≠ "") {r : ReviewRequest} {request : HttpRequest}
    (hr : c.request? r.prompt = some request) :
    requestReview send c r = send request >>= fun
      | none => pure (.error .unreachable)
      | some reply => pure reply.review := by
  have hkey : c.checkKey = .ok () := by
    rw [ReviewConfig.checkKey, ApiKey.isBlank, if_neg (mt (Text.trim_eq_empty_iff _).mpr h)]
  have hsend := requestReview.eq_def send c r
  simp only [hkey, hr] at hsend
  exact hsend.trans (bind_congr fun reply? => by cases reply? <;> rfl)

/-- Without a key nothing is sent.  With one the outcome is that of the answer.  An answer without
success is an error with what the service says about it, or else with the whole body, trimmed.  A
successful one has to be a response; it is an error if the prompt was blocked, whatever text there
is, and if the text is blank, and else the text as it is.  So only a text that is not blank, from a
successful answer to a prompt that was not blocked, is ever a review. -/
theorem requestReview_outcome (send : HttpRequest → m (Option HttpReply)) (c : ReviewConfig)
    (r : ReviewRequest) :
    (Text.trim c.apiKey.secret = "" → requestReview send c r = pure (.error .missingApiKey)) ∧
    (Text.trim c.apiKey.secret ≠ "" → ∀ request, c.request? r.prompt = some request →
      requestReview send c r = send request >>= fun
        | none => pure (.error .unreachable)
        | some reply => pure reply.review) ∧
    (∀ reply : HttpReply, ¬(200 ≤ reply.status ∧ reply.status ≤ 299) →
      let b := Text.decodeLossy reply.body
      (∀ d e kind, IsJson b d → failureShape d e → e.status = some kind →
        reply.review = .error (.refused reply.status (kind ++ ": " ++ e.message))) ∧
      (∀ d e, IsJson b d → failureShape d e → e.status = none →
        reply.review = .error (.refused reply.status e.message)) ∧
      ((¬∃ d e, IsJson b d ∧ failureShape d e) →
        reply.review = .error (.refused reply.status (Text.trim b)))) ∧
    (∀ reply : HttpReply, 200 ≤ reply.status ∧ reply.status ≤ 299 →
      let b := Text.decodeLossy reply.body
      ((¬∃ d answer, IsJson b d ∧ responseShape d answer) →
        ∃ fault, reply.review = .error (.undecodable fault)) ∧
      ∀ d answer, IsJson b d → responseShape d answer →
        (∀ reason, answer.promptFeedback.bind PromptFeedback.blockReason = some reason →
          reply.review = .error (.blocked reason)) ∧
        (answer.promptFeedback.bind PromptFeedback.blockReason = none →
          (Text.trim answer.joinedText = "" → reply.review = .error .emptyResponse) ∧
          (Text.trim answer.joinedText ≠ "" → reply.review = .ok answer.joinedText))) ∧
    (∀ (reply : HttpReply) (x : String), reply.review = .ok x →
      (200 ≤ reply.status ∧ reply.status ≤ 299) ∧ Text.trim x ≠ "" ∧
      ∃ d answer, IsJson (Text.decodeLossy reply.body) d ∧ responseShape d answer ∧
        answer.promptFeedback.bind PromptFeedback.blockReason = none ∧ x = answer.joinedText) := by
  refine ⟨fun h => requestReview_of_blank send h r,
    fun h request hr => requestReview_of_request send h hr, ?failure, ?success, ?ok⟩
  case failure =>
    intro reply hstatus b
    rw [HttpReply.review_of_failure hstatus]
    refine ⟨fun d e kind hb he hkind => ?_, fun d e hb he hkind => ?_, fun h => ?_⟩
    · rw [refusal_of_failure hb he, ServiceError.describe, hkind]
    · rw [refusal_of_failure hb he, ServiceError.describe, hkind]
    · rw [refusal_of_other h]
  case success =>
    intro reply hstatus b
    rw [HttpReply.review_of_success hstatus]
    refine ⟨fun h => Response.reviewOfBody_of_other h, fun d answer hb ha => ?_⟩
    rw [Response.reviewOfBody_of_response hb ha]
    exact ⟨fun reason h => Response.review_of_blocked h, fun h =>
      ⟨fun htext => Response.review_of_blank h htext, fun htext => Response.review_of_text h htext⟩⟩
  case ok =>
    intro reply x hx
    by_cases hstatus : 200 ≤ reply.status ∧ reply.status ≤ 299
    · rw [HttpReply.review_of_success hstatus] at hx
      obtain ⟨d, answer, hb, ha, hx⟩ := Response.reviewOfBody_eq_ok_iff.mp hx
      obtain ⟨hblocked, htext, rfl⟩ := Response.review_eq_ok_iff.mp hx
      exact ⟨hstatus, htext, d, answer, hb, ha, hblocked, rfl⟩
    · rw [HttpReply.review_of_failure hstatus] at hx
      cases hx

/-- A text in two parts, and a part without any. -/
example :
    let parts := "[\x7b\"text\": \" a\"\x7d, \x7b\"text\": null\x7d, \x7b\"text\": \"b\"\x7d]"
    let body := "\x7b\"candidates\": [\x7b\"content\": \x7b\"parts\": " ++ parts ++ "\x7d\x7d]\x7d"
    (HttpReply.review ⟨200, Text.encode body⟩).toOption = some " ab" := by
  decide +kernel

end SyntaxInspector
