import Mathlib.Logic.Relation
import SyntaxInspector.Proofs.JsonEdits
import SyntaxInspector.Proofs.JsonLayout
import SyntaxInspector.Proofs.ReviewOutcome
import SyntaxInspector.Proofs.TextBytes

/-! # Edited answers

The service may say more than it is asked for, say it in another order, give more candidates, or cut
its text into other parts.  None of this makes a difference to the review.

* `ResponseEdit` is one such change of an answer, anywhere in it;
* `Response.SameReview` says of two answers that they have the same text, blocked or not alike;
* `preserves_response`: a changed answer is an answer with the same review;
* `HttpReply.review_eq_of_edits`: so are the replies, however many changes were made. -/

namespace SyntaxInspector

open Json

/-! ### Edits -/

/-- A part is changed: its text is left as it is. -/
def PartEdit : Edit := RecordEdit ["text"] fun _ => .none

/-- The texts of parts, one after the other. -/
def joinedTexts (ps : List Part) : String := String.join (ps.filterMap Part.text)

/-- The parts of a content are changed: one of them, or all of them into others that have the same
text together. -/
inductive PartsEdit : Edit
  | part {d d' : Draft} : ItemEdit PartEdit d d' → PartsEdit d d'
  | regrouped {items items' : List Draft} {ps ps' : List Part} :
      List.Forall₂ partShape items ps → List.Forall₂ partShape items' ps' →
      joinedTexts ps' = joinedTexts ps → PartsEdit (.array items .closed) (.array items' .closed)

/-- The text of a candidate with this content. -/
def contentText (content : Option Content) : String :=
  joinedTexts ((content.map Content.parts).getD [])

/-- Parts without text. -/
def IsTextlessParts (d : Draft) : Prop := ∃ ps, ListShape partShape d ps ∧ joinedTexts ps = ""

/-- A content without text. -/
def IsTextlessContent (d : Draft) : Prop :=
  ∃ content, OptionalShape contentShape d content ∧ contentText content = ""

/-- A content is changed: its parts are, or parts without text are put in. -/
inductive ContentEdit : Edit
  | record {d d' : Draft} :
      RecordEdit ["parts"] (fun _ => ⟨PartsEdit, IsTextlessParts⟩) d d' → ContentEdit d d'
  | filled {d : Draft} : IsTextlessContent d → ContentEdit .null d

/-- A candidate is changed: its content is, or a content without text is put in. -/
def CandidateEdit : Edit := RecordEdit ["content"] fun _ => ⟨ContentEdit, IsTextlessContent⟩

/-- The candidates are changed: one of them, or all but the first into any others. -/
inductive CandidatesEdit : Edit
  | candidate {d d' : Draft} : ItemEdit CandidateEdit d d' → CandidatesEdit d d'
  | replaced (first : Draft) (rest : List Draft) {rest' : List Draft} :
      (∀ d ∈ rest', ∃ c, candidateShape d c) →
      CandidatesEdit (.array (first :: rest) .closed) (.array (first :: rest') .closed)

/-- What is said about the prompt is changed: the reason is left as it is. -/
def PromptFeedbackEdit : Edit := RecordEdit ["blockReason"] fun _ => .none

/-- An answer is changed. -/
def ResponseEdit : Edit :=
  RecordEdit ["candidates", "promptFeedback"] fun key =>
    if key = "candidates" then ⟨CandidatesEdit, fun _ => False⟩
    else ⟨PromptFeedbackEdit, fun _ => False⟩

/-! ### Parts -/

theorem functional_part : Functional partShape := by
  intro d p p' hp hp'
  have htext := functional_text.optional.record₁ hp hp'
  cases p
  cases p'
  exact congrArg Part.mk htext

theorem preserves_part : Preserves PartEdit partShape fun p p' => p.text = p'.text := by
  have hrecord : Preserves PartEdit (RecordShape₁ (.optional "text" TextShape)) Eq :=
    preserves_record₁ rfl (FieldEdit.preserves_none _)
  exact hrecord.map Part.mk Part.text fun _ => rfl

theorem joinedTexts_congr {ps ps' : List Part}
    (h : List.Forall₂ (fun p p' : Part => p.text = p'.text) ps ps') :
    joinedTexts ps = joinedTexts ps' := by
  have htexts : ps.filterMap Part.text = ps'.filterMap Part.text := by
    induction h with
    | nil => rfl
    | cons hp _ ih => rw [List.filterMap_cons, List.filterMap_cons, hp, ih]
  rw [joinedTexts, joinedTexts, htexts]

theorem preserves_parts :
    Preserves PartsEdit (ListShape partShape) fun ps ps' => joinedTexts ps = joinedTexts ps' := by
  intro d d' ps hd hps
  cases hd with
  | part hd =>
      obtain ⟨ps', hps', hsame⟩ := preserves_part.list (fun _ => rfl) hd hps
      exact ⟨ps', hps', joinedTexts_congr hsame⟩
  | @regrouped items items' qs qs' hqs hqs' hjoined =>
      obtain ⟨_, hps⟩ := hps
      have heq : ps = qs := functional_part.forall₂ hps hqs
      exact ⟨qs', .array _ hqs', (congrArg joinedTexts heq).trans hjoined.symm⟩

/-! ### Contents and candidates -/

theorem preserves_content :
    Preserves ContentEdit (OptionalShape contentShape) fun o o' =>
      contentText o = contentText o' := by
  have hparts : (⟨PartsEdit, IsTextlessParts⟩ : FieldEdit).Preserves (.listed "parts" partShape)
      (fun ps ps' => joinedTexts ps = joinedTexts ps') := by
    refine ⟨fun _ => rfl, preserves_parts, ?_⟩
    rintro d ps ⟨ps', hps', htext⟩ habsent
    cases habsent
    exact ⟨ps', hps', htext.symm⟩
  intro d d' content hd hcontent
  cases hd with
  | record hd =>
      have hrecord : Preserves (RecordEdit ["parts"] fun _ => ⟨PartsEdit, IsTextlessParts⟩)
          (RecordShape₁ (.listed "parts" partShape))
          (fun ps ps' => joinedTexts ps = joinedTexts ps') := preserves_record₁ rfl hparts
      have hcontents := hrecord.map Content.mk Content.parts fun _ => rfl
      obtain ⟨content', hcontent', hsame⟩ :=
        hcontents.optional (fun h => h.ne_null) hd hcontent
      refine ⟨content', hcontent', ?_⟩
      cases hsame with
      | none => rfl
      | some hsame => exact hsame
  | filled hd =>
      obtain ⟨content', hcontent', htext⟩ := hd
      cases hcontent with
      | null => exact ⟨content', hcontent', htext.symm⟩
      | value hne => exact absurd rfl hne

theorem candidateText_eq (c : Candidate) : Response.candidateText c = contentText c.content := by
  obtain ⟨_ | content⟩ := c <;> rfl

theorem preserves_candidate :
    Preserves CandidateEdit candidateShape fun c c' =>
      Response.candidateText c = Response.candidateText c' := by
  have hcontent : (⟨ContentEdit, IsTextlessContent⟩ : FieldEdit).Preserves
      (.optional "content" contentShape) (fun o o' => contentText o = contentText o') := by
    refine ⟨fun _ => rfl, preserves_content, ?_⟩
    rintro d o ⟨o', ho', htext⟩ habsent
    cases habsent
    exact ⟨o', ho', htext.symm⟩
  have hrecord : Preserves CandidateEdit (RecordShape₁ (.optional "content" contentShape))
      (fun o o' => contentText o = contentText o') := preserves_record₁ rfl hcontent
  refine (hrecord.map Candidate.mk Candidate.content fun _ => rfl).mono fun {c c'} h => ?_
  rw [candidateText_eq, candidateText_eq, h]

/-- The first candidates have the same text, or there is none on either side. -/
def SameFirstText (cs cs' : List Candidate) : Prop :=
  cs.head?.map Response.candidateText = cs'.head?.map Response.candidateText

theorem exists_forall₂ {α : Type} {shape : Shape α} {items : List Draft}
    (h : ∀ d ∈ items, ∃ a, shape d a) : ∃ as, List.Forall₂ shape items as := by
  induction items with
  | nil => exact ⟨[], .nil⟩
  | cons d items ih =>
      obtain ⟨a, ha⟩ := h d List.mem_cons_self
      obtain ⟨as, has⟩ := ih fun d' hd' => h d' (List.mem_cons_of_mem d hd')
      exact ⟨a :: as, .cons ha has⟩

theorem preserves_candidates :
    Preserves CandidatesEdit (ListShape candidateShape) SameFirstText := by
  intro d d' cs hd hcs
  cases hd with
  | candidate hd =>
      obtain ⟨cs', hcs', hsame⟩ := preserves_candidate.list (fun _ => rfl) hd hcs
      refine ⟨cs', hcs', ?_⟩
      cases hsame with
      | nil => rfl
      | cons hc => exact congrArg some hc
  | replaced first rest hrest =>
      obtain ⟨_, hcs⟩ := hcs
      obtain ⟨c, cs, hc, -, rfl⟩ := List.forall₂_cons_left_iff.mp hcs
      obtain ⟨cs', hcs'⟩ := exists_forall₂ hrest
      exact ⟨c :: cs', .array _ (.cons hc hcs'), rfl⟩

/-! ### Answers -/

theorem preserves_promptFeedback :
    Preserves PromptFeedbackEdit (OptionalShape promptFeedbackShape) Eq := by
  have hrecord : Preserves PromptFeedbackEdit (RecordShape₁ (.optional "blockReason" TextShape))
      Eq := preserves_record₁ rfl (FieldEdit.preserves_none _)
  have hfeedback := hrecord.map PromptFeedback.mk PromptFeedback.blockReason fun _ => rfl
  refine (hfeedback.optional fun h => h.ne_null).mono fun {o o'} h => ?_
  cases h with
  | none => rfl
  | @some f f' h =>
      cases f
      cases f'
      exact congrArg (some ∘ PromptFeedback.mk) h

/-- Two answers have the same text, and are blocked or not alike. -/
def Response.SameReview (r r' : Response) : Prop :=
  SameFirstText r.candidates r'.candidates ∧ r.promptFeedback = r'.promptFeedback

theorem Response.text_eq_head? (r : Response) :
    r.text = (r.candidates.head?.map candidateText).getD "" := by
  obtain ⟨_ | ⟨c, cs⟩, f⟩ := r <;> rfl

theorem Response.SameReview.review_eq {r r' : Response} (h : r.SameReview r') :
    r'.review = r.review := by
  obtain ⟨htext, hfeedback⟩ := h
  rw [SameFirstText] at htext
  rw [review, review, text_eq_head?, text_eq_head?, htext, hfeedback]

theorem preserves_response : Preserves ResponseEdit responseShape Response.SameReview := by
  have hrecord : Preserves ResponseEdit
      (RecordShape₂ (.listed "candidates" candidateShape)
        (.optional "promptFeedback" promptFeedbackShape))
      (fun p p' => SameFirstText p.1 p'.1 ∧ p.2 = p'.2) := by
    refine preserves_record₂ rfl ⟨?refl, ?candidates, ?none⟩ ⟨?refl', ?feedback, ?none'⟩
    case candidates => exact preserves_candidates
    case feedback => exact preserves_promptFeedback
    case refl | refl' => exact fun _ => rfl
    case none | none' => exact fun h => h.elim
  exact hrecord.map (fun p => (⟨p.1, p.2⟩ : Response)) (fun r => (r.candidates, r.promptFeedback))
    fun _ => rfl

/-- However often an answer is changed, the review is the same. -/
theorem review_eq_of_reflTransGen {d d' : Draft} (h : Relation.ReflTransGen ResponseEdit d d')
    {answer : Response} (hd : responseShape d answer) :
    ∃ answer', responseShape d' answer' ∧ answer'.review = answer.review := by
  induction h with
  | refl => exact ⟨answer, hd, rfl⟩
  | tail _ hstep ih =>
      obtain ⟨answer₁, hd₁, heq₁⟩ := ih
      obtain ⟨answer₂, hd₂, hsame⟩ := preserves_response hstep hd₁
      exact ⟨answer₂, hd₂, hsame.review_eq.trans heq₁⟩

/-- The review in a successful answer to an open prompt, a blocked one, or none. -/
theorem review_cases (answer : Response) :
    (∃ x, answer.review = .ok x) ∨ (∃ reason, answer.review = .error (.blocked reason)) ∨
      answer.review = .error .emptyResponse := by
  unfold Response.review
  split
  · exact .inr (.inl ⟨_, rfl⟩)
  · split
    · exact .inr (.inr rfl)
    · exact .inl ⟨_, rfl⟩

theorem requestReview_congr {reply reply' : HttpReply} (h : reply'.review = reply.review)
    (c : ReviewConfig) (r : ReviewRequest) :
    requestReview (m := Id) (fun _ => some reply') c r =
      requestReview (m := Id) (fun _ => some reply) c r := by
  have hreply : ∀ reply : HttpReply, requestReview (m := Id) (fun _ => some reply) c r =
      match c.checkKey, c.request? r.prompt with
      | .error e, _ => .error e
      | .ok (), none => .error .unreachable
      | .ok (), some _ => reply.review := by
    intro reply
    unfold requestReview
    cases c.checkKey <;> cases c.request? r.prompt <;> rfl
  rw [hreply, hreply, h]

/-- The outcome of a review depends on what is asked for alone.  Take a reply with success whose
body, as a JSON value, is decoded, and change that value as often as one likes: members that nobody
asks for are added, members are reordered, the candidates after the first are replaced by any that
can be decoded, and the parts of the first candidate are cut in other ways or have parts without
text put between them.  A reply with the changed value, however it is written, is decoded too, and
its outcome is the same text, the same reason for blocking or the same lack of text. -/
theorem HttpReply.review_eq_of_edits {reply reply' : HttpReply} {d d' : Draft} {answer : Response}
    (hstatus : 200 ≤ reply.status ∧ reply.status ≤ 299)
    (hstatus' : 200 ≤ reply'.status ∧ reply'.status ≤ 299)
    (hd : IsJson (Text.decodeLossy reply.body) d) (hd' : IsJson (Text.decodeLossy reply'.body) d')
    (hanswer : (Json.read (Text.decodeLossy reply.body)).decode Response.decode = .ok answer)
    (hedits : Relation.ReflTransGen ResponseEdit d d') :
    (∃ answer',
      (Json.read (Text.decodeLossy reply'.body)).decode Response.decode = .ok answer') ∧
    reply'.review = reply.review ∧
    ((∃ x, reply.review = .ok x) ∨ (∃ reason, reply.review = .error (.blocked reason)) ∨
      reply.review = .error .emptyResponse) ∧
    ∀ (c : ReviewConfig) (r : ReviewRequest),
      requestReview (m := Id) (fun _ => some reply') c r =
        requestReview (m := Id) (fun _ => some reply) c r := by
  obtain ⟨d₀, hd₀, hshape⟩ := (decode_response_iff _ _).mp hanswer
  obtain rfl : d₀ = d := hd₀.unique hd
  obtain ⟨answer', hshape', hreview⟩ := review_eq_of_reflTransGen hedits hshape
  have hfirst : reply.review = answer.review := by
    rw [review_of_success hstatus, Response.reviewOfBody_of_response hd hshape]
  have hsecond : reply'.review = answer'.review := by
    rw [review_of_success hstatus', Response.reviewOfBody_of_response hd' hshape']
  have hsame : reply'.review = reply.review := by rw [hsecond, hreview, hfirst]
  refine ⟨⟨answer', (decode_response_iff _ _).mpr ⟨d', hd', hshape'⟩⟩, hsame, ?_,
    requestReview_congr hsame⟩
  rw [hfirst]
  exact review_cases answer

theorem Json.keysReadable_draftMembers (ms : List (String × Json)) :
    KeysReadable (draftMembers ms) := by
  rw [draftMembers_eq_map]
  rintro m hm
  obtain ⟨_, -, rfl⟩ := List.mem_map.mp hm
  rfl

/-- An answer with one candidate of these parts, among other members and candidates. -/
def sampleAnswer (members : List (String × Json)) (parts others : List Json) : Json :=
  .record (members ++
    [("candidates", .list (.record [("content", .record [("parts", .list parts)])] :: others))])

/-- A text in one part, and the same in two parts with a call between them, after the number of
tokens and before another candidate. -/
theorem HttpReply.review_eq_of_sampleAnswer :
    let one := sampleAnswer [] [.record [("text", .text "ab")]] []
    let parts :=
      [.record [("text", .text "a")], .record [("call", .text "f")], .record [("text", .text "b")]]
    let two := sampleAnswer [("tokens", .number 7)] parts [.record []]
    HttpReply.review ⟨200, Text.encode two.pretty⟩ =
      HttpReply.review ⟨200, Text.encode one.pretty⟩ := by
  intro one parts two
  have hbody (v : Json) :
      IsJson (Text.decodeLossy (HttpReply.mk 200 (Text.encode v.pretty)).body) v.draft := by
    change IsJson (Text.decodeLossy (Text.encode v.pretty)) v.draft
    rw [Text.decodeLossy_encode]
    exact isJson_pretty v
  have hpart (s : String) : partShape (Json.record [("text", .text s)]).draft ⟨some s⟩ :=
    .object _ (keysReadable_draftMembers _) (.present rfl (.value nofun (.text s)))
  have hcall : partShape (Json.record [("call", .text "f")]).draft ⟨none⟩ :=
    .object _ (keysReadable_draftMembers _) (.absent rfl rfl)
  have hshape : responseShape one.draft ⟨[⟨some ⟨[⟨some "ab"⟩]⟩⟩], none⟩ := by
    refine .object _ (keysReadable_draftMembers _) (.present rfl (.array _ (.cons ?_ .nil)))
      (.absent rfl rfl)
    refine .object _ (keysReadable_draftMembers _) (.present rfl (.value nofun ?_))
    exact .object _ (keysReadable_draftMembers _)
      (.present rfl (.array _ (.cons (hpart "ab") .nil)))
  have hempty : candidateShape (Json.record []).draft ⟨none⟩ :=
    .object _ (keysReadable_draftMembers _) (.absent rfl rfl)
  have hparts : PartsEdit (Json.list [.record [("text", .text "ab")]]).draft
      (Json.list parts).draft :=
    .regrouped (.cons (hpart "ab") .nil) (.cons (hpart "a") (.cons hcall (.cons (hpart "b") .nil)))
      (by decide)
  have hcut : ResponseEdit one.draft (sampleAnswer [] parts []).draft :=
    .object (.field [] [] (by decide) (.candidate (.mk [] [] (.object (.field [] [] (by decide)
      (.record (.object (.field [] [] (by decide) hparts))))))))
  have hother : ResponseEdit (sampleAnswer [] parts []).draft
      (sampleAnswer [] parts [.record []]).draft := by
    refine .object (.field [] [] (by decide) (.replaced _ [] fun d hd => ?_))
    obtain rfl := List.mem_singleton.mp hd
    exact ⟨_, hempty⟩
  have htokens : ResponseEdit (sampleAnswer [] parts [.record []]).draft two.draft :=
    .object (.added [] _ _ (by decide))
  have hstatus : 200 ≤ 200 ∧ 200 ≤ 299 := by decide
  have hanswer := (decode_response_iff _ _).mpr ⟨one.draft, hbody one, hshape⟩
  have hedits := Relation.ReflTransGen.tail (.tail (.single hcut) hother) htokens
  exact (@review_eq_of_edits ⟨200, Text.encode one.pretty⟩ ⟨200, Text.encode two.pretty⟩ _ _ _
    hstatus hstatus (hbody one) (hbody two) hanswer hedits).2.1

end SyntaxInspector
