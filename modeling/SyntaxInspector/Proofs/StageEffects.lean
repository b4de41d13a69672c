import SyntaxInspector.Proofs.Outcomes
import SyntaxInspector.World

/-! # What the stages of a run do

For each stage before the text is written, its outcome as a function of the world it begins in, and
the events it adds.  It changes nothing else, so the world it leaves is the one it began in, after
these events.

* `World.after` is a world after more events;
* `run_readSource`, `run_parseSource` and `run_computeText` say what reading, parsing and computing
  the text do; of the targets only the review leaves the computation, to send one request
  (`run_requestReview`);
* `isOfDelivery_of_run_deliverResult`: writing the text fails with an error of its own kind. -/

namespace SyntaxInspector
namespace World

variable {α β ε ε' : Type}

/-! ### Worlds after events -/

/-- The world after more events. -/
def after (w : World) (es : List Event) : World := { w with events := w.events ++ es }

@[simp]
theorem after_nil (w : World) : w.after [] = w := by
  simp [after]

@[simp]
theorem after_after (w : World) (es es' : List Event) :
    (w.after es).after es' = w.after (es ++ es') := by
  simp [after, List.append_assoc]

/-! ### Running an action that may fail -/

theorem run_lift (x : StateM World α) (w : World) :
    (ExceptT.lift x : ExceptT ε (StateM World) α).run.run w = (.ok (x.run w).1, (x.run w).2) := rfl

theorem run_mapError (x : StateM World (Except ε α)) (f : ε → ε') (w : World) :
    (do
      let outcome ← x
      return outcome.mapError f : StateM World (Except ε' α)).run w =
    ((x.run w).1.mapError f, (x.run w).2) := rfl

/-! ### Reading the source -/

/-- Reading the source, as an event. -/
def readEvent : Option String → Event
  | some path => .readFile path
  | none => .readInput

/-- The bytes of the source. -/
def sourceBytes (w : World) : Option String → Except IoError (List UInt8)
  | some path => w.files.read path
  | none => w.readableInput

/-- What the bytes of a source are as text. -/
def decodeSource : Except IoError (List UInt8) → Except RunError String
  | .error e => .error (.input e)
  | .ok bytes =>
    match Text.decode? bytes with
    | some text => .ok text
    | none => .error (.input .notUtf8)

/-- The outcome of reading the source. -/
def sourceOutcome (w : World) (path : Option String) : Except RunError String :=
  decodeSource (w.sourceBytes path)

theorem run_decodeSource (read : Action (List UInt8)) (w : World) :
    (do
      let bytes ← read.adapt RunError.input
      match Text.decode? bytes with
      | some text => return text
      | none => throw (.input .notUtf8) : ExceptT RunError (StateM World) String).run.run w =
    (decodeSource (read.run.run w).1, (read.run.run w).2) := by
  rw [run_bind, run_adapt]
  rcases read.run.run w with ⟨_ | bytes, w'⟩
  · rfl
  · change (match Text.decode? bytes with
        | some text => pure text
        | none => throw (.input .notUtf8) : ExceptT RunError (StateM World) String).run.run w' =
      (decodeSource (.ok bytes), w')
    rw [decodeSource]
    cases Text.decode? bytes <;> rfl

theorem run_readSource (w : World) (path : Option String) :
    (readSource host path).run.run w = (w.sourceOutcome path, w.after [readEvent path]) := by
  cases path with
  | none => exact run_decodeSource host.readInput w
  | some path => exact run_decodeSource (host.readFile path) w

/-! ### Parsing -/

/-- The outcome of parsing a source that is not blank. -/
def parseOutcome (w : World) (l : Language) (source : String) : Except RunError ParsedSource :=
  match w.loads l with
  | .error reason => .error (.parse (.grammarNotLoaded l reason))
  | .ok () =>
    match w.parses l source with
    | some tree => .ok { tree with language := l, source }
    | none => .error (.parse (.noTree l))

/-- The events of parsing: the grammar is loaded, and used if that goes well. -/
def parseEvents (w : World) (l : Language) (source : String) : List Event :=
  .loadedGrammar l :: match w.loads l with
    | .ok () => [.parsed l source]
    | .error _ => []

theorem run_cacheParse (w : World) (l : Language) (source : String) :
    ∃ c, (Cache.parse grammars l source {}).run w =
      (((match w.loads l with
        | .error reason => .error (.grammarNotLoaded l reason)
        | .ok () =>
          match w.parses l source with
          | some tree => .ok { tree with language := l, source }
          | none => .error (.noTree l)), c), w.after (w.parseEvents l source)) := by
  cases hload : w.loads l with
  | error reason =>
      refine ⟨{}, ?_⟩
      simp [Cache.parse, Cache.require, Cache.isLoaded, grammars, note, hload, parseEvents, after]
      rfl
  | ok =>
      refine ⟨⟨[l]⟩, ?_⟩
      cases hparse : w.parses l source <;>
      · simp [Cache.parse, Cache.require, Cache.isLoaded, grammars, note, hload, hparse,
          parseEvents, after]
        rfl

theorem run_parseSource (w : World) (l : Language) (source : String) :
    ∃ c, (parseSource grammars l source {}).run w =
      if Text.isBlankText source then ((.error .emptyInput, c), w)
      else ((w.parseOutcome l source, c), w.after (w.parseEvents l source)) := by
  unfold parseSource
  split
  · exact ⟨{}, rfl⟩
  · obtain ⟨c, hc⟩ := run_cacheParse w l source
    refine ⟨c, ?_⟩
    rw [StateT.run_bind, hc]
    unfold parseOutcome
    cases w.loads l with
    | error reason => rfl
    | ok => cases w.parses l source <;> rfl

/-! ### Computing the text -/

/-- The outcome of a review, if the server of the world is asked. -/
def reviewOutcome (w : World) (c : ReviewConfig) (r : ReviewRequest) : Except ReviewError String :=
  requestReview (m := Id) (fun request => (w.server request).bind HttpReply.arriving?) c r

/-- The events of a review: one request, if there is a key and an address to send it with. -/
def reviewEvents (c : ReviewConfig) (r : ReviewRequest) : List Event :=
  match c.checkKey, c.request? r.prompt with
  | .ok (), some request => [.requested request]
  | _, _ => []

theorem run_send (w : World) (request : HttpRequest) :
    (host.send request).run w =
      ((w.server request).bind HttpReply.arriving?, w.after [.requested request]) := rfl

theorem run_requestReview (w : World) (c : ReviewConfig) (r : ReviewRequest) :
    (requestReview host.send c r).run w =
      (w.reviewOutcome c r, w.after (reviewEvents c r)) := by
  unfold reviewOutcome reviewEvents requestReview
  cases c.checkKey with
  | error e =>
      rw [after_nil]
      rfl
  | ok =>
      cases c.request? r.prompt with
      | none =>
          rw [after_nil]
          rfl
      | some request =>
          simp only [StateT.run_bind, run_send]
          cases (w.server request).bind HttpReply.arriving? <;> rfl

/-- What the model is asked about a source. -/
def reviewRequest (p : ParsedSource) : ReviewRequest :=
  { language := p.language, code := p.source, summary := p.root.summary.prompt }

theorem run_reviewText (w : World) (c : ReviewConfig) (p : ParsedSource) :
    (reviewText host p c).run.run w =
      ((w.reviewOutcome c (reviewRequest p)).mapError .review,
        w.after (reviewEvents c (reviewRequest p))) := by
  unfold reviewText
  rw [ExceptT.run_mk, ← reviewRequest, run_mapError, run_requestReview]

/-- The outcome of computing the text of the target. -/
def textOutcome (w : World) (a : Args) (p : ParsedSource) : Except RunError String :=
  match a.target with
  | .graph => .ok (p.root.toDot a.maxDepth)
  | .tree => .ok p.root.toExpression
  | .outline => .ok (p.root.outline p.source (some a.maxDepth))
  | .summary => summaryText p a.format
  | .review => (w.reviewOutcome a.reviewConfig (reviewRequest p)).mapError .review
  | .check =>
    let name := a.inputPath.getD standardInputName
    (check p name).map fun _ => "no syntax errors in " ++ name

/-- The events of computing the text: only a review has any. -/
def textEvents (a : Args) (p : ParsedSource) : List Event :=
  match a.target with
  | .review => reviewEvents a.reviewConfig (reviewRequest p)
  | _ => []

theorem run_computeText (w : World) (a : Args) (p : ParsedSource) :
    (computeText host a p).run.run w = (w.textOutcome a p, w.after (textEvents a p)) := by
  unfold computeText textOutcome textEvents
  cases a.target with
  | graph | tree | outline | summary =>
      rw [after_nil]
      rfl
  | review => exact run_reviewText w a.reviewConfig p
  | check =>
      rw [after_nil]
      simp only [run_bind]
      unfold computeText.liftExcept
      rw [run_pure_outcome]
      cases check p (a.inputPath.getD standardInputName) <;> rfl

/-! ### Delivering the text -/

end World

/-- The error is one of writing the text or of drawing an image of it. -/
def RunError.isOfDelivery : RunError → Bool
  | .output _ _ | .image _ => true
  | _ => false

namespace World

theorem isOfDelivery_of_adapt_output {x : Action α} {path : String} {e : RunError} {w : World}
    (h : ((x.adapt (RunError.output path)).run.run w).1 = .error e) : e.isOfDelivery := by
  rw [run_adapt] at h
  obtain ⟨cause, -, rfl⟩ := mapError_eq_error_iff.mp h
  rfl

theorem isOfDelivery_of_run_writeResult {path : Option String} {text : String} {e : RunError}
    {w : World} (h : ((writeResult host path text).run.run w).1 = .error e) :
    e.isOfDelivery := by
  cases path with
  | none => exact isOfDelivery_of_adapt_output h
  | some path =>
      unfold writeResult at h
      rw [run_bind] at h
      split at h
      · exact isOfDelivery_of_adapt_output h
      · rename_i e' w' hcreate
        obtain rfl : e' = e := Except.error.inj h
        exact isOfDelivery_of_adapt_output (congrArg Prod.fst hcreate)

theorem isOfDelivery_of_run_deliverResult {a : Args} {text : String} {e : RunError} {w : World}
    (h : ((deliverResult host a text).run.run w).1 = .error e) : e.isOfDelivery := by
  unfold deliverResult at h
  split at h
  · rw [ExceptT.run_mk, run_mapError] at h
    obtain ⟨cause, -, rfl⟩ := mapError_eq_error_iff.mp h
    rfl
  · exact isOfDelivery_of_run_writeResult h

end World
end SyntaxInspector
