import SyntaxInspector.Proofs.StageEffects

/-! # The order of the stages

Several stages of a run may be bound to fail at once.  The first of them in order decides what the
run reports, and no later stage does anything.

* `Stage` are the stages in order, `World.failure?` is the error that a stage fails with and
  `World.stageEvents` is what it does, both said of the world the run begins in;
* `World.reached` are the stages up to the first that fails;
* `World.Untouched` says that nothing has changed but for what was read, parsed and asked;
* `exec_eq` is a whole run by the outcomes of its stages, and
  `exec_stops_at_first_failure` says what follows for its errors and effects. -/

namespace SyntaxInspector

/-- The stages of a run that lists no languages. -/
inductive Stage where
  | validation
  | language
  | reading
  | blankCheck
  | parsing
  | target
  | delivery
  deriving DecidableEq, Repr

/-- The stages in order. -/
def Stage.all : List Stage :=
  [validation, language, reading, blankCheck, parsing, target, delivery]

/-- The event creates a file or starts a program. -/
def Event.touches : Event → Bool
  | .createdFile _ | .started _ => true
  | _ => false

/-- The error of an outcome, if it is one. -/
def errorOf {ε α : Type} : Except ε α → Option ε
  | .error e => some e
  | .ok _ => none

/-- The outcome with an error, if there is one. -/
def outcomeOf {ε : Type} : Option ε → Except ε Unit
  | some e => .error e
  | none => .ok ()

@[simp]
theorem outcomeOf_errorOf {ε : Type} (x : Except ε Unit) : outcomeOf (errorOf x) = x := by
  cases x <;> rfl

namespace World

/-! ### Failures and events of stages -/

/-- The language of a run. -/
def language? (a : Args) : Option Language := (resolveLanguage a.language a.inputPath).toOption

/-- The source text of a run, if it can be read. -/
def source? (w : World) (a : Args) : Option String := (w.sourceOutcome a.inputPath).toOption

/-- The parsed source of a run, blank or not. -/
def parsed? (w : World) (a : Args) : Option ParsedSource := do
  (w.parseOutcome (← language? a) (← w.source? a)).toOption

/-- The text of a run. -/
def text? (w : World) (a : Args) : Option String := do
  (w.textOutcome a (← w.parsed? a)).toOption

/-- What a stage does, apart from delivering the text. -/
def stageEvents (w : World) (a : Args) : Stage → List Event
  | .reading => [readEvent a.inputPath]
  | .parsing => ((do return w.parseEvents (← language? a) (← w.source? a)) : Option _).getD []
  | .target => ((w.parsed? a).map (textEvents a)).getD []
  | .validation | .language | .blankCheck | .delivery => []

/-- Delivering a text after all that the other stages do. -/
def delivered (w : World) (a : Args) (text : String) : Except RunError Unit × World :=
  (deliverResult host a text).run.run (w.after (Stage.all.flatMap (w.stageEvents a)))

/-- The error that a stage fails with on what the stages before it yield, whether or not one of them
fails. -/
def failure? (w : World) (a : Args) : Stage → Option RunError
  | .validation => errorOf a.validate
  | .language => errorOf (resolveLanguage a.language a.inputPath)
  | .reading => errorOf (w.sourceOutcome a.inputPath)
  | .blankCheck => do if Text.isBlankText (← w.source? a) then some .emptyInput else none
  | .parsing => do errorOf (w.parseOutcome (← language? a) (← w.source? a))
  | .target => do errorOf (w.textOutcome a (← w.parsed? a))
  | .delivery => do errorOf (w.delivered a (← w.text? a)).1

/-- The stages up to the first that fails. -/
def reached (w : World) (a : Args) : List Stage :=
  Stage.all.takeWhile (fun s => (w.failure? a s).isNone) ++
    (Stage.all.find? fun s => (w.failure? a s).isSome).toList

/-! ### A run by the outcomes of its stages -/

@[simp]
theorem parseOutcome_after (w : World) (es : List Event) (l : Language) (source : String) :
    (w.after es).parseOutcome l source = w.parseOutcome l source := rfl

@[simp]
theorem parseEvents_after (w : World) (es : List Event) (l : Language) (source : String) :
    (w.after es).parseEvents l source = w.parseEvents l source := rfl

@[simp]
theorem textOutcome_after (w : World) (es : List Event) (a : Args) (p : ParsedSource) :
    (w.after es).textOutcome a p = w.textOutcome a p := rfl

/-- From the parsed source on. -/
theorem run_fromParsed (w : World) (a : Args) (p : ParsedSource) :
    (do
      let text ← computeText host a p
      deliverResult host a text : ExceptT RunError (StateM World) Unit).run.run w =
    match w.textOutcome a p with
    | .error e => (.error e, w.after (textEvents a p))
    | .ok text => (deliverResult host a text).run.run (w.after (textEvents a p)) := by
  rw [run_bind, run_computeText]
  cases w.textOutcome a p <;> rfl

/-- From the source text on. -/
theorem run_fromSource (w : World) (a : Args) (l : Language) (source : String) :
    (do
      let (outcome, _) ← ExceptT.lift (parseSource host.grammars l source {})
      let parsed ← ExceptT.mk (pure outcome)
      let text ← computeText host a parsed
      deliverResult host a text : ExceptT RunError (StateM World) Unit).run.run w =
    if Text.isBlankText source then (.error .emptyInput, w)
    else
      match w.parseOutcome l source with
      | .error e => (.error e, w.after (w.parseEvents l source))
      | .ok p =>
        match w.textOutcome a p with
        | .error e => (.error e, w.after (w.parseEvents l source ++ textEvents a p))
        | .ok text =>
          (deliverResult host a text).run.run
            (w.after (w.parseEvents l source ++ textEvents a p)) := by
  obtain ⟨c, hparse⟩ : ∃ c, (parseSource host.grammars l source {}).run w = _ :=
    run_parseSource w l source
  rw [run_bind, run_lift, hparse]
  by_cases hblank : Text.isBlankText source
  · rw [if_pos hblank, if_pos hblank]
    rfl
  · rw [if_neg hblank, if_neg hblank]
    dsimp only
    rw [run_bind, run_pure_outcome]
    cases w.parseOutcome l source with
    | error e => rfl
    | ok p =>
        dsimp only
        rw [run_fromParsed, textOutcome_after, after_after]
        rfl

/-- A whole run: the stages one after the other, each if those before it succeed. -/
theorem exec_eq {a : Args} (h : a.listLanguages = false) (w : World) :
    exec a w =
      match a.validate with
      | .error e => (.error e, w)
      | .ok () =>
        match resolveLanguage a.language a.inputPath with
        | .error e => (.error e, w)
        | .ok l =>
          match w.sourceOutcome a.inputPath with
          | .error e => (.error e, w.after [readEvent a.inputPath])
          | .ok source =>
            if Text.isBlankText source then (.error .emptyInput, w.after [readEvent a.inputPath])
            else
              let parsing := readEvent a.inputPath :: w.parseEvents l source
              match w.parseOutcome l source with
              | .error e => (.error e, w.after parsing)
              | .ok p =>
                match w.textOutcome a p with
                | .error e => (.error e, w.after (parsing ++ textEvents a p))
                | .ok text =>
                  (deliverResult host a text).run.run (w.after (parsing ++ textEvents a p)) := by
  unfold exec run
  rw [run_bind, run_pure_outcome]
  cases a.validate with
  | error e => rfl
  | ok =>
      simp only [h, Bool.false_eq_true, if_false]
      rw [run_bind, run_pure_outcome]
      cases resolveLanguage a.language a.inputPath with
      | error e => rfl
      | ok l =>
          dsimp only
          rw [run_bind, run_readSource]
          cases w.sourceOutcome a.inputPath with
          | error e => rfl
          | ok source =>
              dsimp only
              rw [run_fromSource]
              simp only [parseOutcome_after, parseEvents_after, textOutcome_after, after_after,
                List.cons_append, List.nil_append]

/-! ### The first failure -/

/-- A run either ends at the first stage that fails, with its error and after the events of the
stages reached, or it comes to deliver its text. -/
theorem exec_cases {a : Args} (h : a.listLanguages = false) (w : World) :
    (∃ e, Stage.all.findSome? (w.failure? a) = some e ∧ .delivery ∉ w.reached a ∧
      exec a w = (.error e, w.after ((w.reached a).flatMap (w.stageEvents a)))) ∨
    (∃ text, (∀ s, s ≠ .delivery → w.failure? a s = none) ∧ w.text? a = some text ∧
      exec a w = w.delivered a text) := by
  rw [exec_eq h]
  cases hvalid : a.validate with
  | error e =>
      refine .inl ⟨e, ?_⟩
      simp [Stage.all, reached, failure?, errorOf, hvalid, stageEvents]
  | ok =>
      cases hlanguage : resolveLanguage a.language a.inputPath with
      | error e =>
          refine .inl ⟨e, ?_⟩
          simp [Stage.all, reached, failure?, errorOf, hvalid, hlanguage, stageEvents]
      | ok l =>
          have hl : language? a = some l := by simp [language?, hlanguage, Except.toOption]
          cases hread : w.sourceOutcome a.inputPath with
          | error e =>
              refine .inl ⟨e, ?_⟩
              simp [Stage.all, reached, failure?, errorOf, hvalid, hlanguage, hread, stageEvents]
          | ok source =>
              have hs : w.source? a = some source := by simp [source?, hread, Except.toOption]
              by_cases hblank : Text.isBlankText source
              · refine .inl ⟨.emptyInput, ?_⟩
                simp [Stage.all, reached, failure?, errorOf, hvalid, hlanguage, hread, hs, hblank,
                  stageEvents]
              · cases hparse : w.parseOutcome l source with
                | error e =>
                    refine .inl ⟨e, ?_⟩
                    simp [Stage.all, reached, failure?, errorOf, hvalid, hlanguage, hread, hl, hs,
                      hblank, hparse, stageEvents]
                | ok p =>
                    have hp : w.parsed? a = some p := by
                      simp [parsed?, hl, hs, hparse, Except.toOption]
                    cases htext : w.textOutcome a p with
                    | error e =>
                        refine .inl ⟨e, ?_⟩
                        simp [Stage.all, reached, failure?, errorOf, hvalid, hlanguage, hread, hl,
                          hs, hblank, hparse, hp, htext, stageEvents]
                    | ok text =>
                        have ht : w.text? a = some text := by
                          simp [text?, hp, htext, Except.toOption]
                        refine .inr ⟨text, ?_, ht, ?_⟩
                        · intro s hs
                          cases s <;> simp_all [failure?, errorOf]
                        · simp [hblank, hparse, htext, delivered, Stage.all, stageEvents, hl, hs,
                            hp]

/-! ### What failures leave untouched -/

/-- Nothing has changed but what was read, parsed and asked: every file, standard output and the
answers that writing will get are as before, no file was created and no program started. -/
structure Untouched (w w' : World) : Prop where
  files : w'.files = w.files
  output : w'.output = w.output
  disk : w'.disk = w.disk
  children : w'.children = w.children
  events : ∃ es, w'.events = w.events ++ es ∧ ∀ e ∈ es, e.touches = false

theorem untouched_after {w : World} {es : List Event} (h : ∀ e ∈ es, e.touches = false) :
    w.Untouched (w.after es) :=
  ⟨rfl, rfl, rfl, rfl, es, rfl, h⟩

theorem touches_parseEvents (w : World) (l : Language) (source : String) :
    ∀ e ∈ w.parseEvents l source, e.touches = false := by
  unfold parseEvents
  cases w.loads l <;> simp [Event.touches]

theorem touches_textEvents (a : Args) (p : ParsedSource) :
    ∀ e ∈ textEvents a p, e.touches = false := by
  unfold textEvents reviewEvents
  split
  · split <;> simp [Event.touches]
  · simp

theorem touches_stageEvents (w : World) (a : Args) (s : Stage) :
    ∀ e ∈ w.stageEvents a s, e.touches = false := by
  cases s with
  | validation | language | blankCheck | delivery => simp [stageEvents]
  | reading => cases hp : a.inputPath <;> simp [stageEvents, readEvent, Event.touches, hp]
  | parsing =>
      cases hl : language? a with
      | none => simp [stageEvents, hl]
      | some l =>
          cases hs : w.source? a with
          | none => simp [stageEvents, hl, hs]
          | some source => simpa [stageEvents, hl, hs] using w.touches_parseEvents l source
  | target =>
      cases hp : w.parsed? a with
      | none => simp [stageEvents, hp]
      | some p => simpa [stageEvents, hp] using touches_textEvents a p

theorem touches_eventsOfStages (w : World) (a : Args) (stages : List Stage) :
    ∀ e ∈ stages.flatMap (w.stageEvents a), e.touches = false := by
  intro e he
  obtain ⟨s, -, he⟩ := List.mem_flatMap.mp he
  exact w.touches_stageEvents a s e he

theorem untouched_after_stages (w : World) (a : Args) (stages : List Stage) :
    w.Untouched (w.after (stages.flatMap (w.stageEvents a))) :=
  untouched_after (w.touches_eventsOfStages a stages)

/-! ### Errors and effects of a run -/

theorem delivery_mem_reached {w : World} {a : Args}
    (h : ∀ s, s ≠ .delivery → w.failure? a s = none) : .delivery ∈ w.reached a := by
  cases hd : w.failure? a .delivery <;> simp [reached, Stage.all, h, hd]

theorem findSome?_failure? {w : World} {a : Args}
    (h : ∀ s, s ≠ .delivery → w.failure? a s = none) :
    Stage.all.findSome? (w.failure? a) = w.failure? a .delivery := by
  cases hd : w.failure? a .delivery <;> simp [Stage.all, h, hd]

theorem exec_of_unresolved {a : Args} (h : a.listLanguages = false) (w : World) {e : RunError}
    (he : resolveLanguage a.language a.inputPath = .error e) : (exec a w).2 = w := by
  rw [exec_eq h, he]
  cases a.validate <;> rfl

theorem exec_of_blank {a : Args} (h : a.listLanguages = false) (w : World) {source : String}
    (hs : w.source? a = some source) (hblank : Text.isBlankText source) :
    (exec a w).2 = w ∨ (exec a w).2 = w.after [readEvent a.inputPath] := by
  rw [exec_eq h]
  cases a.validate with
  | error e => exact .inl rfl
  | ok =>
      cases resolveLanguage a.language a.inputPath with
      | error e => exact .inl rfl
      | ok l =>
          right
          unfold source? at hs
          cases hread : w.sourceOutcome a.inputPath with
          | error e => rfl
          | ok text =>
              rw [hread] at hs
              obtain rfl : text = source := Option.some.inj hs
              simp [hblank]

/-- A run reports the first stage that fails, and its effects are those of the stages up to there;
only if it comes to deliver the text does it do more.  So an error that is not one of delivery
leaves the world untouched, a file that is read and was to be written included; without a language
not even the source is read, and of a blank source nothing but that it was read is left. -/
theorem exec_stops_at_first_failure (a : Args) (w : World) (h : a.listLanguages = false) :
    (exec a w).1 = outcomeOf (Stage.all.findSome? (w.failure? a)) ∧
    (.delivery ∉ w.reached a →
      (exec a w).2 = w.after ((w.reached a).flatMap (w.stageEvents a))) ∧
    (.delivery ∈ w.reached a → ∃ text, w.text? a = some text ∧ exec a w = w.delivered a text) ∧
    (∀ e, (exec a w).1 = .error e → e.isOfDelivery = false →
      w.Untouched (exec a w).2 ∧
      ∀ path, a.inputPath = some path → a.outputPath = some path →
        (exec a w).2.files.read path = w.files.read path) ∧
    (∀ e, resolveLanguage a.language a.inputPath = .error e → (exec a w).2 = w) ∧
    (∀ source, w.source? a = some source → Text.isBlankText source →
      (exec a w).2 = w ∨ (exec a w).2 = w.after [readEvent a.inputPath]) := by
  refine ⟨?outcome, ?effects, ?delivers, ?untouched, fun e => exec_of_unresolved h w,
    fun source => exec_of_blank h w⟩ <;>
  obtain ⟨e, hfirst, hreached, hexec⟩ | ⟨text, hnone, htext, hexec⟩ := exec_cases h w
  case outcome.inl => rw [hexec, hfirst, outcomeOf]
  case outcome.inr =>
    have hdelivery : w.failure? a .delivery = errorOf (w.delivered a text).1 := by
      simp [failure?, htext]
    rw [findSome?_failure? hnone, hdelivery, outcomeOf_errorOf, hexec]
  case effects.inl => exact fun _ => congrArg Prod.snd hexec
  case effects.inr => exact fun hd => absurd (delivery_mem_reached hnone) hd
  case delivers.inl => exact fun hd => absurd hd hreached
  case delivers.inr => exact fun _ => ⟨text, htext, hexec⟩
  case untouched.inl =>
    have huntouched : w.Untouched (exec a w).2 := by
      rw [hexec]
      exact untouched_after_stages w a _
    exact fun _ _ _ => ⟨huntouched, fun path _ _ => by rw [huntouched.files]⟩
  case untouched.inr =>
    intro e he hdelivery
    rw [hexec] at he
    rw [isOfDelivery_of_run_deliverResult he] at hdelivery
    cases hdelivery

/-- A blank file is to be overwritten with its review, and nothing can parse it. -/
theorem exec_stops_at_blankFile :
    let a : Args := { inputPath := some "m.c", outputPath := some "m.c", target := .review }
    let w : World := { files := ⟨[(["m.c"], .file [0x20, 0x0A])]⟩ }
    a.listLanguages = false ∧ w.failure? a .parsing = some (.parse (.noTree .c)) ∧
      (exec a w).1 = .error .emptyInput ∧ w.Untouched (exec a w).2 ∧
      (exec a w).2.files.read "m.c" = w.files.read "m.c" := by
  intro a w
  have hparse : w.failure? a .parsing = some (.parse (.noTree .c)) := by decide +kernel
  have hfirst : Stage.all.findSome? (w.failure? a) = some .emptyInput := by decide +kernel
  obtain ⟨houtcome, -, -, huntouched, -, -⟩ := exec_stops_at_first_failure a w rfl
  rw [hfirst] at houtcome
  obtain ⟨hw, hread⟩ := huntouched .emptyInput houtcome rfl
  exact ⟨rfl, hparse, houtcome, hw, hread "m.c" rfl rfl⟩

end World
end SyntaxInspector
