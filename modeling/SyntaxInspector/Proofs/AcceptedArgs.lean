import SyntaxInspector.Proofs.Emission
import SyntaxInspector.Proofs.KeyWords

/-! # Accepted command lines

What is sure of the arguments once a command line has been accepted, however its options are
ordered and spelled.

* `Given.Kept` says of a property of the values found so far that no option takes it away;
  `Reading.word_kept` and `Reading.words_kept` say so of a word and of a whole command line.
* `depthInRange_parse` and `image_of_word` are two such properties.
* `World.exec_of_accepted` says what they mean for a run that is to draw an image: it fails before
  or ends with Graphviz (`World.DrawingRun`), and writes nothing itself. -/

namespace SyntaxInspector

open CommandLine

/-! ### Values -/

namespace Given

/-- A property of the values that no option takes away. -/
structure Kept (P : Given → Prop) : Prop where
  assign : ∀ {g g' : Given} {s : Switch} {value : String},
    P g → g.assign s value = .ok g' → P g'
  flag : ∀ {g g' : Given} {s : Switch}, P g → g.flag s = .ok g' → P g'

/-- A depth that is given is in its range. -/
def DepthInRange (g : Given) : Prop :=
  ∀ depth, g.maxDepth = some depth → depthRange.1 ≤ depth ∧ depth ≤ depthRange.2

/-- An image is asked for. -/
def AsksForImage (g : Given) : Prop := g.image ≠ none

theorem depthInRange_empty : DepthInRange {} := by
  intro depth hdepth
  cases hdepth

theorem depthValue_in_range {value : String} {depth : Nat} (h : depthValue value = .ok depth) :
    depthRange.1 ≤ depth ∧ depth ≤ depthRange.2 := by
  unfold depthValue at h
  split at h
  · rename_i n _
    split at h
    · rename_i hrange
      simp only [Bool.and_eq_true, decide_eq_true_eq] at hrange
      obtain rfl : n.toNat = depth := Except.ok.inj h
      omega
    · cases h
  · cases h

theorem once_eq_ok {α : Type} {old found : Option α} {new : Except Refusal α}
    (h : once old new = .ok found) :
    old = none ∧ ∃ value, new = .ok value ∧ found = some value := by
  unfold once at h
  split at h
  · cases h
  · rename_i hold
    obtain ⟨value, hvalue, rfl⟩ := map_eq_ok_iff.mp h
    exact ⟨by simpa using hold, value, hvalue, rfl⟩

/-- A flag sets neither a depth nor an image. -/
theorem flag_eq_ok {g g' : Given} {s : Switch} (h : g.flag s = .ok g') :
    g'.maxDepth = g.maxDepth ∧ g'.image = g.image := by
  cases s with
  | listLanguages =>
      obtain ⟨found, -, h⟩ := bind_eq_ok_iff.mp h
      cases h
      exact ⟨rfl, rfl⟩
  | verbose =>
      cases h
      exact ⟨rfl, rfl⟩
  | _ => cases h

theorem asksForImage_assign {g g' : Given} {value : String} (h : g.assign .image value = .ok g') :
    g'.AsksForImage := by
  obtain ⟨found, hfound, h⟩ := bind_eq_ok_iff.mp h
  cases h
  obtain ⟨-, format, -, rfl⟩ := once_eq_ok hfound
  exact Option.some_ne_none format

theorem depthInRange_assign {g g' : Given} {value : String}
    (h : g.assign .maxDepth value = .ok g') : g'.DepthInRange := by
  obtain ⟨found, hfound, h⟩ := bind_eq_ok_iff.mp h
  cases h
  obtain ⟨-, depth, hdepth, rfl⟩ := once_eq_ok hfound
  rintro _ ⟨⟩
  exact depthValue_in_range hdepth

/-- Another option changes neither the depth nor the image. -/
theorem assign_eq_ok {g g' : Given} {s : Switch} {value : String} (h : g.assign s value = .ok g') :
    (s ≠ .maxDepth → g'.maxDepth = g.maxDepth) ∧ (s ≠ .image → g'.image = g.image) := by
  cases s with
  | listLanguages | verbose | help | version => cases h
  | maxDepth =>
      obtain ⟨found, -, h⟩ := bind_eq_ok_iff.mp h
      cases h
      exact ⟨fun hs => absurd rfl hs, fun _ => rfl⟩
  | image =>
      obtain ⟨found, -, h⟩ := bind_eq_ok_iff.mp h
      cases h
      exact ⟨fun _ => rfl, fun hs => absurd rfl hs⟩
  | _ =>
      obtain ⟨found, -, h⟩ := bind_eq_ok_iff.mp h
      cases h
      exact ⟨fun _ => rfl, fun _ => rfl⟩

theorem kept_depthInRange : Kept DepthInRange where
  assign := by
    intro g g' s value hg h
    by_cases hs : s = .maxDepth
    · exact depthInRange_assign (hs ▸ h)
    · intro depth hdepth
      exact hg depth (((assign_eq_ok h).1 hs).symm.trans hdepth)
  flag := by
    intro g g' s hg h depth hdepth
    exact hg depth ((flag_eq_ok h).1.symm.trans hdepth)

theorem kept_asksForImage : Kept AsksForImage where
  assign := by
    intro g g' s value hg h
    by_cases hs : s = .image
    · exact asksForImage_assign (hs ▸ h)
    · exact fun hnone => hg (((assign_eq_ok h).2 hs).symm.trans hnone)
  flag := by
    intro g g' s hg h hnone
    exact hg ((flag_eq_ok h).2.symm.trans hnone)

end Given

/-! ### Words -/

namespace Reading

variable {P : Given → Prop} {r r' s : Reading} {w : String} {ws : List String}

theorem settle_kept (hP : Given.Kept P) (h : P r.given) (hr : r.settle = .ok s) : P s.given := by
  unfold settle at hr
  split at hr
  · cases hr
    exact h
  · cases hr
  · obtain ⟨g, hg, hs⟩ := bind_eq_ok_iff.mp hr
    cases hs
    exact hP.assign h hg

theorem OptionWord.kept {f : Reading → Except Refusal Reading} (hf : OptionWord f)
    (hP : Given.Kept P) (h : P r.given) (hr : f r = .ok r') : P r'.given := by
  induction hf generalizing r with
  | refused e hf =>
      rw [hf] at hr
      cases hr
  | expects o hf =>
      rw [hf] at hr
      obtain ⟨s, hs, rfl⟩ := expectValue_eq_ok hr
      have hkept := settle_kept hP h hs
      exact hkept
  | value o value hf =>
      rw [hf] at hr
      obtain ⟨s, g, hs, hg, rfl⟩ := withValue_eq_ok hr
      exact hP.assign (settle_kept hP h hs) hg
  | flag o hf =>
      rw [hf] at hr
      obtain ⟨s, g, hs, hg, rfl⟩ := withFlag_eq_ok hr
      exact hP.flag (settle_kept hP h hs) hg
  | flags o _ hf ih =>
      rw [hf] at hr
      obtain ⟨r₁, h₁, hr⟩ := bind_eq_ok_iff.mp hr
      obtain ⟨s, g, hs, hg, rfl⟩ := withFlag_eq_ok h₁
      exact ih (hP.flag (settle_kept hP h hs) hg) hr

/-- A word takes nothing away that is kept. -/
theorem word_kept (hP : Given.Kept P) (h : P r.given) (hr : r.word w = .ok r') : P r'.given := by
  by_cases hfinished : r.finished = true
  · rw [word_finished hfinished] at hr
    cases hr
  rw [Bool.not_eq_true] at hfinished
  cases wordKind w with
  | stop hword =>
      rw [hword r hfinished] at hr
      cases hr
      exact h
  | option hf hword =>
      rw [hword r hfinished] at hr
      exact hf.kept hP h hr
  | plain hword =>
      rw [hword r hfinished] at hr
      unfold plain at hr
      split at hr <;> cases hr
      exact h

/-- Nor do all words. -/
theorem words_kept (hP : Given.Kept P) (h : P r.given) (hs : r.words ws = .ok s) : P s.given := by
  induction ws generalizing r with
  | nil => exact settle_kept hP h hs
  | cons w ws ih =>
      obtain ⟨r₁, hword, hs⟩ := bind_eq_ok_iff.mp hs
      exact ih (word_kept hP h hword) hs

/-- The word asks for an image: the name of the option, with or without the format behind it. -/
inductive ImageWord : String → Prop
  | separate : ImageWord "--render"
  | joined (format : String) : ImageWord ("--render=" ++ format)

/-- If the words ask for an image somewhere, the values do so in the end. -/
theorem asksForImage_words (hs : r.words ws = .ok s) (hw : w ∈ ws) (himage : ImageWord w) :
    s.given.AsksForImage := by
  induction ws generalizing r with
  | nil => cases hw
  | cons w' ws ih =>
      have hr : r.finished = false := by
        refine Bool.eq_false_iff.mpr fun hfinished => ?_
        rw [words_cons_finished hfinished] at hs
        cases hs
      obtain ⟨r₁, hword, hrest⟩ := bind_eq_ok_iff.mp hs
      rcases List.mem_cons.mp hw with rfl | hw
      · cases himage with
        | separate =>
            have hawaits : r.expectValue .image = .ok r₁ :=
              (word_name hr .image rfl).symm.trans hword
            obtain ⟨_, _, _, _, -, -, hg, hs⟩ := words_of_expectValue hawaits hrest
            exact words_kept Given.kept_asksForImage (Given.asksForImage_assign hg) hs
        | joined format =>
            have hspelled :
                "--render=" ++ format = "--" ++ Switch.image.longName ++ "=" ++ format := by
              rfl
            rw [hspelled, word_name_value hr .image rfl] at hword
            obtain ⟨_, _, -, hg, rfl⟩ := withValue_eq_ok hword
            exact words_kept Given.kept_asksForImage (Given.asksForImage_assign hg) hrest
      · exact ih hrest hw

end Reading

/-! ### Arguments -/

namespace Args

variable {ws : List String} {e : Environment} {a : Args}

theorem depthInRange_parse (h : Args.parse ws e = .ok a) :
    depthRange.1 ≤ a.maxDepth ∧ a.maxDepth ≤ depthRange.2 := by
  obtain ⟨r, hr, -, rfl⟩ := Args.parse_eq_ok_iff.mp h
  have hrange : r.given.DepthInRange := Reading.words_kept Given.kept_depthInRange
    Given.depthInRange_empty hr
  change depthRange.1 ≤ r.given.maxDepth.getD _ ∧ r.given.maxDepth.getD _ ≤ depthRange.2
  cases hdepth : r.given.maxDepth with
  | none => decide
  | some depth => exact hrange depth hdepth

theorem image_of_word {w : String} (h : Args.parse ws e = .ok a) (hw : w ∈ ws)
    (himage : Reading.ImageWord w) : a.image ≠ none := by
  obtain ⟨r, hr, -, rfl⟩ := Args.parse_eq_ok_iff.mp h
  exact Reading.asksForImage_words hr hw himage

end Args

/-! ### Runs -/

namespace World

variable {a : Args} {format : ImageFormat} {path : String}

/-- How a run ends that is to draw an image.  In no case has it written a text or created a file. -/
inductive DrawingRun (a : Args) (format : ImageFormat) (path : String) (w : World) :
    Except RunError Unit → World → Prop
  /-- A stage before has failed. -/
  | early (e : RunError) {w' : World} :
      .delivery ∉ w.reached a → Stage.all.findSome? (w.failure? a) = some e → w.Untouched w' →
      DrawingRun a format path w (.error e) w'
  /-- Graphviz does not start. -/
  | notStarted (cause : IoError) {w' : World} :
      w.Untouched w' →
      DrawingRun a format path w (.error (.image (.notStarted graphvizProgram cause))) w'
  /-- Graphviz is given the graph, and the run ends as Graphviz does. -/
  | started (p : Program) (source : ParsedSource) {w' : World} :
      p ∈ w.programs → p.name = graphvizProgram → w.parsed? a = some source →
      w'.children = w.children ++ [p.fed graphvizProgram (imageArguments format path)
        (Text.encode (source.root.toDot a.maxDepth))] →
      w'.files = p.leaves (imageArguments format path) w.files →
      w'.output = w.output → w'.disk = w.disk →
      w'.touching = w.touching ++ [.started graphvizProgram] →
      DrawingRun a format path w
        ((judgeProgram graphvizProgram (p.takes (Text.encode (source.root.toDot a.maxDepth)))
          ⟨p.status.reported, p.errorOutput⟩).mapError .image) w'

/-- Delivering an image in the world that the stages before leave. -/
theorem drawingRun_delivered {w : World} {text : String} (htarget : a.target = .graph)
    (himage : a.image = some format) (hpath : a.outputPath = some path)
    (htext : w.text? a = some text) :
    DrawingRun a format path w (w.delivered a text).1 (w.delivered a text).2 := by
  obtain ⟨source, hsource, hgraph⟩ := text?_eq_some htext
  obtain rfl : source.root.toDot a.maxDepth = text := by
    rw [textOutcome, htarget] at hgraph
    exact Except.ok.inj hgraph
  have hes := w.touches_eventsOfStages a Stage.all
  have htouching : (w.after (Stage.all.flatMap (w.stageEvents a))).touching = w.touching :=
    touching_after hes
  rw [delivered, run_deliverResult_image htarget himage hpath]
  obtain ⟨cause, hrun⟩ | ⟨p, hp, hname, hrun⟩ := run_drawImage_cases
    (w.after (Stage.all.flatMap (w.stageEvents a))) format path (source.root.toDot a.maxDepth)
  · rw [hrun]
    exact .notStarted cause (untouched_after hes)
  · rw [hrun]
    refine .started p source hp hname hsource rfl rfl rfl rfl ?_
    rw [← htouching]
    simp [touching, Event.touches]

/-- A run that is to draw an image does so or fails. -/
theorem drawingRun_exec (hlist : a.listLanguages = false) (htarget : a.target = .graph)
    (himage : a.image = some format) (hpath : a.outputPath = some path) (w : World) :
    DrawingRun a format path w (exec a w).1 (exec a w).2 := by
  obtain ⟨e, hfirst, hreached, hexec⟩ | ⟨text, -, htext, hexec⟩ := exec_cases hlist w
  · rw [hexec]
    exact .early e hreached hfirst (w.untouched_after_stages a _)
  · rw [hexec]
    exact drawingRun_delivered htarget himage hpath htext

/-- The arguments of a command line that is read and passes the check have a depth in the range, and
with an image, for which it is enough that a word asks, a file for it and the graph as the target.
So delivering the text is drawing the image, on every host, and a run either fails before or ends
with Graphviz; whatever its outcome, it writes no text. -/
theorem exec_of_accepted {ws : List String} {e : Environment} (ha : Args.parse ws e = .ok a)
    (hvalid : a.validate = .ok ()) :
    (3 ≤ a.maxDepth ∧ a.maxDepth ≤ 15) ∧
    ((∃ w ∈ ws, Reading.ImageWord w) → a.image ≠ none) ∧
    ∀ format, a.image = some format → ∃ path, a.outputPath = some path ∧ a.target = .graph ∧
      (∀ {m : Type → Type} [Monad m] (host : Host m) (text : String),
        deliverResult host a text = ExceptT.mk (do
          let outcome ← drawImage host graphvizProgram format path text
          return outcome.mapError .image)) ∧
      (a.listLanguages = false → ∀ w : World,
        DrawingRun a format path w (exec a w).1 (exec a w).2) := by
  refine ⟨Args.depthInRange_parse ha, fun ⟨w, hw, himage⟩ => Args.image_of_word ha hw himage, ?_⟩
  intro format himage
  have hsome : a.image ≠ none := by simp [himage]
  obtain ⟨path, hpath⟩ := Option.ne_none_iff_exists'.mp (Args.outputPath_of_image ha hsome)
  have htarget := target_of_validate hvalid hsome
  exact ⟨path, hpath, htarget, fun host => deliverResult_of_image host htarget himage hpath,
    fun hlist => drawingRun_exec hlist htarget himage hpath⟩

/-- Graphviz complains of the graph, and nothing takes the place of the image. -/
theorem exec_of_accepted_joined :
    let ws := ["-om.svg", "-d=15", "--render=svg", "--input-path", "m.c"]
    let a : Args :=
      { inputPath := some "m.c", outputPath := some "m.svg", image := some .svg, maxDepth := 15 }
    let w : World :=
      { files := ⟨[(["m.c"], .file (Text.encode "int x;"))]⟩
        parses := fun _ _ => some ⟨.node
          { kind := "translation_unit", isNamed := true, isError := false, isMissing := false
            startByte := 0, endByte := 6, startPoint := ⟨0, 0⟩, endPoint := ⟨0, 6⟩ } [], false⟩
        programs := [{ name := "dot", errorOutput := Text.encode "no", status := .exited 1 }] }
    Args.parse ws {} = .ok a ∧ a.validate = .ok () ∧ a.maxDepth ≤ 15 ∧
      DrawingRun a .svg "m.svg" w (.error (.image (.complained "no"))) (exec a w).2 := by
  intro ws a w
  have ha : Args.parse ws {} = .ok a := by rfl
  obtain ⟨⟨-, hdepth⟩, -, hrun⟩ := exec_of_accepted ha rfl
  obtain ⟨path, hpath, -, -, hrun⟩ := hrun .svg rfl
  obtain rfl : "m.svg" = path := Option.some.inj hpath
  have houtcome : (exec a w).1 = .error (.image (.complained "no")) := by decide +kernel
  exact ⟨ha, rfl, hdepth, houtcome ▸ hrun rfl w⟩

end World
end SyntaxInspector
