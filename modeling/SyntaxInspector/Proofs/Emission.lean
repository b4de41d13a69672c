import SyntaxInspector.CommandLine.Parse
import SyntaxInspector.Proofs.Delivery

/-! # What a run emits

A run that goes well emits one text, and it goes to one place.  The text is told by the source, its
language, its tree and those options that the target uses.

* `Args.outputPath_of_image`: an image needs an output file, which the command line has to name;
* `SameCode` and `SameUse` say of two runs that they have these things in common, and
  `text?_eq_of_same` that their texts are then the same;
* `exec_delivers_text` is the result. -/

namespace SyntaxInspector

/-! ### Images on the command line -/

theorem Args.outputPath_of_image {ws : List String} {e : Environment} {a : Args}
    (h : Args.parse ws e = .ok a) (himage : a.image ≠ none) : a.outputPath ≠ none := by
  obtain ⟨r, -, hpath, rfl⟩ := Args.parse_eq_ok_iff.mp h
  exact Option.isSome_iff_ne_none.mp (hpath (Option.isSome_iff_ne_none.mpr himage))

namespace World

variable {a a' : Args} {w w' : World} {text text' : String}

/-! ### What the text depends on -/

/-- The line that says that a source has passed the check. -/
def checkLine (a : Args) : String :=
  "no syntax errors in " ++ a.inputPath.getD standardInputName

/-- The same bytes in the same language with the same trees, from wherever they come. -/
structure SameCode (a a' : Args) (w w' : World) : Prop where
  bytes : w'.sourceBytes a'.inputPath = w.sourceBytes a.inputPath
  language : language? a' = language? a
  trees : w'.parses = w.parses

/-- The same target, and the same of what it uses: the depth, the form, or the settings of the
review service and the service itself. -/
structure SameUse (a a' : Args) (w w' : World) : Prop where
  target : a'.target = a.target
  maxDepth : a.target = .graph ∨ a.target = .outline → a'.maxDepth = a.maxDepth
  format : a.target = .summary → a'.format = a.format
  review : a.target = .review → a'.reviewConfig = a.reviewConfig ∧ w'.server = w.server

theorem parsed?_eq_some {p : ParsedSource} (h : w.parsed? a = some p) :
    ∃ l source tree, language? a = some l ∧ w.source? a = some source ∧
      w.parses l source = some tree ∧ p = { tree with language := l, source } := by
  obtain ⟨l, hl, h⟩ := Option.bind_eq_some_iff.mp h
  obtain ⟨source, hs, h⟩ := Option.bind_eq_some_iff.mp h
  refine ⟨l, source, ?_⟩
  have hparse := toOption_eq_some_iff.mp h
  unfold parseOutcome at hparse
  split at hparse
  · cases hparse
  · split at hparse
    · rename_i tree htree
      exact ⟨tree, hl, hs, htree, (Except.ok.inj hparse).symm⟩
    · cases hparse

theorem SameCode.parsed?_eq (h : SameCode a a' w w') {p p' : ParsedSource}
    (hp : w.parsed? a = some p) (hp' : w'.parsed? a' = some p') : p' = p := by
  have hsource : w'.source? a' = w.source? a := by
    unfold source? sourceOutcome
    rw [h.bytes]
  obtain ⟨l, source, tree, hl, hs, htree, rfl⟩ := parsed?_eq_some hp
  obtain ⟨l', source', tree', hl', hs', htree', rfl⟩ := parsed?_eq_some hp'
  rw [h.language, hl] at hl'
  rw [hsource, hs] at hs'
  cases hl'
  cases hs'
  rw [h.trees, htree] at htree'
  cases htree'
  rfl

theorem SameUse.textOutcome_eq (h : SameUse a a' w w') (hcheck : a.target ≠ .check)
    (p : ParsedSource) : w'.textOutcome a' p = w.textOutcome a p := by
  unfold textOutcome
  rw [h.target]
  cases htarget : a.target with
  | graph => rw [h.maxDepth (.inl htarget)]
  | tree => rfl
  | outline => rw [h.maxDepth (.inr htarget)]
  | summary => rw [h.format htarget]
  | review =>
      obtain ⟨hconfig, hserver⟩ := h.review htarget
      unfold reviewOutcome
      rw [hconfig, hserver]
  | check => exact absurd htarget hcheck

theorem textOutcome_check (h : a.target = .check) {p : ParsedSource}
    (ht : w.textOutcome a p = .ok text) : text = checkLine a := by
  unfold textOutcome at ht
  rw [h] at ht
  obtain ⟨_, -, hline⟩ := map_eq_ok_iff.mp ht
  exact hline.symm

theorem text?_eq_some (h : w.text? a = some text) :
    ∃ p, w.parsed? a = some p ∧ w.textOutcome a p = .ok text := by
  obtain ⟨p, hp, ht⟩ := Option.bind_eq_some_iff.mp h
  exact ⟨p, hp, toOption_eq_some_iff.mp ht⟩

theorem text?_eq_of_same (hcode : SameCode a a' w w') (huse : SameUse a a' w w')
    (ht : w.text? a = some text) (ht' : w'.text? a' = some text') (hcheck : a.target ≠ .check) :
    text' = text := by
  obtain ⟨p, hp, ht⟩ := text?_eq_some ht
  obtain ⟨p', hp', ht'⟩ := text?_eq_some ht'
  obtain rfl := hcode.parsed?_eq hp hp'
  rw [huse.textOutcome_eq hcheck, ht] at ht'
  exact (Except.ok.inj ht').symm

theorem text?_of_check (h : a.target = .check) (ht : w.text? a = some text) :
    text = checkLine a := by
  obtain ⟨p, -, ht⟩ := text?_eq_some ht
  exact textOutcome_check h ht

/-! ### Successful runs -/

theorem touching_after {es : List Event} (h : ∀ e ∈ es, e.touches = false) :
    (w.after es).touching = w.touching := by
  have hnone : es.filter Event.touches = [] := by
    rw [List.filter_eq_nil_iff]
    intro e he
    rw [h e he]
    exact Bool.false_ne_true
  rw [touching, after, List.filter_append, hnone, List.append_nil]
  rfl

/-- A run that goes well comes to deliver a text. -/
theorem delivered_of_ok (hlist : a.listLanguages = false) (hok : (exec a w).1 = .ok ()) :
    a.validate = .ok () ∧ ∃ text es, w.text? a = some text ∧
      (∀ e ∈ es, e.touches = false) ∧
      exec a w = (deliverResult host a text).run.run (w.after es) := by
  obtain ⟨e, -, -, hexec⟩ | ⟨text, hnone, htext, hexec⟩ := exec_cases hlist w
  · rw [hexec] at hok
    cases hok
  · refine ⟨?_, text, _, htext, w.touches_eventsOfStages a Stage.all, hexec⟩
    have hvalid : errorOf a.validate = none := hnone .validation (by decide)
    cases hvalidate : a.validate with
    | ok => rfl
    | error e =>
        rw [hvalidate] at hvalid
        cases hvalid

theorem target_of_validate (h : a.validate = .ok ()) (himage : a.image ≠ none) :
    a.target = .graph := by
  have hsome := Option.isSome_iff_ne_none.mpr himage
  by_contra htarget
  rw [Args.validate, if_pos (by simp [hsome, htarget])] at h
  cases h

theorem Drawn.of_after {es : List Event} {format : ImageFormat} {path dot : String}
    (h : Drawn format path dot (w.after es) w') (hes : ∀ e ∈ es, e.touches = false) :
    Drawn format path dot w w' :=
  ⟨h.child, h.files, h.output, h.disk, by rw [h.touching, touching_after hes]⟩

theorem Filed.of_after {es : List Event} {path : String} (h : Filed path text (w.after es) w')
    (hes : ∀ e ∈ es, e.touches = false) : Filed path text w w' :=
  ⟨h.holds, h.output, h.children, by rw [h.touching, touching_after hes]⟩

theorem Shown.of_after {es : List Event} (h : Shown text (w.after es) w')
    (hes : ∀ e ∈ es, e.touches = false) : Shown text w w' :=
  ⟨h.written, h.files, h.disk, h.children, by rw [h.touching, touching_after hes]⟩

/-- A run that goes well emits one text, to one place, and all of it.

An image is drawn of a graph only, and the program that draws it is given the graph.  Otherwise the
text goes to the output file, if there is one, or else to standard output; in each case nothing else
is written.

Another run with a text has the same one if it has the same code, target and options for the target:
whether the code comes from a file or not makes no difference, nor does the depth, except for graphs
and outlines.  Only the line of a check names the source. -/
theorem exec_delivers_text {ws : List String} {e : Environment} (ha : Args.parse ws e = .ok a)
    (hlist : a.listLanguages = false) (hok : (exec a w).1 = .ok ()) :
    ∃ text, w.text? a = some text ∧
      (∀ format, a.image = some format → ∃ path p, a.outputPath = some path ∧
        a.target = .graph ∧ w.parsed? a = some p ∧ text = p.root.toDot a.maxDepth ∧
        Drawn format path text w (exec a w).2) ∧
      (a.image = none → ∀ path, a.outputPath = some path → Filed path text w (exec a w).2) ∧
      (a.image = none → a.outputPath = none → Shown text w (exec a w).2) ∧
      ∀ a' w' text', w'.text? a' = some text' → SameCode a a' w w' → SameUse a a' w w' →
        (a.target ≠ .check → text' = text) ∧
        (a.target = .check → text = checkLine a ∧ text' = checkLine a') := by
  obtain ⟨hvalid, text, es, htext, hes, hexec⟩ := delivered_of_ok hlist hok
  rw [hexec] at hok ⊢
  refine ⟨text, htext, ?image, ?file, ?output, ?same⟩
  case image =>
    intro format himage
    have hsome : a.image ≠ none := by simp [himage]
    have htarget := target_of_validate hvalid hsome
    obtain ⟨path, hpath⟩ := Option.ne_none_iff_exists'.mp (Args.outputPath_of_image ha hsome)
    obtain ⟨p, hp, hgraph⟩ := text?_eq_some htext
    have hdot : text = p.root.toDot a.maxDepth := by
      rw [textOutcome, htarget] at hgraph
      exact (Except.ok.inj hgraph).symm
    rw [run_deliverResult_image htarget himage hpath] at hok ⊢
    have hdrawn := drawn_of_ok (mapError_eq_ok_iff.mp hok)
    exact ⟨path, p, hpath, htarget, hp, hdot, hdrawn.of_after hes⟩
  case file =>
    intro himage path hpath
    rw [deliverResult_of_image_none himage, hpath] at hok ⊢
    exact (filed_of_ok hok).of_after hes
  case output =>
    intro himage hpath
    rw [deliverResult_of_image_none himage, hpath] at hok ⊢
    exact (shown_of_ok hok).of_after hes
  case same =>
    intro a' w' text' htext' hcode huse
    exact ⟨text?_eq_of_same hcode huse htext htext', fun hcheck =>
      ⟨text?_of_check hcheck htext, text?_of_check (huse.target.trans hcheck) htext'⟩⟩

/-- A graph of a file is drawn.  It is the one that standard input gives. -/
theorem exec_draws_graph :
    let a : Args := { inputPath := some "m.c", outputPath := some "m.svg", image := some .svg }
    let a' : Args := { language := some .c }
    let parses : Language → String → Option ParsedTree := fun _ _ => some ⟨.node
      { kind := "translation_unit", isNamed := true, isError := false, isMissing := false
        startByte := 0, endByte := 6, startPoint := ⟨0, 0⟩, endPoint := ⟨0, 6⟩ } [], false⟩
    let dot : Program := { name := "dot", product := some [] }
    let w : World :=
      { files := ⟨[(["m.c"], .file (Text.encode "int x;"))]⟩, parses, programs := [dot] }
    let w' : World := { input := Text.encode "int x;", parses }
    Args.parse ["-i", "m.c", "--render", "svg", "-o", "m.svg"] {} = .ok a ∧
      (exec a w).1 = .ok () ∧ (exec a w).2.output = w.output ∧
      ∃ text, w'.text? a' = some text ∧
        (exec a w).2.children = [dot.fed "dot" ["-Tsvg", "-o", "m.svg"] (Text.encode text)] := by
  intro a a' parses dot w w'
  have ha : Args.parse ["-i", "m.c", "--render", "svg", "-o", "m.svg"] {} = .ok a := by rfl
  have hok : (exec a w).1 = .ok () := by decide +kernel
  have htext' : (w'.text? a').isSome := by decide +kernel
  obtain ⟨text', htext'⟩ := Option.isSome_iff_exists.mp htext'
  obtain ⟨text, -, himage, -, -, hsame⟩ := exec_delivers_text ha rfl hok
  have hcode : SameCode a a' w w' := ⟨by decide +kernel, by decide +kernel, rfl⟩
  have huse : SameUse a a' w w' := ⟨rfl, fun _ => rfl, nofun, nofun⟩
  have htext : text' = text := (hsame a' w' text' htext' hcode huse).1 (by decide)
  obtain ⟨path, -, hpath, -, -, -, hdrawn⟩ := himage .svg rfl
  obtain rfl : "m.svg" = path := Option.some.inj hpath
  obtain ⟨p, hp, -, -, hchildren⟩ := hdrawn.child
  obtain rfl : p = dot := List.mem_singleton.mp hp
  exact ⟨ha, hok, hdrawn.output, text', htext', htext ▸ hchildren⟩

end World
end SyntaxInspector
