import SyntaxInspector.Proofs.FilePlaces
import SyntaxInspector.Proofs.ImageOutcomes
import SyntaxInspector.Proofs.Stages

/-! # Where the text goes

A text that is delivered without a failure goes to one place, and all of it does: to a Graphviz
program, to a file, or to standard output.

* `run_writeToOutput` is writing to standard output, `follows_file` and `follows_device` say that
  writing to a file is like writing to a device, and `run_drawImage` is drawing an image;
* `Drawn`, `Filed` and `Shown` say what a world is like after each of them has gone well, and
  `drawn_of_ok`, `filed_of_ok` and `shown_of_ok` that it is. -/

namespace SyntaxInspector

theorem Device.flush_outcome {d d' : Device} (h : d.flushError = d'.flushError) :
    d.flush.1 = d'.flush.1 := by
  unfold Device.flush
  rw [h]

namespace Program

/-- The files after a program with these arguments has written its output file. -/
def leaves (p : Program) (args : List String) (files : Files) : Files :=
  match p.product, outputArgument? args with
  | some bytes, some path =>
    match files.create path with
    | .ok (place, created) => created.append place bytes
    | .error _ => files
  | _, _ => files

/-- The program once it was given its input and waited for. -/
def fed (p : Program) (program : String) (args : List String) (input : List UInt8) : Started :=
  { program
    arguments := args
    input := if p.readsInput then some input else none
    waitedFor := true }

/-- Only the file that is named for the image changes, and only if there is one. -/
theorem leaves_other {p : Program} {format : ImageFormat} {path : String} {files : Files}
    {place : Location} (h : p.product ≠ none → files.locateNew path ≠ .ok place) :
    (p.leaves (imageArguments format path) files).find? place = files.find? place := by
  have hargs : outputArgument? (imageArguments format path) = some path := by
    cases format <;> rfl
  unfold leaves
  rw [hargs]
  cases hproduct : p.product with
  | none => rfl
  | some bytes =>
      cases hcreate : files.create path with
      | error e => simp [hcreate]
      | ok created =>
          obtain ⟨place', files'⟩ := created
          obtain ⟨hplace, hcreated⟩ := Files.create_eq_ok hcreate
          have hne : place ≠ place' := by
            rintro rfl
            exact h (by simp [hproduct]) hplace
          simp only [hcreate]
          rw [Files.sameBut_append files' place' bytes place hne, hcreated.sameBut place hne]

end Program

namespace World

variable {w w' : World} {text path : String} {place : Location}

/-! ### Standard output -/

theorem follows_output (w₀ : World) :
    host.standardOutput.Follows fun w d => w = { w₀ with output := d } where
  writeAll bytes := by
    rintro w d rfl
    exact ⟨rfl, rfl⟩
  flush := by
    rintro w d rfl
    exact ⟨rfl, rfl⟩

/-- Standard output is written to as a device, and nothing else changes. -/
theorem run_writeText_output (w : World) (text : String) :
    (writeText host.standardOutput text).run.run w =
      ((w.output.writeText text).1, { w with output := (w.output.writeText text).2 }) := by
  obtain ⟨houtcome, hworld⟩ := (follows_output w).writeText text (s := w) (d := w.output) rfl
  exact Prod.ext houtcome hworld

theorem run_writeToOutput (w : World) (text : String) :
    (writeToOutput host text).run.run w =
      ((forgiveBrokenPipe (w.output.writeText text).1).mapError (.output standardOutputName),
        { w with output := (w.output.writeText text).2 }) := by
  unfold writeToOutput
  rw [run_adapt, run_writeStandard, run_writeText_output]

/-! ### Files -/

/-- Everything but one file, and the answers to writing files, is as before. -/
structure KeptBut (place : Location) (w w' : World) : Prop where
  files : Files.SameBut place w.files w'.files
  output : w'.output = w.output
  children : w'.children = w.children
  events : w'.events = w.events

theorem KeptBut.refl (place : Location) (w : World) : KeptBut place w w :=
  ⟨Files.SameBut.refl place w.files, rfl, rfl, rfl⟩

/-- Writing to a file, as writing to a device that answers as the disk does. -/
structure OnFile (place : Location) (w₀ w : World) (d : Device) : Prop where
  kept : KeptBut place w₀ w
  content : w.files.find? place = some (.file d.written)
  answers : w.disk.answers = d.answers
  flushError : w.disk.flushError = d.flushError

/-- Writing to a device among the files. -/
structure OnDevice (place : Location) (w₀ w : World) (d : Device) : Prop where
  kept : KeptBut place w₀ w
  answers : w.files.find? place = some (.device d.answers)
  flushError : w.disk.flushError = d.flushError

/-- What a created file is written with. -/
def fileSink (place : Location) : Sink (StateM World) :=
  { writeAll := writeFile place, flush := flushFile }

theorem follows_file (place : Location) (w₀ : World) :
    (fileSink place).Follows (OnFile place w₀) where
  writeAll bytes := by
    intro w d h
    have hwrite : ((fileSink place).writeAll bytes).run.run w =
        ((deliver w.disk.answers bytes).2.1,
          { w with
            files := w.files.append place (deliver w.disk.answers bytes).1
            disk := { w.disk with answers := (deliver w.disk.answers bytes).2.2 } }) := by
      simp only [fileSink, writeFile, ExceptT.run_mk, StateT.run, h.content]
    obtain ⟨hcontent, hother⟩ := Files.find?_append h.content (deliver d.answers bytes).1
    rw [hwrite, h.answers]
    exact ⟨rfl, ⟨h.kept.files.trans hother, h.kept.output, h.kept.children, h.kept.events⟩,
      hcontent, rfl, h.flushError⟩
  flush := by
    intro w d h
    exact ⟨Device.flush_outcome h.flushError,
      ⟨h.kept.files, h.kept.output, h.kept.children, h.kept.events⟩,
      h.content, h.answers, h.flushError⟩

theorem follows_device (place : Location) (w₀ : World) :
    (fileSink place).Follows (OnDevice place w₀) where
  writeAll bytes := by
    intro w d h
    have hwrite : ((fileSink place).writeAll bytes).run.run w =
        ((deliver d.answers bytes).2.1,
          { w with files := w.files.put place (.device (deliver d.answers bytes).2.2) }) := by
      simp only [fileSink, writeFile, ExceptT.run_mk, StateT.run, h.answers]
      rfl
    have hplace : w.files.find? place ≠ some .directory := by simp [h.answers]
    obtain ⟨hanswers, hother⟩ :=
      Files.find?_put hplace (.device (deliver d.answers bytes).2.2)
    rw [hwrite]
    exact ⟨rfl, ⟨h.kept.files.trans hother, h.kept.output, h.kept.children, h.kept.events⟩,
      hanswers, h.flushError⟩
  flush := by
    intro w d h
    exact ⟨Device.flush_outcome h.flushError,
      ⟨h.kept.files, h.kept.output, h.kept.children, h.kept.events⟩, h.answers, h.flushError⟩

theorem run_createFile {files : Files} (h : w.files.create path = .ok (place, files)) :
    (host.createFile path).run.run w =
      (.ok (fileSink place), { w with files, events := w.events ++ [.createdFile path] }) := by
  simp only [host, createFile, ExceptT.run_mk, StateT.run, h]
  rfl

theorem run_createFile_of_error {e : IoError} (h : w.files.create path = .error e) :
    (host.createFile path).run.run w = (.error e, w) := by
  simp only [host, createFile, ExceptT.run_mk, StateT.run, h]

theorem run_writeResult {files : Files} (h : w.files.create path = .ok (place, files))
    (text : String) :
    (writeResult host (some path) text).run.run w =
      let written := (writeText (fileSink place) text).run.run
        { w with files, events := w.events ++ [.createdFile path] }
      (written.1.mapError (.output path), written.2) := by
  unfold writeResult
  rw [run_bind, run_adapt, run_createFile h]
  rfl

theorem run_writeResult_of_error {e : IoError} (h : w.files.create path = .error e)
    (text : String) :
    (writeResult host (some path) text).run.run w = (.error (.output path e), w) := by
  unfold writeResult
  rw [run_bind, run_adapt, run_createFile_of_error h]
  rfl

/-! ### Images -/

theorem updateChild_of_children {cs : List Started} {c : Started} (h : w.children = cs ++ [c])
    (f : Started → Started) : w.updateChild f = { w with children := cs ++ [f c] } := by
  simp [updateChild, h]

theorem run_startProgram_of_null {program : String} {args : List String}
    (hnull : (program :: args).any (·.toList.contains (Char.ofNat 0)) = true) (w : World) :
    (host.startProgram program args).run.run w = (.error .nullInArgument, w) := by
  simp only [host, startProgram, ExceptT.run_mk, StateT.run, hnull, if_true]

theorem run_startProgram_of_none {program : String} {args : List String}
    (hnull : (program :: args).any (·.toList.contains (Char.ofNat 0)) = false)
    (hfind : w.programs.find? (·.name == program) = none) :
    (host.startProgram program args).run.run w = (.error (w.startFailure program), w) := by
  simp only [host, startProgram, ExceptT.run_mk, StateT.run, hnull, hfind]
  rfl

theorem run_startProgram {p : Program} {program : String} {args : List String}
    (hnull : (program :: args).any (·.toList.contains (Char.ofNat 0)) = false)
    (hfind : w.programs.find? (·.name == program) = some p) :
    (host.startProgram program args).run.run w =
      (.ok { feed := feed p, wait := wait p args },
        { w with
          children := w.children ++
            [{ program, arguments := args, input := if p.readsInput then some [] else none }]
          events := w.events ++ [.started program] }) := by
  simp only [host, startProgram, ExceptT.run_mk, StateT.run, hnull, hfind]
  rfl

theorem run_feed {cs : List Started} {c : Started} (h : w.children = cs ++ [c]) (p : Program)
    (bytes : List UInt8) :
    (feed p bytes).run.run w =
      (p.takes bytes,
        { w with
          children := cs ++
            [{ c with
               input := if p.readsInput then some (c.input.getD [] ++ bytes) else none }] }) := by
  simp only [feed, ExceptT.run_mk, StateT.run, updateChild_of_children h]

theorem run_wait {cs : List Started} {c : Started} (h : w.children = cs ++ [c]) (p : Program)
    (args : List String) :
    (wait p args).run.run w =
      (.ok ⟨p.status.reported, p.errorOutput⟩,
        { w with
          files := p.leaves args w.files
          children := cs ++ [{ c with waitedFor := true }] }) := by
  simp only [wait, ExceptT.run_mk, StateT.run, updateChild_of_children h]
  rfl

/-- Drawing an image starts the program, gives it the whole graph and waits for it. -/
theorem run_drawImage {p : Program} {program : String} {format : ImageFormat}
    (hnull : (program :: imageArguments format path).any (·.toList.contains (Char.ofNat 0)) = false)
    (hfind : w.programs.find? (·.name == program) = some p) (dot : String) :
    (drawImage host program format path dot).run w =
      (judgeProgram program (p.takes (Text.encode dot)) ⟨p.status.reported, p.errorOutput⟩,
        { w with
          files := p.leaves (imageArguments format path) w.files
          children := w.children ++
            [p.fed program (imageArguments format path) (Text.encode dot)]
          events := w.events ++ [.started program] }) := by
  rw [run_drawImage_of_ok (run_startProgram hnull hfind) (run_feed rfl p _) (run_wait rfl p _)]
  unfold Program.fed
  cases p.readsInput <;> rfl

/-- Either Graphviz does not start, and nothing happens, or it is given the graph. -/
theorem run_drawImage_cases (w : World) (format : ImageFormat) (path dot : String) :
    (∃ e, (drawImage host graphvizProgram format path dot).run w =
      (.error (.notStarted graphvizProgram e), w)) ∨
    ∃ p ∈ w.programs, p.name = graphvizProgram ∧
      (drawImage host graphvizProgram format path dot).run w =
        (judgeProgram graphvizProgram (p.takes (Text.encode dot))
            ⟨p.status.reported, p.errorOutput⟩,
          { w with
            files := p.leaves (imageArguments format path) w.files
            children := w.children ++
              [p.fed graphvizProgram (imageArguments format path) (Text.encode dot)]
            events := w.events ++ [.started graphvizProgram] }) := by
  cases hnull : (graphvizProgram :: imageArguments format path).any
      (·.toList.contains (Char.ofNat 0)) with
  | true => exact .inl ⟨_, run_drawImage_of_error (run_startProgram_of_null hnull w)⟩
  | false =>
      cases hfind : w.programs.find? (·.name == graphvizProgram) with
      | none => exact .inl ⟨_, run_drawImage_of_error (run_startProgram_of_none hnull hfind)⟩
      | some p =>
          have hname : p.name = graphvizProgram := by simpa using List.find?_some hfind
          exact .inr ⟨p, List.mem_of_find?_eq_some hfind, hname, run_drawImage hnull hfind dot⟩

/-! ### Where a text has gone -/

/-- What has been done to a world apart from reading, parsing and asking. -/
def touching (w : World) : List Event := w.events.filter Event.touches

/-- A Graphviz program was started, took the whole graph and was waited for.  Nothing was written to
standard output or, but for the image, to a file, and no file was created. -/
structure Drawn (format : ImageFormat) (path dot : String) (w w' : World) : Prop where
  child : ∃ p ∈ w.programs, p.name = graphvizProgram ∧ p.takes (Text.encode dot) = .ok () ∧
    w'.children = w.children ++
      [p.fed graphvizProgram (imageArguments format path) (Text.encode dot)]
  files : ∀ place, w.files.locateNew path ≠ .ok place →
    w'.files.find? place = w.files.find? place
  output : w'.output = w.output
  disk : w'.disk = w.disk
  touching : w'.touching = w.touching ++ [.started graphvizProgram]

/-- The file of a path holds the bytes of the text and nothing else, or else a device there has
taken them.  Nothing changed at any other place. -/
def Holds (path text : String) (w w' : World) : Prop :=
  ∃ place, w.files.locateNew path = .ok place ∧ Files.SameBut place w.files w'.files ∧
    match w.files.find? place with
    | some (.device answers) => ∃ d : Device,
        d = (Device.writeText text { answers, flushError := w.disk.flushError }).2 ∧
        d.written = writtenBytes text ∧ w'.files.find? place = some (.device d.answers)
    | _ => w'.files.read path = .ok (writtenBytes text)

/-- The text has gone to the file of a path.  Nothing was written to standard output or another
file, and no program was started. -/
structure Filed (path text : String) (w w' : World) : Prop where
  holds : Holds path text w w'
  output : w'.output = w.output
  children : w'.children = w.children
  touching : w'.touching = w.touching ++ [.createdFile path]

/-- Standard output has taken the bytes of the text, or a beginning of them if its reader is gone.
No file was written or created, and no program was started. -/
structure Shown (text : String) (w w' : World) : Prop where
  written : ∃ taken, taken <+: writtenBytes text ∧
    w'.output.written = w.output.written ++ taken ∧
    (taken = writtenBytes text ∨
      ∃ e, (w.output.writeText text).1 = .error e ∧ e.isBrokenPipe = true)
  files : w'.files = w.files
  disk : w'.disk = w.disk
  children : w'.children = w.children
  touching : w'.touching = w.touching

theorem drawn_of_ok {format : ImageFormat} {dot : String}
    (h : ((drawImage host graphvizProgram format path dot).run w).1 = .ok ()) :
    Drawn format path dot w ((drawImage host graphvizProgram format path dot).run w).2 := by
  obtain ⟨e, hrun⟩ | ⟨p, hp, hname, hrun⟩ := run_drawImage_cases w format path dot
  · rw [hrun] at h
    cases h
  · rw [hrun] at h ⊢
    exact
      { child := ⟨p, hp, hname, (judgeProgram_eq_ok_iff.mp h).1, rfl⟩
        files := fun place hplace => Program.leaves_other fun _ => hplace
        output := rfl
        disk := rfl
        touching := by simp [World.touching, Event.touches] }

/-- Writing to a file that was just created, or to a device, from a world with the same disk. -/
theorem holds_of_ok {w₁ : World} (hok : ((writeText (fileSink place) text).run.run w₁).1 = .ok ())
    (hplace : w.files.locateNew path = .ok place)
    (hcreated : Files.Created place w.files w₁.files) (hdisk : w₁.disk = w.disk) :
    KeptBut place w₁ ((writeText (fileSink place) text).run.run w₁).2 ∧
      Holds path text w ((writeText (fileSink place) text).run.run w₁).2 := by
  cases hcreated with
  | device found same =>
      have hstart : OnDevice place w₁ w₁ ⟨_, w.disk.flushError, [], 0⟩ :=
        ⟨KeptBut.refl place w₁, by rw [same, found], by rw [hdisk]⟩
      obtain ⟨htook, hafter⟩ := (follows_device place w₁).took text hstart
      rw [hok] at htook
      refine ⟨hafter.kept, place, hplace, same ▸ hafter.kept.files, ?_⟩
      rw [found]
      exact ⟨_, rfl, htook.written_of_ok, hafter.answers⟩
  | file free empty others =>
      have hstart : OnFile place w₁ w₁ ⟨w₁.disk.answers, w₁.disk.flushError, [], 0⟩ :=
        ⟨KeptBut.refl place w₁, empty, rfl, rfl⟩
      obtain ⟨htook, hafter⟩ := (follows_file place w₁).took text hstart
      rw [hok] at htook
      have hothers := others.trans hafter.kept.files
      have hcontent := hafter.content
      rw [htook.written_of_ok] at hcontent
      refine ⟨hafter.kept, place, hplace, hothers, ?_⟩
      split
      · rename_i answers hdevice
        exact absurd hdevice (free answers)
      · exact Files.read_written hplace hothers hcontent

theorem filed_of_ok (h : ((writeResult host (some path) text).run.run w).1 = .ok ()) :
    Filed path text w ((writeResult host (some path) text).run.run w).2 := by
  cases hcreate : w.files.create path with
  | error e =>
      rw [run_writeResult_of_error hcreate] at h
      cases h
  | ok created =>
      obtain ⟨place, files⟩ := created
      obtain ⟨hplace, hcreated⟩ := Files.create_eq_ok hcreate
      rw [run_writeResult hcreate] at h ⊢
      obtain ⟨hkept, hholds⟩ := holds_of_ok (mapError_eq_ok_iff.mp h) hplace hcreated rfl
      exact
        { holds := hholds
          output := hkept.output
          children := hkept.children
          touching := by simp [World.touching, hkept.events, Event.touches] }

theorem shown_of_ok (h : ((writeToOutput host text).run.run w).1 = .ok ()) :
    Shown text w ((writeToOutput host text).run.run w).2 := by
  rw [run_writeToOutput] at h ⊢
  obtain ⟨taken, hbegin, hwritten, hok⟩ := w.output.tookText_writeText text
  have hforgiven : forgiveBrokenPipe (w.output.writeText text).1 = .ok () :=
    mapError_eq_ok_iff.mp h
  refine
    { written := ⟨taken, hbegin, hwritten, ?_⟩
      files := rfl
      disk := rfl
      children := rfl
      touching := rfl }
  cases houtcome : (w.output.writeText text).1 with
  | ok => exact .inl (hok.mp houtcome).1
  | error e =>
      rw [houtcome, forgiveBrokenPipe] at hforgiven
      refine .inr ⟨e, rfl, ?_⟩
      by_contra hpipe
      rw [if_neg hpipe] at hforgiven
      cases hforgiven

/-! ### The last stage -/

theorem deliverResult_of_image_none {a : Args} (h : a.image = none) (text : String) :
    deliverResult host a text = writeResult host a.outputPath text := by
  unfold deliverResult
  rw [h]
  cases a.target <;> rfl

/-- An image is drawn, and nothing else: no text is written. -/
theorem deliverResult_of_image {m : Type → Type} [Monad m] (host : Host m) {a : Args}
    {format : ImageFormat} (htarget : a.target = .graph) (himage : a.image = some format)
    (hpath : a.outputPath = some path) (text : String) :
    deliverResult host a text = ExceptT.mk (do
      let outcome ← drawImage host graphvizProgram format path text
      return outcome.mapError .image) := by
  unfold deliverResult
  rw [htarget, himage, hpath]

theorem run_deliverResult_image {a : Args} {format : ImageFormat} (htarget : a.target = .graph)
    (himage : a.image = some format) (hpath : a.outputPath = some path) (text : String) :
    (deliverResult host a text).run.run w =
      let drawn := (drawImage host graphvizProgram format path text).run w
      (drawn.1.mapError .image, drawn.2) := by
  rw [deliverResult_of_image host htarget himage hpath]
  rfl

end World
end SyntaxInspector
