import SyntaxInspector.Graphviz
import SyntaxInspector.Proofs.Trimming
import SyntaxInspector.Proofs.Writing

/-! # What comes of drawing an image

A Graphviz program is started, is offered the graph and is waited for; then its outcome is judged.

* `judgeProgram_eq_ok_iff` and `judgeProgram_of_failure` say what is made of a program that has
  ended, `isBlankText_message_of_judgeProgram` that an error always has something to say.
* `run_drawImage_of_ok` follows the three steps on any host, whatever effects they have.
* `Behaviour` is all that a program can do in between: not start, take a beginning of its input or
  all of it, end in any way or not be found any more.  `drawImage_outcome` is the outcome for each
  behaviour, together with what has been done with the program. -/

namespace SyntaxInspector

open Text (isBlankText decodeLossy trim)

/-! ### Messages -/

theorem IoError.isBlankText_message (e : IoError) : isBlankText e.message = false := by
  cases e with
  | system number description => exact Text.isBlankText_append_of_right _ (by decide)
  | _ => decide

/-- Only a complaint of the program itself could be blank. -/
theorem DrawError.isBlankText_message {e : DrawError}
    (h : ∀ complaint, e = .complained complaint → isBlankText complaint = false) :
    isBlankText e.message = false := by
  -- The equations of `message` compare long texts and are slow to set up, so it is not unfolded.
  cases e with
  | complained complaint => exact h complaint rfl
  | lost cause => exact cause.isBlankText_message
  | notStarted program cause | notTaken program cause =>
      exact Text.isBlankText_append_of_right _ cause.isBlankText_message
  | failed program status =>
      have hexited : isBlankText "` exited with " = false := by decide
      exact Text.isBlankText_append_of_left (Text.isBlankText_append_of_right _ hexited) _

/-! ### Programs that have ended -/

section

variable {program : String} {given : Except IoError Unit} {ended : Ended}

theorem judgeProgram_eq_ok_iff :
    judgeProgram program given ended = .ok () ↔
      given = .ok () ∧ ended.status.isSuccess = true := by
  unfold judgeProgram
  split
  · rename_i hsuccess
    rcases given with cause | ⟨⟩ <;> simp [hsuccess]
  · rename_i hfailure
    dsimp only
    split <;> simp [hfailure]

/-- A program that fails is quoted, or else its status is named, whatever it has taken. -/
theorem judgeProgram_of_failure (h : ended.status.isSuccess = false) :
    judgeProgram program given ended = .error
      (if isBlankText (decodeLossy ended.errorOutput) then .failed program ended.status
        else .complained (trim (decodeLossy ended.errorOutput))) := by
  have hfailure : ¬ ended.status.isSuccess = true := Bool.eq_false_iff.mp h
  unfold judgeProgram
  rw [if_neg hfailure]
  simp only [String.isEmpty_iff, Text.trim_eq_empty_iff]
  split <;> rfl

-- What it says is a byte that begins no character, between blank characters.
example : judgeProgram "dot" (.error .closedPipe) ⟨.exited 1, [0x20, 0xFF, 0xE3, 0x80, 0x80]⟩ =
    .error (.complained "\uFFFD") := by decide

/-- If the program succeeds, it counts that it could not be given everything. -/
theorem judgeProgram_of_success {cause : IoError} (h : ended.status.isSuccess = true) :
    judgeProgram program (.error cause) ended = .error (.notTaken program cause) := by
  rw [judgeProgram, if_pos h]

theorem isBlankText_message_of_judgeProgram {e : DrawError}
    (h : judgeProgram program given ended = .error e) : isBlankText e.message = false := by
  refine DrawError.isBlankText_message ?_
  rintro complaint rfl
  cases hsuccess : ended.status.isSuccess with
  | true =>
      rcases given with cause | ⟨⟩
      · rw [judgeProgram_of_success hsuccess] at h
        cases h
      · rw [judgeProgram_eq_ok_iff.mpr ⟨rfl, hsuccess⟩] at h
        cases h
  | false =>
      rw [judgeProgram_of_failure hsuccess] at h
      split at h
      · cases h
      · rename_i hblank
        rw [Except.error.injEq, DrawError.complained.injEq] at h
        rw [← h]
        exact Text.isBlankText_trim (Bool.eq_false_iff.mpr hblank)

/-! ### Runs on a host -/

variable {σ : Type} {host : Host (StateM σ)} {format : ImageFormat} {output dot : String}
  {s s₁ s₂ s₃ : σ}

theorem run_drawImage_of_error {cause : IoError}
    (h : (host.startProgram program (imageArguments format output)).run.run s =
      (.error cause, s₁)) :
    (drawImage host program format output dot).run s =
      (.error (.notStarted program cause), s₁) := by
  unfold drawImage
  rw [run_bind_of_run h]
  rfl

/-- A program that is started is given the graph and waited for, whatever comes of the former. -/
theorem run_drawImage_of_ok {child : Child (StateM σ)} {waited : Except IoError Ended}
    (hstart : (host.startProgram program (imageArguments format output)).run.run s =
      (.ok child, s₁))
    (hfeed : (child.feed (Text.encode dot)).run.run s₁ = (given, s₂))
    (hwait : child.wait.run.run s₂ = (waited, s₃)) :
    (drawImage host program format output dot).run s =
      ((waited.mapError .lost).bind (judgeProgram program given), s₃) := by
  unfold drawImage
  rw [run_bind_of_run hstart]
  dsimp only
  rw [run_bind_of_run hfeed, run_bind_of_run hwait]
  cases waited <;> rfl

end

/-! ### Behaviours -/

/-- How a program behaves: whether it starts, how its standard input answers the calls that offer it
bytes, and what waiting for it comes to. -/
structure Behaviour where
  start : Except IoError Unit := .ok ()
  answers : List Answer := []
  ended : Except IoError Ended

namespace Behaviour

/-- Something that is done with a program. -/
inductive Event where
  | started (program : String) (arguments : List String)
  | offered (bytes : List UInt8)
  | waitedFor
  deriving DecidableEq, Repr

/-- All that has been done with a program so far. -/
structure Attempt where
  /-- Its standard input, and what the program has taken from there. -/
  input : Device
  events : List Event := []
  deriving DecidableEq, Repr

/-- Before anything is done. -/
def before (b : Behaviour) : Attempt where
  input := { answers := b.answers }

/-- The program while it runs. -/
def child (b : Behaviour) : Child (StateM Attempt) where
  feed bytes := ExceptT.mk fun a =>
    let (outcome, input) := a.input.write bytes
    (outcome, { a with input, events := a.events ++ [.offered bytes] })
  wait := ExceptT.mk fun a => (b.ended, { a with events := a.events ++ [.waitedFor] })

/-- A host on which all programs behave like this. -/
def on (b : Behaviour) (host : Host (StateM Attempt)) : Host (StateM Attempt) :=
  { host with
    startProgram := fun program arguments => ExceptT.mk fun a =>
      match b.start with
      | .error cause => (.error cause, a)
      | .ok () => (.ok b.child, { a with events := a.events ++ [.started program arguments] }) }

/-- After the program was started, was offered an input and was waited for. -/
def after (b : Behaviour) (program : String) (arguments : List String) (input : List UInt8) :
    Attempt where
  input := (b.before.input.write input).2
  events := [.started program arguments, .offered input, .waitedFor]

/-- What is made of a program that behaves so and is to be given an input, and what has been done
with it by then. -/
structure IsJudged (b : Behaviour) (program : String) (arguments : List String)
    (input : List UInt8) (outcome : Except DrawError Unit) (after : Attempt) : Prop where
  /-- All is well if the program starts, takes the whole input and ends with success, and only
  then. -/
  ok_iff : outcome = .ok () ↔
    b.start = .ok () ∧ after.input.written = input ∧
      ∃ ended, b.ended = .ok ended ∧ ended.status.isSuccess = true
  /-- Otherwise there is something to say. -/
  message : ∀ e, outcome = .error e → isBlankText e.message = false
  /-- Nothing is done with a program that does not start. -/
  notStarted : ∀ cause, b.start = .error cause →
    outcome = .error (.notStarted program cause) ∧ after = b.before
  /-- A program that starts is offered its input, of which it takes a beginning, and then it is
  waited for, whatever has become of the offer. -/
  waitedFor : b.start = .ok () →
    after.events = [.started program arguments, .offered input, .waitedFor] ∧
      after.input.written <+: input
  /-- Waiting for it may fail. -/
  lost : b.start = .ok () → ∀ cause, b.ended = .error cause → outcome = .error (.lost cause)
  /-- If the program fails, its own words are the message, if it has any, and otherwise its status
  is named; it makes no difference whether it has taken the input. -/
  failed : b.start = .ok () → ∀ ended, b.ended = .ok ended → ended.status.isSuccess = false →
    ∃ e, outcome = .error e ∧ e.message =
      if isBlankText (decodeLossy ended.errorOutput) then
        "`" ++ program ++ "` exited with " ++ ended.status.describe
      else trim (decodeLossy ended.errorOutput)
  /-- If it succeeds, a failure to give it the whole input counts. -/
  notTaken : b.start = .ok () → ∀ ended cause, b.ended = .ok ended →
    ended.status.isSuccess = true → (b.before.input.write input).1 = .error cause →
      outcome = .error (.notTaken program cause)

/-- Of its input the program takes a beginning, and all of it if that goes well. -/
theorem written_isPrefix_and_ok_iff (b : Behaviour) (input : List UInt8) :
    (b.before.input.write input).2.written <+: input ∧
      ((b.before.input.write input).1 = .ok () ↔
        (b.before.input.write input).2.written = input) := by
  obtain ⟨taken, hbegin, hwritten, hok⟩ := (Device.took_write b.before.input input).taken
  have htaken : (b.before.input.write input).2.written = taken := hwritten
  rw [htaken]
  exact ⟨hbegin, hok⟩

variable {b : Behaviour} {program : String} {arguments : List String} {input : List UInt8}

theorem isJudged_of_error {cause : IoError} (h : b.start = .error cause) :
    b.IsJudged program arguments input (.error (.notStarted program cause)) b.before where
  ok_iff := by simp [h]
  message e he := by
    cases he
    exact DrawError.isBlankText_message nofun
  notStarted cause' h' := by
    rw [h, Except.error.injEq] at h'
    exact ⟨by rw [h'], rfl⟩
  waitedFor := by simp [h]
  lost := by simp [h]
  failed := by simp [h]
  notTaken := by simp [h]

theorem isJudged_of_lost {cause : IoError} (hstart : b.start = .ok ())
    (hended : b.ended = .error cause) :
    b.IsJudged program arguments input (.error (.lost cause))
      (b.after program arguments input) where
  ok_iff := by simp [hended]
  message e he := by
    cases he
    exact DrawError.isBlankText_message nofun
  notStarted := by simp [hstart]
  waitedFor _ := ⟨rfl, (b.written_isPrefix_and_ok_iff input).1⟩
  lost _ cause' h := by
    rw [hended, Except.error.injEq] at h
    rw [h]
  failed := by simp [hended]
  notTaken := by simp [hended]

theorem isJudged_of_ended {ended : Ended} (hstart : b.start = .ok ())
    (hended : b.ended = .ok ended) :
    b.IsJudged program arguments input
      (judgeProgram program (b.before.input.write input).1 ended)
      (b.after program arguments input) where
  ok_iff := by
    rw [judgeProgram_eq_ok_iff, (b.written_isPrefix_and_ok_iff input).2]
    simp [hstart, hended, after]
  message _ := isBlankText_message_of_judgeProgram
  notStarted := by simp [hstart]
  waitedFor _ := ⟨rfl, (b.written_isPrefix_and_ok_iff input).1⟩
  lost := by simp [hended]
  failed _ ended' h hfailure := by
    rw [hended, Except.ok.injEq] at h
    subst h
    refine ⟨_, judgeProgram_of_failure hfailure, ?_⟩
    split <;> rfl
  notTaken _ ended' cause h hsuccess hwrite := by
    rw [hended, Except.ok.injEq] at h
    subst h
    rw [hwrite, judgeProgram_of_success hsuccess]

variable {host : Host (StateM Attempt)}

theorem run_startProgram_of_error {cause : IoError} (h : b.start = .error cause) (a : Attempt) :
    ((b.on host).startProgram program arguments).run.run a = (.error cause, a) := by
  simp only [on, ExceptT.run_mk, StateT.run, h]

theorem run_startProgram_of_ok (h : b.start = .ok ()) (a : Attempt) :
    ((b.on host).startProgram program arguments).run.run a =
      (.ok b.child, { a with events := a.events ++ [.started program arguments] }) := by
  simp only [on, ExceptT.run_mk, StateT.run, h]

/-- **What comes of drawing an image.**  However the program behaves, there is an image if and only
if the program started, took the whole graph and ended with success.  In every other case there is
an error with a message that is not blank.  A failure of the program comes before a failure to give
it the graph; its message is what the program said, trimmed, or its status if that is blank.  Once
started, the program has been waited for in any case. -/
theorem drawImage_outcome (b : Behaviour) (host : Host (StateM Attempt)) (program : String)
    (format : ImageFormat) (output dot : String) :
    let ran := (drawImage (b.on host) program format output dot).run b.before
    b.IsJudged program (imageArguments format output) (Text.encode dot) ran.1 ran.2 := by
  intro ran
  cases hstart : b.start with
  | error cause =>
      have hran : ran = (.error (.notStarted program cause), b.before) :=
        run_drawImage_of_error (run_startProgram_of_error hstart b.before)
      rw [hran]
      exact isJudged_of_error hstart
  | ok =>
      have hran : ran = ((b.ended.mapError .lost).bind
            (judgeProgram program (b.before.input.write (Text.encode dot)).1),
          b.after program (imageArguments format output) (Text.encode dot)) :=
        run_drawImage_of_ok (run_startProgram_of_ok hstart b.before) rfl rfl
      rw [hran]
      cases hended : b.ended with
      | error cause => exact isJudged_of_lost hstart hended
      | ok ended => exact isJudged_of_ended hstart hended

end Behaviour

end SyntaxInspector
