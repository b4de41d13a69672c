import SyntaxInspector.Proofs.Writing
import SyntaxInspector.Run

/-! # How writing a text fails

A text is written in up to three steps: the text is offered, then the line break if one is added,
and then the device is flushed.  The first step that fails decides the outcome.

* `WritesText` is writing a text to any writer, step by step; `Device.writeText_of_writesText` says
  that this is what writing to a device does.
* `Device.FailsWith` names the step and its error, call by call, and `Device.writeText_eq_error_iff`
  says that writing fails in this way and in no other.
* `run_writeToOutput_device` says what writing to standard output makes of the outcome.
* `Device.written_and_outcome` says for every device what of a text arrives, and how writing ends.
  Devices stand for all writers in this: for each there is a device that takes a text alike
  (`WritesText.exists_device`).
* `Device.writeText_limited` says how much of a text arrives where room is limited. -/

namespace SyntaxInspector

/-- The text with a line break at its end. -/
def withNewline (text : String) : String := if endsWithNewline text then text else text ++ "\n"

theorem writtenBytes_eq (text : String) : writtenBytes text = Text.encode (withNewline text) := by
  unfold writtenBytes addedNewline withNewline
  split
  · rw [List.append_nil]
  · rw [Text.encode_append]

/-! ### The steps of writing a text -/

/-- Writing the text to a writer in some state, `flushes` being the outcome of a flush: what the
writer takes of the text with its line break, and how writing ends. -/
inductive WritesText {σ : Type} (call : σ → List UInt8 → Reply × σ)
    (flushes : σ → Except IoError Unit) (s : σ) (text : String) :
    List UInt8 → Except IoError Unit → Prop
  | inText {s' : σ} {taken : List UInt8} {e : IoError}
      (htext : Offered call s (Text.encode text) taken (.error e) s') :
      WritesText call flushes s text taken (.error e)
  | inNewline {s₁ s' : σ} {taken : List UInt8} {e : IoError}
      (htext : Offered call s (Text.encode text) (Text.encode text) (.ok ()) s₁)
      (hnewline : Offered call s₁ (addedNewline text) taken (.error e) s') :
      WritesText call flushes s text (Text.encode text ++ taken) (.error e)
  | flushed {s₁ s' : σ}
      (htext : Offered call s (Text.encode text) (Text.encode text) (.ok ()) s₁)
      (hnewline : Offered call s₁ (addedNewline text) (addedNewline text) (.ok ()) s') :
      WritesText call flushes s text (writtenBytes text) (flushes s')

namespace Device

variable {d : Device} {text : String} {e : IoError} {bytes taken : List UInt8}
  {outcome : Except IoError Unit} {left : List Answer}

theorem write_of_offered (h : Offered replyTo d.answers bytes taken outcome left) :
    d.write bytes = (outcome, { d with answers := left, written := d.written ++ taken }) := by
  rw [write, offered_iff.mp h]

/-- A device keeps what it takes of the text behind what it has taken before. -/
theorem writeText_of_writesText
    (h : WritesText replyTo (fun _ => d.flush.1) d.answers text taken outcome) :
    (d.writeText text).1 = outcome ∧ (d.writeText text).2.written = d.written ++ taken := by
  rw [writeText_eq]
  cases h with
  | inText htext =>
      rw [write_of_offered htext]
      exact ⟨rfl, rfl⟩
  | inNewline htext hnewline | flushed htext hnewline =>
      rw [write_of_offered htext]
      dsimp only
      rw [write_of_offered hnewline]
      exact ⟨rfl, List.append_assoc _ _ _⟩

/-- A device takes every text in one of these ways. -/
theorem exists_writesText (d : Device) (text : String) :
    ∃ taken outcome, WritesText replyTo (fun _ => d.flush.1) d.answers text taken outcome := by
  rcases exists_offered d.answers (Text.encode text) with ⟨left, htext⟩ | ⟨taken, e, left, htext⟩
  · rcases exists_offered left (addedNewline text) with
      ⟨left', hnewline⟩ | ⟨taken, e, left', hnewline⟩
    · exact ⟨_, _, .flushed htext hnewline⟩
    · exact ⟨_, _, .inNewline htext hnewline⟩
  · exact ⟨_, _, .inText htext⟩

/-- Writing the text fails with this error: in the offer of the text, in that of the line break
behind all of the text, or in the flush behind both. -/
inductive FailsWith (d : Device) (text : String) (e : IoError) : Prop
  | inText {taken : List UInt8} {left : List Answer}
      (htext : Offered replyTo d.answers (Text.encode text) taken (.error e) left)
  | inNewline {taken : List UInt8} {left left' : List Answer}
      (htext : Offered replyTo d.answers (Text.encode text) (Text.encode text) (.ok ()) left)
      (hnewline : Offered replyTo left (addedNewline text) taken (.error e) left')
  | inFlush {left left' : List Answer}
      (htext : Offered replyTo d.answers (Text.encode text) (Text.encode text) (.ok ()) left)
      (hnewline : Offered replyTo left (addedNewline text) (addedNewline text) (.ok ()) left')
      (hflush : d.flushError = some e)

theorem flush_eq_error_iff : d.flush.1 = .error e ↔ d.flushError = some e := by
  cases hflush : d.flushError <;> simp [flush, hflush]

theorem writeText_of_failsWith (h : d.FailsWith text e) : (d.writeText text).1 = .error e := by
  cases h with
  | inText htext => exact (writeText_of_writesText (.inText htext)).1
  | inNewline htext hnewline => exact (writeText_of_writesText (.inNewline htext hnewline)).1
  | inFlush htext hnewline hflush =>
      rw [(writeText_of_writesText (.flushed htext hnewline)).1]
      exact flush_eq_error_iff.mpr hflush

theorem writeText_eq_error_iff : (d.writeText text).1 = .error e ↔ d.FailsWith text e := by
  refine ⟨fun h => ?_, writeText_of_failsWith⟩
  obtain ⟨taken, outcome, hwrites⟩ := d.exists_writesText text
  have hended : outcome = .error e := (writeText_of_writesText hwrites).1.symm.trans h
  cases hwrites with
  | inText htext =>
      cases hended
      exact .inText htext
  | inNewline htext hnewline =>
      cases hended
      exact .inNewline htext hnewline
  | flushed htext hnewline => exact .inFlush htext hnewline (flush_eq_error_iff.mp hended)

end Device

/-! ### Standard output -/

theorem forgiveBrokenPipe_eq_ok_iff {outcome : Except IoError Unit} :
    forgiveBrokenPipe outcome = .ok () ↔
      outcome = .ok () ∨ ∃ e, outcome = .error e ∧ e.isBrokenPipe = true := by
  cases outcome with
  | ok _ => simp [forgiveBrokenPipe]
  | error e => cases he : e.isBrokenPipe <;> simp [forgiveBrokenPipe, he]

theorem forgiveBrokenPipe_eq_error_iff {outcome : Except IoError Unit} {e : IoError} :
    forgiveBrokenPipe outcome = .error e ↔ outcome = .error e ∧ e.isBrokenPipe = false := by
  cases outcome with
  | ok _ => simp [forgiveBrokenPipe]
  | error e' =>
      cases he : e'.isBrokenPipe
      · simp only [forgiveBrokenPipe, he, Bool.false_eq_true, if_false, Except.error.injEq]
        exact ⟨fun h => ⟨h, h ▸ he⟩, fun h => h.1⟩
      · simp only [forgiveBrokenPipe, he, if_true, reduceCtorEq, Except.error.injEq, false_iff,
          not_and]
        rintro rfl
        simp [he]

/-- What is written to a device as standard output. -/
theorem run_writeToOutput_device (host : Host (StateM Device)) (text : String) (d : Device) :
    (writeToOutput { host with standardOutput := Device.sink } text).run.run d =
      ((forgiveBrokenPipe (d.writeText text).1).mapError (.output standardOutputName),
        (d.writeText text).2) := by
  rw [writeToOutput, run_adapt, run_writeStandard]
  rfl

namespace Device

/-- **What of a text arrives, and how writing it ends.**  A device takes a beginning of the text
with its line break.  Writing succeeds if and only if the device takes all of it and can be flushed,
and fails with the error of the first step that fails.  On standard output it succeeds if this is a
broken pipe, too, and any other error is reported with the name of standard output. -/
theorem written_and_outcome (text : String) (d : Device) :
    ∃ taken, (d.writeText text).2.written = d.written ++ taken ∧
      taken <+: Text.encode (withNewline text) ∧
      ((d.writeText text).1 = .ok () ↔
        taken = Text.encode (withNewline text) ∧ d.flushError = none) ∧
      (∀ e, (d.writeText text).1 = .error e ↔ d.FailsWith text e) ∧
      ∀ host : Host (StateM Device),
        let standard := (writeToOutput { host with standardOutput := sink } text).run.run d
        standard.2 = (d.writeText text).2 ∧
          (standard.1 = .ok () ↔
            (taken = Text.encode (withNewline text) ∧ d.flushError = none) ∨
              ∃ e, d.FailsWith text e ∧ e.isBrokenPipe = true) ∧
          ∀ fault, standard.1 = .error fault ↔
            ∃ e, d.FailsWith text e ∧ e.isBrokenPipe = false ∧ fault = .output "<stdout>" e := by
  obtain ⟨taken, hbegin, hwritten, hok⟩ := d.tookText_writeText text
  rw [writtenBytes_eq] at hbegin hok
  refine ⟨taken, hwritten, hbegin, hok, fun e => writeText_eq_error_iff, fun host => ?_⟩
  intro standard
  have hstandard : standard = _ := run_writeToOutput_device host text d
  rw [hstandard]
  refine ⟨rfl, ?_, fun fault => ?_⟩
  · rw [mapError_eq_ok_iff, forgiveBrokenPipe_eq_ok_iff, hok]
    simp only [writeText_eq_error_iff]
  · rw [mapError_eq_error_iff]
    simp only [forgiveBrokenPipe_eq_error_iff, writeText_eq_error_iff, and_assoc]
    rfl

end Device

/-! ### Devices for writers -/

namespace WritesText

variable {σ : Type} {call : σ → List UInt8 → Reply × σ} {flushes : σ → Except IoError Unit} {s : σ}
  {text : String} {taken : List UInt8} {outcome : Except IoError Unit}

/-- **Devices stand for all writers.**  Whatever a writer does with a text, there is a device with a
script that takes the same bytes of it, and from which writing the text ends in the same way. -/
theorem exists_device (h : WritesText call flushes s text taken outcome) :
    ∃ d : Device, d.written = [] ∧ (d.writeText text).1 = outcome ∧
      (d.writeText text).2.written = taken := by
  have hscript : ∃ d : Device, d.written = [] ∧
      WritesText replyTo (fun _ => d.flush.1) d.answers text taken outcome := by
    cases h with
    | inText htext =>
        obtain ⟨answers, hanswers⟩ := htext.exists_answers
        obtain ⟨left, hdeliver, -⟩ := hanswers []
        exact ⟨{ answers := answers ++ [] }, rfl, .inText (offered_iff.mpr hdeliver)⟩
    | inNewline htext hnewline =>
        obtain ⟨answers, left, left', htext', hnewline'⟩ := htext.exists_answers_append hnewline
        exact ⟨{ answers }, rfl, .inNewline htext' hnewline'⟩
    | @flushed s₁ s' htext hnewline =>
        obtain ⟨answers, left, left', htext', hnewline'⟩ := htext.exists_answers_append hnewline
        rcases flushes s' with e | ⟨⟩
        · exact ⟨{ answers, flushError := some e }, rfl, .flushed htext' hnewline'⟩
        · exact ⟨{ answers }, rfl, .flushed htext' hnewline'⟩
  obtain ⟨d, hempty, h'⟩ := hscript
  obtain ⟨houtcome, hwritten⟩ := Device.writeText_of_writesText h'
  rw [hempty, List.nil_append] at hwritten
  exact ⟨d, hempty, houtcome, hwritten⟩

/-- So every writer takes a beginning of the text with its line break, and all of it if writing
succeeds. -/
theorem isPrefix_and_eq_of_ok (h : WritesText call flushes s text taken outcome) :
    taken <+: Text.encode (withNewline text) ∧
      (outcome = .ok () → taken = Text.encode (withNewline text)) := by
  obtain ⟨d, hempty, rfl, rfl⟩ := h.exists_device
  obtain ⟨taken, hbegin, hwritten, hok⟩ := d.tookText_writeText text
  rw [writtenBytes_eq] at hbegin hok
  rw [hwritten, hempty, List.nil_append]
  exact ⟨hbegin, fun houtcome => (hok.mp houtcome).1⟩

end WritesText

/-! ### Devices with limited room -/

namespace Device

variable {room : Nat} {e : IoError} {answers : List Answer} {bytes : List UInt8}

/-- These are the answers of a device that has room for so many bytes and then fails.  It may
interrupt some calls before, and take the bytes in calls of some size. -/
inductive HasRoom (room : Nat) (e : IoError) : List Answer → Prop
  | intro (interrupts : Nat) {chunk : Option Nat} (hchunk : chunk ≠ some 0) :
      HasRoom room e (List.replicate interrupts .interrupted ++
        [.accepts chunk (some room), .failed e])

/-- What fits is taken, and takes its room. -/
theorem HasRoom.offered_of_le (h : HasRoom room e answers) (hle : bytes.length ≤ room) :
    ∃ left, HasRoom (room - bytes.length) e left ∧
      Offered replyTo answers bytes bytes (.ok ()) left := by
  obtain @⟨interrupts, chunk, hchunk⟩ := h
  by_cases hbytes : bytes = []
  · subst hbytes
    exact ⟨_, .intro interrupts hchunk, .done _⟩
  · refine ⟨_, .intro 0 hchunk, offered_replicate_interrupted hbytes ?_ interrupts⟩
    rw [List.replicate_zero, List.nil_append]
    have hoffer : Offered replyTo [.accepts chunk (some room), .failed e] bytes
        (bytes.take room ++ []) (.ok ())
        [.accepts chunk (some (room - bytes.length)), .failed e] := by
      refine offered_accepts hchunk ?_
      rw [List.drop_of_length_le hle]
      exact .done _
    rwa [List.take_of_length_le hle, List.append_nil] at hoffer

/-- Of what does not fit a beginning is taken that fills the room. -/
theorem HasRoom.offered_of_lt (h : HasRoom room e answers) (hlt : room < bytes.length) :
    ∃ left, Offered replyTo answers bytes (bytes.take room) (.error e) left := by
  obtain ⟨interrupts, hchunk⟩ := h
  have hbytes : bytes ≠ [] := List.length_pos_iff.mp (by omega)
  have hdrop : bytes.drop room ≠ [] := mt List.drop_eq_nil_iff.mp (by omega)
  refine ⟨[], offered_replicate_interrupted hbytes ?_ interrupts⟩
  rw [← List.append_nil (bytes.take room)]
  refine offered_accepts hchunk ?_
  rw [Nat.sub_eq_zero_of_le hlt.le]
  exact .failed hdrop rfl

/-- Of a text as much is taken as there is room for, whether it is the text or its line break that
does not fit. -/
theorem HasRoom.writesText (h : HasRoom room e answers) (text : String)
    (flushed : Except IoError Unit) :
    WritesText replyTo (fun _ => flushed) answers text ((writtenBytes text).take room)
      (if (writtenBytes text).length ≤ room then flushed else .error e) := by
  have hlength : (writtenBytes text).length =
      (Text.encode text).length + (addedNewline text).length := List.length_append
  have htake : (writtenBytes text).take room = (Text.encode text).take room ++
      (addedNewline text).take (room - (Text.encode text).length) := List.take_append
  by_cases htext : (Text.encode text).length ≤ room
  · obtain ⟨left, hleft, hoffer⟩ := h.offered_of_le htext
    rw [htake, List.take_of_length_le htext]
    by_cases hnewline : (addedNewline text).length ≤ room - (Text.encode text).length
    · obtain ⟨left', -, hoffer'⟩ := hleft.offered_of_le hnewline
      rw [if_pos (by omega), List.take_of_length_le hnewline]
      exact .flushed hoffer hoffer'
    · obtain ⟨left', hoffer'⟩ := hleft.offered_of_lt (Nat.lt_of_not_le hnewline)
      rw [if_neg (by omega)]
      exact .inNewline hoffer hoffer'
  · obtain ⟨left, hoffer⟩ := h.offered_of_lt (Nat.lt_of_not_le htext)
    rw [if_neg (by omega), htake, Nat.sub_eq_zero_of_le (Nat.le_of_not_le htext), List.take_zero,
      List.append_nil]
    exact .inText hoffer

/-- **What arrives where room is limited.**  A device with limited room takes as much of a text with
its line break as fits, whatever it interrupts and in calls of whatever size.  Writing ends with the
error of the device if not all of it fits, and with the outcome of the flush otherwise. -/
theorem writeText_limited (interrupts : Nat) {chunk : Option Nat} (hchunk : chunk ≠ some 0)
    (room : Nat) (e : IoError) (flushError : Option IoError) (text : String) :
    let d := limited interrupts chunk (some room) (.failed e) flushError
    (d.writeText text).2.written = (Text.encode (withNewline text)).take room ∧
      (d.writeText text).1 =
        if (Text.encode (withNewline text)).length ≤ room then d.flush.1 else .error e := by
  intro d
  have hroom : HasRoom room e d.answers := .intro interrupts hchunk
  obtain ⟨houtcome, hwritten⟩ := writeText_of_writesText (hroom.writesText text d.flush.1)
  rw [writtenBytes_eq] at houtcome hwritten
  exact ⟨hwritten, houtcome⟩

/-- Standard output without room for all of a text is reported, even if some of it arrives. -/
theorem report_writeToOutput_full (host : Host (StateM Device)) {text : String} {room : Nat}
    (hroom : room < (Text.encode (withNewline text)).length) (interrupts : Nat)
    {chunk : Option Nat} (hchunk : chunk ≠ some 0) (flushError : Option IoError) :
    let d := limited interrupts chunk (some room) (.failed .noSpace) flushError
    ((writeToOutput { host with standardOutput := sink } text).run.run d).1.mapError
        RunError.report =
      .error "Error: failed to write <stdout>: No space left on device (os error 28)\n" := by
  intro d
  have houtcome : (d.writeText text).1 = .error .noSpace := by
    rw [(writeText_limited interrupts hchunk room .noSpace flushError text).2,
      if_neg (Nat.not_le_of_lt hroom)]
  rw [run_writeToOutput_device, houtcome]
  rfl

end Device
end SyntaxInspector
