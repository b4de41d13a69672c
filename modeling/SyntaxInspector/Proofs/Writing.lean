import SyntaxInspector.Proofs.Offers
import SyntaxInspector.Proofs.Outcomes

/-! # What arrives of a text

A device takes what it is offered from the beginning on and never twice, and an offer succeeds if
and only if everything was taken.  So what arrives of a text is a beginning of its bytes with the
line break, and all of them if writing succeeds.

* `Device.Took` says so of bytes written to a device, each a single offer;
* `writtenBytes` are the bytes of a text with a line break at its end, and
  `Device.tookText_writeText` says what writing a text does to a device;
* `Sink.Follows` says that writing somewhere is like writing to a device, and
  `Sink.Follows.writeText` carries this over to texts. -/

namespace SyntaxInspector

/-! ### Devices -/

namespace Device

variable {d d' d'' : Device} {bytes bytes' : List UInt8} {outcome outcome' : Except IoError Unit}

/-- Of some bytes the device has taken a beginning, and all of them if that went well. -/
structure Took (d : Device) (bytes : List UInt8) (outcome : Except IoError Unit) (d' : Device) :
    Prop where
  flushError : d'.flushError = d.flushError
  taken : ∃ taken, taken <+: bytes ∧ d'.written = d.written ++ taken ∧
    (outcome = .ok () ↔ taken = bytes)

theorem took_write (d : Device) (bytes : List UInt8) :
    d.Took bytes (d.write bytes).1 (d.write bytes).2 := by
  obtain ⟨hbegin, hok⟩ := (deliver_offered d.answers bytes).isPrefix_and_ok_iff
  exact ⟨rfl, _, hbegin, rfl, hok⟩

theorem Took.written_of_ok (h : d.Took bytes (.ok ()) d') : d'.written = d.written ++ bytes := by
  obtain ⟨taken, -, hwritten, hok⟩ := h.taken
  rw [hwritten, hok.mp rfl]

/-- Bytes behind bytes that were all taken. -/
theorem Took.append (h : d.Took bytes (.ok ()) d') (h' : d'.Took bytes' outcome d'') :
    d.Took (bytes ++ bytes') outcome d'' := by
  obtain ⟨taken, hbegin, hwritten, hok⟩ := h'.taken
  refine ⟨h'.flushError.trans h.flushError, bytes ++ taken, ?_, ?_, ?_⟩
  · exact (List.prefix_append_right_inj bytes).mpr hbegin
  · rw [hwritten, h.written_of_ok, List.append_assoc]
  · rw [List.append_cancel_left_eq]
    exact hok

/-- Bytes that nobody offered, since those before them were not all taken. -/
theorem Took.append_of_error {e : IoError} (h : d.Took bytes (.error e) d')
    (bytes' : List UInt8) : d.Took (bytes ++ bytes') (.error e) d' := by
  obtain ⟨taken, hbegin, hwritten, hok⟩ := h.taken
  refine ⟨h.flushError, taken, hbegin.trans (List.prefix_append bytes bytes'), hwritten, ?_⟩
  refine ⟨nofun, fun htaken => ?_⟩
  -- All of both would be no more than the first.
  have hlength := hbegin.length_le
  rw [htaken, List.length_append] at hlength
  have hnil : bytes' = [] := List.length_eq_zero_iff.mp (by omega)
  rw [hnil, List.append_nil] at htaken
  exact hok.mpr htaken

end Device

/-! ### Texts -/

/-- The line break that is added to a text. -/
def addedNewline (text : String) : List UInt8 :=
  if endsWithNewline text then [] else Text.encode "\n"

/-- The bytes of a text with a line break at its end. -/
def writtenBytes (text : String) : List UInt8 := Text.encode text ++ addedNewline text

/-- A text is written in up to three steps; the first that fails is the last. -/
theorem run_writeText {σ : Type} (sink : Sink (StateM σ)) (text : String) (s : σ) :
    (writeText sink text).run.run s = match (sink.writeAll (Text.encode text)).run.run s with
      | (.error e, s₁) => (.error e, s₁)
      | (.ok (), s₁) =>
        if endsWithNewline text then sink.flush.run.run s₁
        else match (sink.writeAll (Text.encode "\n")).run.run s₁ with
          | (.error e, s₂) => (.error e, s₂)
          | (.ok (), s₂) => sink.flush.run.run s₂ := by
  unfold writeText
  rw [run_bind]
  rcases (sink.writeAll (Text.encode text)).run.run s with ⟨e | ⟨⟩, s₁⟩
  · rfl
  · dsimp only
    split
    · rfl
    · rw [run_bind]
      rcases (sink.writeAll (Text.encode "\n")).run.run s₁ with ⟨e | ⟨⟩, s₂⟩ <;> rfl

/-- On standard output a broken pipe is forgiven. -/
theorem run_writeStandard {σ : Type} (sink : Sink (StateM σ)) (text : String) (s : σ) :
    (writeStandard sink text).run.run s =
      (forgiveBrokenPipe ((writeText sink text).run.run s).1,
        ((writeText sink text).run.run s).2) := rfl

namespace Device

variable {d d' : Device}

/-- What writing a text to a device comes to: an outcome, and the device after it. -/
def writeText (text : String) (d : Device) : Except IoError Unit × Device :=
  (SyntaxInspector.writeText sink text).run.run d

/-- Of the bytes of a text the device has taken a beginning; that went well if and only if it has
taken all of them and can be flushed. -/
def TookText (d : Device) (text : String) (outcome : Except IoError Unit) (d' : Device) : Prop :=
  ∃ taken, taken <+: writtenBytes text ∧ d'.written = d.written ++ taken ∧
    (outcome = .ok () ↔ taken = writtenBytes text ∧ d.flushError = none)

theorem Took.flush {text : String} (h : d.Took (writtenBytes text) (.ok ()) d') :
    d.TookText text d'.flush.1 d'.flush.2 := by
  have hflush : d'.flush.1 = .ok () ↔ d'.flushError = none := by
    cases hd : d'.flushError <;> simp [Device.flush, hd]
  refine ⟨writtenBytes text, List.prefix_refl _, h.written_of_ok, ?_⟩
  rw [hflush, h.flushError]
  simp

theorem Took.failed {text : String} {e : IoError} (h : d.Took (writtenBytes text) (.error e) d') :
    d.TookText text (.error e) d' := by
  obtain ⟨taken, hbegin, hwritten, hok⟩ := h.taken
  refine ⟨taken, hbegin, hwritten, ?_⟩
  rw [← hok]
  simp

theorem TookText.written_of_ok {text : String} (h : d.TookText text (.ok ()) d') :
    d'.written = d.written ++ writtenBytes text := by
  obtain ⟨taken, -, hwritten, hok⟩ := h
  rw [hwritten, (hok.mp rfl).1]

/-- To write nothing changes nothing. -/
theorem write_nil (d : Device) : d.write [] = (.ok (), d) := by
  simp [write, deliver]

/-- A text is written in three steps, though there may be no line break to add. -/
theorem writeText_eq (text : String) (d : Device) :
    d.writeText text = match d.write (Text.encode text) with
      | (.error e, d₁) => (.error e, d₁)
      | (.ok (), d₁) => match d₁.write (addedNewline text) with
        | (.error e, d₂) => (.error e, d₂)
        | (.ok (), d₂) => d₂.flush := by
  have hwrite : ∀ bytes (d : Device), (sink.writeAll bytes).run.run d = d.write bytes :=
    fun _ _ => rfl
  rw [writeText, run_writeText, hwrite]
  rcases d.write (Text.encode text) with ⟨e | ⟨⟩, d₁⟩
  · rfl
  · dsimp only
    by_cases hend : endsWithNewline text = true
    · rw [addedNewline, if_pos hend, if_pos hend, write_nil]
      rfl
    · rw [addedNewline, if_neg hend, if_neg hend, hwrite]
      rcases d₁.write (Text.encode "\n") with ⟨e | ⟨⟩, d₂⟩ <;> rfl

/-- This is what writing a text does. -/
theorem tookText_writeText (text : String) (d : Device) :
    d.TookText text (d.writeText text).1 (d.writeText text).2 := by
  have hfirst := d.took_write (Text.encode text)
  rw [writeText_eq]
  rcases hwrite : d.write (Text.encode text) with ⟨e | ⟨⟩, d₁⟩
  · rw [hwrite] at hfirst
    exact (hfirst.append_of_error (addedNewline text)).failed
  · rw [hwrite] at hfirst
    have hsecond := hfirst.append (d₁.took_write (addedNewline text))
    dsimp only
    rcases hwrite' : d₁.write (addedNewline text) with ⟨e | ⟨⟩, d₂⟩
    · rw [hwrite'] at hsecond
      exact hsecond.failed
    · rw [hwrite'] at hsecond
      exact hsecond.flush

end Device

/-! ### Sinks -/

variable {σ α β : Type}

/-- From like states two computations come to the same outcome, and to like states. -/
def Simulates (like : σ → Device → Prop) (x : ExceptT IoError (StateM σ) α)
    (y : ExceptT IoError (StateM Device) α) : Prop :=
  ∀ ⦃s d⦄, like s d → (x.run.run s).1 = (y.run.run d).1 ∧ like (x.run.run s).2 (y.run.run d).2

theorem Simulates.bind {like : σ → Device → Prop} {x : ExceptT IoError (StateM σ) α}
    {y : ExceptT IoError (StateM Device) α} {f : α → ExceptT IoError (StateM σ) β}
    {g : α → ExceptT IoError (StateM Device) β} (hx : Simulates like x y)
    (hf : ∀ a, Simulates like (f a) (g a)) : Simulates like (x >>= f) (y >>= g) := by
  intro s d hs
  obtain ⟨houtcome, hlike⟩ := hx hs
  rw [run_bind, run_bind]
  rcases hxs : x.run.run s with ⟨outcome, s₁⟩
  rcases hyd : y.run.run d with ⟨outcome', d₁⟩
  rw [hxs, hyd] at houtcome hlike
  obtain rfl : outcome = outcome' := houtcome
  cases outcome with
  | error e => exact ⟨rfl, hlike⟩
  | ok a => exact hf a hlike

/-- Writing to the sink is like writing to a device, as the relation tells. -/
structure Sink.Follows (sink : Sink (StateM σ)) (like : σ → Device → Prop) : Prop where
  writeAll : ∀ bytes, Simulates like (sink.writeAll bytes) (Device.sink.writeAll bytes)
  flush : Simulates like sink.flush Device.sink.flush

/-- So is writing a text. -/
theorem Sink.Follows.writeText {sink : Sink (StateM σ)} {like : σ → Device → Prop}
    (h : sink.Follows like) (text : String) :
    Simulates like (SyntaxInspector.writeText sink text)
      (SyntaxInspector.writeText Device.sink text) := by
  unfold SyntaxInspector.writeText
  refine (h.writeAll _).bind fun _ => ?_
  by_cases hend : endsWithNewline text = true
  · simp only [hend, if_true]
    exact h.flush
  · simp only [hend, Bool.false_eq_true, if_false]
    exact (h.writeAll _).bind fun _ => h.flush

theorem Sink.Follows.took {sink : Sink (StateM σ)} {like : σ → Device → Prop}
    (h : sink.Follows like) (text : String) {s : σ} {d : Device} (hs : like s d) :
    d.TookText text ((SyntaxInspector.writeText sink text).run.run s).1 (d.writeText text).2 ∧
      like ((SyntaxInspector.writeText sink text).run.run s).2 (d.writeText text).2 := by
  obtain ⟨houtcome, hlike⟩ := h.writeText text hs
  exact ⟨houtcome ▸ d.tookText_writeText text, hlike⟩

end SyntaxInspector
