import SyntaxInspector.CommandLine.Parse
import SyntaxInspector.Proofs.Outcomes

/-! # Words of a command line

What a word does to a reading, and when a value is looked at.

* `OptionWord` and `WordKind` are what a word may be taken for, and `wordKind` says that this does
  not depend on what has been read before;
* `word_name` and `word_name_value` are the two ways to give a long option its value;
* `words_settle`: looking at a pending value earlier makes no difference, so an option that awaits a
  value has it when the next word has been read (`words_of_expectValue`). -/

namespace SyntaxInspector

/-! ### Pending values -/

namespace Reading

variable {r r₁ s : Reading}

/-- Once a value has been looked at, nothing is pending, and all else is as before. -/
theorem settle_eq_ok (h : r.settle = .ok s) : s.pending = none ∧ s.finished = r.finished := by
  unfold settle at h
  split at h
  · rename_i hnone
    cases h
    exact ⟨hnone, rfl⟩
  · cases h
  · obtain ⟨_, -, h⟩ := bind_eq_ok_iff.mp h
    cases h
    exact ⟨rfl, rfl⟩

theorem settle_of_none (h : r.pending = none) : r.settle = .ok r := by
  rw [settle, h]

theorem settle_settle (h : r.settle = .ok s) : s.settle = .ok s :=
  settle_of_none (settle_eq_ok h).1

theorem settle_finish (r : Reading) : ({ r with finished := true } : Reading).settle =
    r.settle.map fun s => { s with finished := true } := by
  unfold settle
  dsimp only
  split
  · rfl
  · rfl
  · rename_i o value _
    cases r.given.assign o value <;> rfl

/-! A switch looks at the pending value first. -/

theorem expectValue_eq (h : r.settle = .ok s) (o : Switch) :
    r.expectValue o = .ok { s with pending := some (o, none) } := by
  rw [expectValue, h]
  rfl

theorem withValue_eq (h : r.settle = .ok s) (o : Switch) (value : String) :
    r.withValue o value = (s.given.assign o value).map fun g => { s with given := g } := by
  rw [withValue, h]
  change (s.given.assign o value >>= _) = _
  cases s.given.assign o value <;> rfl

theorem withFlag_eq (h : r.settle = .ok s) (o : Switch) :
    r.withFlag o = (s.given.flag o).map fun g => { s with given := g } := by
  rw [withFlag, h]
  change (s.given.flag o >>= _) = _
  cases s.given.flag o <;> rfl

theorem expectValue_eq_ok {o : Switch} (h : r.expectValue o = .ok r₁) :
    ∃ t, r.settle = .ok t ∧ r₁ = { t with pending := some (o, none) } := by
  obtain ⟨t, ht, hr₁⟩ := bind_eq_ok_iff.mp h
  exact ⟨t, ht, (Except.ok.inj hr₁).symm⟩

theorem withValue_eq_ok {o : Switch} {value : String} (h : r.withValue o value = .ok r₁) :
    ∃ t g, r.settle = .ok t ∧ t.given.assign o value = .ok g ∧ r₁ = { t with given := g } := by
  obtain ⟨t, ht, h⟩ := bind_eq_ok_iff.mp h
  obtain ⟨g, hg, hr₁⟩ := bind_eq_ok_iff.mp h
  exact ⟨t, g, ht, hg, (Except.ok.inj hr₁).symm⟩

theorem withFlag_eq_ok {o : Switch} (h : r.withFlag o = .ok r₁) :
    ∃ t g, r.settle = .ok t ∧ t.given.flag o = .ok g ∧ r₁ = { t with given := g } := by
  obtain ⟨t, ht, h⟩ := bind_eq_ok_iff.mp h
  obtain ⟨g, hg, hr₁⟩ := bind_eq_ok_iff.mp h
  exact ⟨t, g, ht, hg, (Except.ok.inj hr₁).symm⟩

/-! ### Words -/

/-- What a word with a dash in front does to a reading. -/
inductive OptionWord : (Reading → Except Refusal Reading) → Prop
  | refused {f : Reading → Except Refusal Reading} (e : Refusal) :
      (∀ r, f r = .error e) → OptionWord f
  | expects {f : Reading → Except Refusal Reading} (o : Switch) :
      (∀ r, f r = r.expectValue o) → OptionWord f
  | value {f : Reading → Except Refusal Reading} (o : Switch) (value : String) :
      (∀ r, f r = r.withValue o value) → OptionWord f
  | flag {f : Reading → Except Refusal Reading} (o : Switch) :
      (∀ r, f r = r.withFlag o) → OptionWord f
  | flags {f g : Reading → Except Refusal Reading} (o : Switch) :
      OptionWord g → (∀ r, f r = r.withFlag o >>= g) → OptionWord f

theorem optionWord_long (name : List Char) : OptionWord fun r => r.long name := by
  unfold long
  dsimp only
  cases Switch.ofLong? (String.ofList (name.takeWhile (· ≠ '='))) with
  | none => exact .refused .unknownArgument fun _ => rfl
  | some o =>
      cases name.dropWhile (· ≠ '=') with
      | nil =>
          cases ho : o.takesValue with
          | true => exact .expects o fun _ => by simp [ho]
          | false => exact .flag o fun _ => by simp [ho]
      | cons _ value =>
          cases ho : o.takesValue with
          | true => exact .value o (String.ofList value) fun _ => by simp [ho]
          | false => exact .refused .unexpectedValue fun _ => by simp [ho]

theorem optionWord_short (c : Char) (cs : List Char) : OptionWord fun r => r.short (c :: cs) := by
  induction cs generalizing c with
  | nil =>
      unfold short
      cases Switch.ofShort? c with
      | none => exact .refused .unknownArgument fun _ => rfl
      | some o =>
          cases ho : o.takesValue with
          | true => exact .expects o fun _ => by simp [ho]
          | false =>
              refine .flag o fun r => ?_
              simp only [ho, Bool.false_eq_true, if_false, short]
              exact bind_pure _
  | cons c' cs ih =>
      unfold short
      cases Switch.ofShort? c with
      | none => exact .refused .unknownArgument fun _ => rfl
      | some o =>
          cases ho : o.takesValue with
          | true =>
              by_cases hc : c' = '='
              · exact .value o (String.ofList cs) fun _ => by simp [ho, hc]
              · exact .value o (String.ofList (c' :: cs)) fun _ => by simp [ho, hc]
          | false => exact .flags o (ih c') fun _ => by simp [ho]

/-- What a word is taken for, whatever has been read before it. -/
inductive WordKind (w : String) : Prop
  | stop : (∀ r : Reading, r.finished = false → r.word w = .ok { r with finished := true }) →
      WordKind w
  | option {f : Reading → Except Refusal Reading} :
      OptionWord f → (∀ r : Reading, r.finished = false → r.word w = f r) → WordKind w
  | plain : (∀ r : Reading, r.finished = false → r.word w = r.plain w) → WordKind w

theorem wordKind (w : String) : WordKind w := by
  cases hw : w.toList with
  | nil => exact .plain fun r hr => by simp [word, hr, hw]
  | cons c cs =>
      by_cases hc : c = '-'
      · subst hc
        cases cs with
        | nil => exact .plain fun r hr => by simp [word, hr, hw]
        | cons c cs =>
            by_cases hc : c = '-'
            · subst hc
              cases cs with
              | nil => exact .stop fun r hr => by simp [word, hr, hw]
              | cons c cs =>
                  exact .option (optionWord_long (c :: cs)) fun r hr => by simp [word, hr, hw]
            · exact .option (optionWord_short c cs) fun r hr => by simp [word, hr, hw, hc]
      · exact .plain fun r hr => by simp [word, hr, hw, hc]

theorem word_finished (h : r.finished = true) (w : String) :
    r.word w = .error .unknownArgument := by
  rw [word, h, if_pos rfl]

/-! An option that takes a value, by its name. -/

theorem ofLong?_longName (o : Switch) : Switch.ofLong? o.longName = some o := by
  cases o <;> rfl

theorem ne_equals_of_mem_longName (o : Switch) : ∀ c ∈ o.longName.toList, decide (c ≠ '=') := by
  have hall : (o.longName.toList.all fun c => decide (c ≠ '=')) = true := by cases o <;> rfl
  exact List.all_eq_true.mp hall

theorem word_eq_long (h : r.finished = false) {o : Switch} {w : String} {rest : List Char}
    (hw : w.toList = "--".toList ++ (o.longName.toList ++ rest)) :
    r.word w = r.long (o.longName.toList ++ rest) := by
  have hname : ∃ c cs, o.longName.toList = c :: cs := by cases o <;> exact ⟨_, _, rfl⟩
  obtain ⟨c, cs, hname⟩ := hname
  rw [word, h, hw, hname]
  rfl

theorem word_name (h : r.finished = false) (o : Switch) (ho : o.takesValue = true) :
    r.word ("--" ++ o.longName) = r.expectValue o := by
  have hw : ("--" ++ o.longName).toList = "--".toList ++ (o.longName.toList ++ []) := by
    rw [String.toList_append, List.append_nil]
  rw [word_eq_long h hw, long, List.takeWhile_append_of_pos (ne_equals_of_mem_longName o),
    List.dropWhile_append_of_pos (ne_equals_of_mem_longName o)]
  simp [ofLong?_longName, ho]

theorem word_name_value (h : r.finished = false) (o : Switch) (ho : o.takesValue = true)
    (value : String) : r.word ("--" ++ o.longName ++ "=" ++ value) = r.withValue o value := by
  have hw : ("--" ++ o.longName ++ "=" ++ value).toList =
      "--".toList ++ (o.longName.toList ++ ('=' :: value.toList)) := by
    simp
  rw [word_eq_long h hw, long, List.takeWhile_append_of_pos (ne_equals_of_mem_longName o),
    List.dropWhile_append_of_pos (ne_equals_of_mem_longName o)]
  simp [ofLong?_longName, ho]

/-! ### Looking at pending values -/

theorem OptionWord.settle {f : Reading → Except Refusal Reading} (hf : OptionWord f)
    (h : r.settle = .ok s) : f r = f s := by
  have hs := settle_settle h
  cases hf with
  | refused e hf => rw [hf, hf]
  | expects o hf => rw [hf, hf, expectValue_eq h, expectValue_eq hs]
  | value o value hf => rw [hf, hf, withValue_eq h, withValue_eq hs]
  | flag o hf => rw [hf, hf, withFlag_eq h, withFlag_eq hs]
  | flags o _ hf => rw [hf, hf, withFlag_eq h, withFlag_eq hs]

theorem OptionWord.ne_ok {f : Reading → Except Refusal Reading} (hf : OptionWord f)
    {e : Refusal} (h : r.settle = .error e) : f r ≠ .ok s := by
  have hbind {g : Reading → Except Refusal Reading} : (r.settle >>= g) ≠ .ok s := by
    rw [h]
    exact nofun
  cases hf with
  | refused e hf =>
      rw [hf]
      exact nofun
  | expects o hf => exact hf r ▸ hbind
  | value o value hf => exact hf r ▸ hbind
  | flag o hf => exact hf r ▸ hbind
  | flags o _ hf =>
      have hflag : r.withFlag o = .error e := by
        rw [withFlag, h]
        rfl
      rw [hf, hflag]
      exact nofun

theorem plain_of_settle (h : r.settle = .ok s) (w : String) :
    r.plain w = .error .unknownArgument := by
  unfold plain
  split
  · rename_i hpending
    rw [Reading.settle, hpending] at h
    cases h
  · rfl

theorem words_cons_finished (h : r.finished = true) (w : String) (ws : List String) :
    r.words (w :: ws) = .error .unknownArgument := by
  rw [words, word_finished h]
  rfl

/-- It makes no difference if the pending value is looked at before the next word. -/
theorem words_settle (h : r.settle = .ok s) (ws : List String) : r.words ws = s.words ws := by
  have hs := settle_settle h
  have hfinished := (settle_eq_ok h).2
  cases ws with
  | nil => rw [words, words, h, hs]
  | cons w ws =>
      by_cases hr : r.finished = true
      · rw [words_cons_finished hr, words_cons_finished (hfinished.trans hr)]
      rw [Bool.not_eq_true] at hr
      have hr' : s.finished = false := hfinished.trans hr
      rw [words, words]
      cases wordKind w with
      | stop hword =>
          rw [hword r hr, hword s hr']
          cases ws with
          | nil =>
              change settle _ = settle _
              rw [settle_finish, settle_finish, h, hs]
          | cons w ws =>
              change words _ _ = words _ _
              rw [words_cons_finished, words_cons_finished] <;> rfl
      | option hf hword => rw [hword r hr, hword s hr', hf.settle h]
      | plain hword => rw [hword r hr, hword s hr', plain_of_settle h, plain_of_settle hs]

/-- A reading that cannot be settled goes on only if it waits for a value and gets one. -/
theorem words_of_unsettled {e : Refusal} (h : r.settle = .error e) {ws : List String}
    (hs : r.words ws = .ok s) :
    ∃ o w ws₁, ws = w :: ws₁ ∧ r.pending = some (o, none) ∧
      ({ r with pending := some (o, some w) } : Reading).words ws₁ = .ok s := by
  cases ws with
  | nil =>
      rw [words, h] at hs
      cases hs
  | cons w ws =>
      by_cases hr : r.finished = true
      · rw [words_cons_finished hr] at hs
        cases hs
      rw [Bool.not_eq_true] at hr
      obtain ⟨r₁, hw, hs⟩ := bind_eq_ok_iff.mp hs
      cases wordKind w with
      | stop hword =>
          rw [hword r hr] at hw
          cases hw
          cases ws with
          | nil =>
              rw [words, settle_finish, h] at hs
              cases hs
          | cons w ws =>
              rw [words_cons_finished (by rfl)] at hs
              cases hs
      | option hf hword => exact absurd ((hword r hr).symm.trans hw) (hf.ne_ok h)
      | plain hword =>
          rw [hword r hr] at hw
          unfold plain at hw
          split at hw
          · rename_i o hpending
            cases hw
            exact ⟨o, w, ws, rfl, hpending, hs⟩
          · cases hw

/-- A value that has come can be looked at, if the reading succeeds. -/
theorem settle_of_words {o : Switch} {value : String} {ws : List String}
    (hpending : r.pending = some (o, some value)) (hs : r.words ws = .ok s) :
    ∃ g, r.given.assign o value = .ok g ∧
      r.settle = .ok { r with given := g, pending := none } := by
  cases hsettle : r.settle with
  | error e =>
      obtain ⟨o', w, _, -, hnone, -⟩ := words_of_unsettled hsettle hs
      rw [hpending] at hnone
      cases hnone
  | ok t =>
      have hassign := hsettle
      rw [settle, hpending] at hassign
      obtain ⟨g, hg, ht⟩ := bind_eq_ok_iff.mp hassign
      cases ht
      exact ⟨g, hg, rfl⟩

theorem settle_of_awaiting {o : Switch} (h : r.pending = some (o, none)) :
    r.settle = .error .invalidValue := by
  rw [settle, h]

/-- An option that awaits a value gets the next word. -/
theorem words_of_expectValue {o : Switch} {ws : List String} (h : r.expectValue o = .ok r₁)
    (hs : r₁.words ws = .ok s) :
    ∃ t value ws₁ g, ws = value :: ws₁ ∧ r.settle = .ok t ∧ t.given.assign o value = .ok g ∧
      ({ t with given := g } : Reading).words ws₁ = .ok s := by
  obtain ⟨t, ht, rfl⟩ := expectValue_eq_ok h
  obtain ⟨_, value, ws₁, hws, ho, hs⟩ := words_of_unsettled (settle_of_awaiting rfl) hs
  cases ho
  -- The value is looked at some time, so it can be looked at now.
  obtain ⟨g, hg, hsettle⟩ := settle_of_words rfl hs
  rw [words_settle hsettle] at hs
  refine ⟨t, value, ws₁, g, hws, ht, hg, ?_⟩
  have hnone := (settle_eq_ok ht).1
  obtain ⟨given, pending, finished⟩ := t
  obtain rfl : pending = none := hnone
  exact hs

end Reading
end SyntaxInspector
