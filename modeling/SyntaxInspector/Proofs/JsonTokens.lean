import Mathlib.Data.List.TakeWhile
import SyntaxInspector.Proofs.JsonGrammar
import SyntaxInspector.Proofs.Outcomes

/-! # Reading quoted texts and numerals

The reader of JSON against its grammar, as far as nothing is nested.

* `readQuoted_eq_ok_iff`: a quoted text is read to its closing quote if and only if the grammar has
  it, and as the characters that its pieces denote.  `QuoteState.meaning` is what a state of the
  reader and the pieces still to come make up together;
* `readNumeral_sound` and `readNumeral_complete`: a numeral is read if the grammar has it and
  something follows that cannot continue it (`Delimited`). -/

namespace SyntaxInspector.Json

/-! ### Quoted texts -/

theorem isLeading_of_isTrailing {n : Nat} (h : isTrailing n) : isLeading n = false := by
  simp only [isTrailing, isLeading, Bool.and_eq_true, decide_eq_true_eq,
    Bool.and_eq_false_iff, decide_eq_false_iff_not] at h ⊢
  omega

theorem denote_unit {n : Nat} (hl : isLeading n = false) (ht : isTrailing n = false)
    (ps : List Piece) : denote (.unit n :: ps) = (denote ps).map (Char.ofNat n :: ·) := by
  rcases ps with _ | ⟨_ | low, ps⟩ <;> simp [denote, hl, ht]

theorem denote_trailing {n : Nat} (h : isTrailing n) (ps : List Piece) :
    denote (.unit n :: ps) = none := by
  have hl := isLeading_of_isTrailing h
  rcases ps with _ | ⟨_ | low, ps⟩ <;> simp [denote, hl, h]

theorem denote_pair {high low : Nat} (hh : isLeading high) (hl : isTrailing low)
    (ps : List Piece) :
    denote (.unit high :: .unit low :: ps) = (denote ps).map (pairChar high low :: ·) := by
  simp [denote, hh, hl]

theorem denote_unpaired {high low : Nat} (hh : isLeading high) (hl : isTrailing low = false)
    (ps : List Piece) : denote (.unit high :: .unit low :: ps) = none := by
  simp [denote, hh, hl]

namespace QuoteState

/-- The text goes on with a piece. -/
def feed (q : QuoteState) : Piece → QuoteState
  | .char c => q.push c
  | .unit n => q.pushUnit n

/-- The pieces still to be denoted, behind a surrogate that waits. -/
def awaiting (q : QuoteState) (ps : List Piece) : List Piece :=
  match q.leading with
  | some high => .unit high :: ps
  | none => ps

/-- The text that a state and the pieces behind it make up. -/
def meaning (q : QuoteState) (ps : List Piece) : Option String :=
  if q.spoiled then none
  else (denote (q.awaiting ps)).map fun cs => String.ofList (q.chars.reverse ++ cs)

/-- Only a leading surrogate waits for its partner. -/
def WellFormed (q : QuoteState) : Prop := ∀ high, q.leading = some high → isLeading high

theorem pushUnit_pair {q : QuoteState} {high low : Nat} (hq : q.leading = some high)
    (hl : isTrailing low) :
    q.pushUnit low = { q with chars := pairChar high low :: q.chars, leading := none } := by
  unfold pushUnit
  rw [← isTrailing, if_pos hl, hq]
  rfl

theorem pushUnit_trailing {q : QuoteState} {n : Nat} (hq : q.leading = none)
    (hn : isTrailing n) : q.pushUnit n = { q with spoiled := true } := by
  unfold pushUnit
  rw [← isTrailing, if_pos hn, hq]

theorem pushUnit_leading (q : QuoteState) {n : Nat} (hn : isLeading n) :
    q.pushUnit n = { q.settle with leading := some n } := by
  unfold pushUnit
  have ht : ¬isTrailing n := fun ht => by simp [isLeading_of_isTrailing ht] at hn
  rw [← isTrailing, ← isLeading, if_neg ht, if_pos hn]

theorem pushUnit_plain (q : QuoteState) {n : Nat} (hl : ¬isLeading n) (ht : ¬isTrailing n) :
    q.pushUnit n = q.push (Char.ofNat n) := by
  unfold pushUnit
  rw [← isTrailing, ← isLeading, if_neg ht, if_neg hl]

theorem wellFormed_feed {q : QuoteState} (p : Piece) : (q.feed p).WellFormed := by
  cases p with
  | char c => simp [WellFormed, feed, push, settle]
  | unit n =>
      by_cases hl : isLeading n
      · simp [WellFormed, feed, pushUnit_leading q hl, hl]
      · by_cases ht : isTrailing n
        · cases hq : q.leading with
          | none => simp [WellFormed, feed, pushUnit_trailing hq ht, hq]
          | some high => simp [WellFormed, feed, pushUnit_pair hq ht]
        · simp [WellFormed, feed, pushUnit_plain q hl ht, push, settle]

theorem meaning_push {q : QuoteState} (h : q.WellFormed) (c : Char) (ps : List Piece) :
    (q.push c).meaning ps = q.meaning (.char c :: ps) := by
  cases hq : q.leading with
  | none => simp [meaning, push, settle, awaiting, denote, hq, Function.comp_def]
  | some high => simp [meaning, push, settle, awaiting, denote, hq, h high hq]

theorem meaning_pushUnit {q : QuoteState} (h : q.WellFormed) (n : Nat) (ps : List Piece) :
    (q.pushUnit n).meaning ps = q.meaning (.unit n :: ps) := by
  by_cases hl : isLeading n
  · rw [pushUnit_leading q hl]
    cases hq : q.leading with
    | none => simp [meaning, settle, awaiting, hq]
    | some high =>
        have ht : isTrailing n = false := by
          cases ht : isTrailing n with
          | false => rfl
          | true => simp [isLeading_of_isTrailing ht] at hl
        simp [meaning, settle, awaiting, hq, denote_unpaired (h high hq) ht]
  · by_cases ht : isTrailing n
    · cases hq : q.leading with
      | none => simp [pushUnit_trailing hq ht, meaning, awaiting, hq, denote_trailing ht]
      | some high =>
          simp [pushUnit_pair hq ht, meaning, awaiting, hq, denote_pair (h high hq) ht,
            Function.comp_def]
    · rw [pushUnit_plain q hl ht, meaning_push h]
      simp only [Bool.not_eq_true] at hl ht
      cases hq : q.leading with
      | none => simp [meaning, awaiting, hq, denote_unit hl ht, denote]
      | some high => simp [meaning, awaiting, hq, denote, denote_unpaired (h high hq) ht, h high hq]

theorem meaning_feed {q : QuoteState} (h : q.WellFormed) (p : Piece) (ps : List Piece) :
    (q.feed p).meaning ps = q.meaning (p :: ps) := by
  cases p with
  | char c => exact meaning_push h c ps
  | unit n => exact meaning_pushUnit h n ps

theorem finish_eq_meaning {q : QuoteState} (h : q.WellFormed) : q.finish = q.meaning [] := by
  cases hq : q.leading with
  | none => simp [finish, settle, meaning, awaiting, denote, hq]
  | some high => simp [finish, settle, meaning, awaiting, denote, hq, h high hq]

theorem finish_foldl_feed (ps : List Piece) {q : QuoteState} (h : q.WellFormed) :
    (ps.foldl feed q).finish = q.meaning ps := by
  induction ps generalizing q with
  | nil => exact finish_eq_meaning h
  | cons p ps ih => rw [List.foldl_cons, ih (wellFormed_feed p), meaning_feed h]

end QuoteState

theorem readQuoted_plain {c : Char} (h1 : c ≠ '"') (h2 : c ≠ '\\') (h3 : 0x20 ≤ c.toNat)
    (q : QuoteState) (cs : List Char) : readQuoted q (c :: cs) = readQuoted (q.push c) cs := by
  rw [readQuoted.eq_def]
  split
  case h_7 heq =>
    obtain ⟨rfl, rfl⟩ := List.cons.inj heq
    exact if_neg (Nat.not_lt.mpr h3)
  all_goals simp_all

theorem readQuoted_letter {e c : Char} (h : letterEscape? e = some c) (q : QuoteState)
    (cs : List Char) : readQuoted q ('\\' :: e :: cs) = readQuoted (q.push c) cs := by
  have hu : e ≠ 'u' := by
    rintro rfl
    cases h
  rw [readQuoted.eq_def]
  split <;> simp_all
  rename_i hother _ heq
  exact (hother e cs heq.1.symm heq.2.symm).elim

theorem readQuoted_sound {q : QuoteState} {cs rest : List Char} {s : Option String}
    (h : readQuoted q cs = .ok (s, rest)) :
    ∃ used ps, cs = used ++ '"' :: rest ∧ SpellsPieces used ps ∧
      s = (ps.foldl QuoteState.feed q).finish := by
  fun_induction readQuoted q cs with
  | case2 q cs =>
      cases h
      exact ⟨[], [], rfl, .nil, rfl⟩
  | case3 q a b c d cs n hhex ih =>
      obtain ⟨used, ps, rfl, hps, rfl⟩ := ih h
      exact ⟨_, _, rfl, .cons (.hex hhex) hps, rfl⟩
  | case6 q e cs _ _ c hletter ih =>
      obtain ⟨used, ps, rfl, hps, rfl⟩ := ih h
      exact ⟨_, _, rfl, .cons (.letter hletter) hps, rfl⟩
  | case10 q c cs hquote _ _ hescape hend hcontrol ih =>
      have hbackslash : c ≠ '\\' := by
        rintro rfl
        cases cs with
        | nil => exact hend rfl rfl
        | cons e cs => exact hescape e cs rfl rfl
      obtain ⟨used, ps, rfl, hps, rfl⟩ := ih h
      exact ⟨_, _, rfl, .cons (.plain hquote hbackslash (by omega)) hps, rfl⟩
  | case1 | case4 | case5 | case7 | case8 | case9 => cases h

theorem readQuoted_complete {used : List Char} {ps : List Piece} (h : SpellsPieces used ps)
    (q : QuoteState) (rest : List Char) :
    readQuoted q (used ++ '"' :: rest) = .ok ((ps.foldl QuoteState.feed q).finish, rest) := by
  induction ps generalizing used q with
  | nil =>
      cases h
      rfl
  | cons p ps ih =>
      cases h with
      | cons hp hps =>
          rw [List.foldl_cons, List.append_assoc, ← ih hps]
          cases hp with
          | plain h1 h2 h3 => exact readQuoted_plain h1 h2 h3 q _
          | letter he => exact readQuoted_letter he q _
          | hex hn => simp [readQuoted, hn, QuoteState.feed]

/-- The text between two quotes, as it is read. -/
theorem finish_foldl_feed_start (ps : List Piece) :
    (ps.foldl QuoteState.feed {}).finish = (denote ps).map String.ofList := by
  rw [QuoteState.finish_foldl_feed ps (by simp [QuoteState.WellFormed])]
  simp [QuoteState.meaning, QuoteState.awaiting]

theorem readQuoted_eq_ok_iff {cs rest : List Char} {s : Option String} :
    readQuoted {} cs = .ok (s, rest) ↔
      ∃ used ps, cs = used ++ '"' :: rest ∧ SpellsPieces used ps ∧
        s = (denote ps).map String.ofList := by
  constructor
  · intro h
    obtain ⟨used, ps, hcs, hps, hs⟩ := readQuoted_sound h
    exact ⟨used, ps, hcs, hps, by rw [hs, finish_foldl_feed_start]⟩
  · rintro ⟨used, ps, rfl, hps, rfl⟩
    rw [readQuoted_complete hps, finish_foldl_feed_start]

/-! ### Numerals -/

/-- What follows a value: nothing, spacing, or a sign that ends an item or a member. -/
def Delimited (cs : List Char) : Prop :=
  ∀ c ∈ cs.head?, c ∈ [' ', '\n', '\t', '\r', ',', ']', '\x7d']

/-- No digit follows. -/
def EndsDigits (cs : List Char) : Prop := ∀ c ∈ cs.head?, c.isDigit = false

theorem Delimited.endsDigits {cs : List Char} (h : Delimited cs) : EndsDigits cs := by
  have hsigns : ∀ c ∈ [' ', '\n', '\t', '\r', ',', ']', '\x7d'], Char.isDigit c = false := by
    simp only [List.forall_mem_cons]
    exact ⟨rfl, rfl, rfl, rfl, rfl, rfl, rfl, nofun⟩
  exact fun c hc => hsigns c (h c hc)

theorem isDigit_of_mem_readDigits {c : Char} {cs : List Char} (h : c ∈ (readDigits cs).1) :
    c.isDigit :=
  List.mem_takeWhile_imp h

theorem append_readDigits (cs : List Char) : (readDigits cs).1 ++ (readDigits cs).2 = cs :=
  List.takeWhile_append_dropWhile

theorem readDigits_complete {digits rest : List Char} (h : ∀ c ∈ digits, c.isDigit)
    (hrest : EndsDigits rest) : readDigits (digits ++ rest) = (digits, rest) := by
  have hhead : rest.takeWhile Char.isDigit = [] ∧ rest.dropWhile Char.isDigit = rest := by
    cases rest with
    | nil => exact ⟨rfl, rfl⟩
    | cons c cs => simp [hrest c rfl]
  rw [readDigits, List.takeWhile_append_of_pos h, List.dropWhile_append_of_pos h, hhead.1, hhead.2,
    List.append_nil]

/-- Digits are read where one at least has to be. -/
theorem isDigits_of_readDigits {cs : List Char} (h : (readDigits cs).1.isEmpty = false) :
    IsDigits (readDigits cs).1 :=
  ⟨fun hnil => by simp [hnil] at h, fun _ => isDigit_of_mem_readDigits⟩

/-- Where digits have to be, they are read. -/
theorem exists_digits_of_eq_ok {α : Type} {cs rest : List Char} {b : Break} {a : α}
    (make : List Char → α)
    (h : (if (readDigits cs).1.isEmpty then .error b
      else .ok (make (readDigits cs).1, (readDigits cs).2) : Except Break (α × List Char)) =
      .ok (a, rest)) :
    ∃ digits, cs = digits ++ rest ∧ IsDigits digits ∧ a = make digits := by
  cases hempty : (readDigits cs).1.isEmpty with
  | true => simp [hempty] at h
  | false =>
      simp only [hempty, Bool.false_eq_true, if_false, Except.ok.injEq, Prod.mk.injEq] at h
      obtain ⟨rfl, rfl⟩ := h
      exact ⟨_, (append_readDigits cs).symm, isDigits_of_readDigits hempty, rfl⟩

theorem readWhole_sound {cs whole rest : List Char} (h : readWhole cs = .ok (whole, rest)) :
    cs = whole ++ rest ∧ IsWhole whole := by
  cases cs with
  | nil => cases h
  | cons c cs =>
      simp only [readWhole] at h
      by_cases hzero : c = '0'
      · rw [if_pos hzero] at h
        split at h
        · cases h
          exact ⟨by rw [hzero]; rfl, .zero⟩
        · cases h
      · rw [if_neg hzero] at h
        split at h
        · rename_i hdigit
          have hdigits : IsDigits (readDigits (c :: cs)).1 :=
            isDigits_of_readDigits (by simp [readDigits, hdigit])
          have hcs := append_readDigits (c :: cs)
          have hhead : (readDigits (c :: cs)).1 = c :: cs.takeWhile Char.isDigit := by
            simp [readDigits, hdigit]
          rw [Except.ok.injEq, Prod.ext_iff] at h
          obtain ⟨rfl, rfl⟩ := h
          refine ⟨hcs.symm, ?_⟩
          rw [hhead] at hdigits ⊢
          exact .digits hzero hdigits
        · cases h

theorem readFraction_sound {cs digits rest : List Char}
    (h : readFraction cs = .ok (digits, rest)) :
    ∃ used, cs = used ++ rest ∧ SpellsFraction used digits := by
  unfold readFraction at h
  split at h
  · obtain ⟨digits, rfl, hdigits, rfl⟩ := exists_digits_of_eq_ok id h
    exact ⟨_, rfl, .present hdigits⟩
  · cases h
    exact ⟨[], rfl, .absent⟩

/-- The sign before the digits of an exponent, and what follows it. -/
def splitExponentSign : List Char → Bool × List Char
  | '+' :: cs => (false, cs)
  | '-' :: cs => (true, cs)
  | cs => (false, cs)

theorem splitExponentSign_sound (cs : List Char) :
    ∃ sign, cs = sign ++ (splitExponentSign cs).2 ∧
      SpellsExponentSign sign (splitExponentSign cs).1 := by
  fun_cases splitExponentSign cs with
  | case1 cs => exact ⟨['+'], rfl, .plus⟩
  | case2 cs => exact ⟨['-'], rfl, .minus⟩
  | case3 => exact ⟨[], rfl, .absent⟩

theorem splitExponentSign_complete {sign digits rest : List Char} {minus : Bool}
    (h : SpellsExponentSign sign minus) (hdigits : IsDigits digits) :
    splitExponentSign (sign ++ (digits ++ rest)) = (minus, digits ++ rest) := by
  cases h with
  | plus | minus => rfl
  | absent =>
      obtain ⟨c, cs, rfl⟩ := List.exists_cons_of_ne_nil hdigits.1
      have hc : c.isDigit := hdigits.2 c (by simp)
      have hplus : c ≠ '+' := by rintro rfl; cases hc
      have hminus : c ≠ '-' := by rintro rfl; cases hc
      simp [splitExponentSign, hplus, hminus]

theorem readExponent_cons {e : Char} (he : e = 'e' ∨ e = 'E') (cs : List Char) :
    readExponent (e :: cs) =
      let digits := readDigits (splitExponentSign cs).2
      if digits.1.isEmpty then .error (lacksDigit (splitExponentSign cs).2)
      else .ok (some ((splitExponentSign cs).1, digits.1), digits.2) := by
  rcases he with rfl | rfl <;> rfl

theorem readExponent_sound {cs rest : List Char} {power : Option (Bool × List Char)}
    (h : readExponent cs = .ok (power, rest)) :
    ∃ used, cs = used ++ rest ∧ SpellsExponent used power := by
  cases cs with
  | nil =>
      cases h
      exact ⟨[], rfl, .absent⟩
  | cons e cs =>
      by_cases he : e = 'e' ∨ e = 'E'
      · rw [readExponent_cons he] at h
        obtain ⟨sign, hcs, hsign⟩ := splitExponentSign_sound cs
        obtain ⟨digits, hdigits, hd, rfl⟩ := exists_digits_of_eq_ok (fun ds => some (_, ds)) h
        refine ⟨_, ?_, .present he hsign hd⟩
        rw [hdigits] at hcs
        simpa using hcs
      · simp only [readExponent, Bool.or_eq_true, decide_eq_true_eq, he, if_false] at h
        cases h
        exact ⟨[], rfl, .absent⟩

/-- The sign before a numeral, and what follows it. -/
def splitSign : List Char → Bool × List Char
  | '-' :: cs => (true, cs)
  | cs => (false, cs)

theorem splitSign_sound (cs : List Char) :
    ∃ sign, cs = sign ++ (splitSign cs).2 ∧ SpellsSign sign (splitSign cs).1 := by
  fun_cases splitSign cs with
  | case1 cs => exact ⟨['-'], rfl, .minus⟩
  | case2 => exact ⟨[], rfl, .absent⟩

theorem readNumeral_eq (cs : List Char) :
    readNumeral cs = do
      let (whole, cs₁) ← readWhole (splitSign cs).2
      let (fraction, cs₂) ← readFraction cs₁
      let (exponent, cs₃) ← readExponent cs₂
      return ({ negative := (splitSign cs).1, whole, fraction, exponent }, cs₃) := by
  rfl

theorem readNumeral_sound {cs rest : List Char} {n : Numeral}
    (h : readNumeral cs = .ok (n, rest)) : ∃ used, cs = used ++ rest ∧ SpellsNumeral used n := by
  rw [readNumeral_eq] at h
  obtain ⟨⟨whole, cs₁⟩, hwhole, h⟩ := bind_eq_ok_iff.mp h
  obtain ⟨⟨digits, cs₂⟩, hfraction, h⟩ := bind_eq_ok_iff.mp h
  obtain ⟨⟨power, cs₃⟩, hexponent, h⟩ := bind_eq_ok_iff.mp h
  cases h
  obtain ⟨sign, hcs, hsign⟩ := splitSign_sound cs
  obtain ⟨hcs₁, hw⟩ := readWhole_sound hwhole
  obtain ⟨fraction, rfl, hf⟩ := readFraction_sound hfraction
  obtain ⟨exponent, rfl, he⟩ := readExponent_sound hexponent
  refine ⟨_, ?_, .mk hsign hw hf he⟩
  rw [hcs₁] at hcs
  simpa using hcs

theorem readWhole_complete {whole rest : List Char} (h : IsWhole whole) (hrest : EndsDigits rest) :
    readWhole (whole ++ rest) = .ok (whole, rest) := by
  cases h with
  | zero =>
      have hnone : rest.takeWhile Char.isDigit = [] := by
        cases rest with
        | nil => rfl
        | cons c cs => simp [hrest c rfl]
      simp [readWhole, hnone]
  | digits hzero hdigits =>
      have hread := readDigits_complete hdigits.2 hrest
      simp only [List.cons_append] at hread ⊢
      simp [readWhole, hzero, hdigits.2, hread]

theorem readFraction_complete {fraction digits rest : List Char}
    (h : SpellsFraction fraction digits) (hrest : EndsDigits rest)
    (hpoint : rest.head? ≠ some '.') :
    readFraction (fraction ++ rest) = .ok (digits, rest) := by
  cases h with
  | absent =>
      unfold readFraction
      split
      · rename_i cs hcs
        exact absurd (congrArg List.head? hcs) hpoint
      · rfl
  | present hdigits =>
      simp [readFraction, readDigits_complete hdigits.2 hrest, hdigits.1]

theorem Delimited.head_ne {cs : List Char} (h : Delimited cs) {c : Char}
    (hc : c ∉ [' ', '\n', '\t', '\r', ',', ']', '\x7d']) : cs.head? ≠ some c :=
  fun hhead => hc (h c hhead)

theorem readExponent_complete {exponent rest : List Char} {power : Option (Bool × List Char)}
    (h : SpellsExponent exponent power) (hrest : Delimited rest) :
    readExponent (exponent ++ rest) = .ok (power, rest) := by
  cases h with
  | absent =>
      cases rest with
      | nil => rfl
      | cons c cs =>
          have hsmall : c ≠ 'e' := fun hc => hrest.head_ne (c := 'e') (by decide) (by simp [hc])
          have hlarge : c ≠ 'E' := fun hc => hrest.head_ne (c := 'E') (by decide) (by simp [hc])
          simp [readExponent, hsmall, hlarge]
  | present he hsign hdigits =>
      have hread := readDigits_complete hdigits.2 hrest.endsDigits
      rw [List.cons_append, List.append_assoc, readExponent_cons he,
        splitExponentSign_complete hsign hdigits, hread]
      simp [hdigits.1]

theorem splitSign_complete {sign whole rest : List Char} {negative : Bool}
    (h : SpellsSign sign negative) (hwhole : IsWhole whole) :
    splitSign (sign ++ (whole ++ rest)) = (negative, whole ++ rest) := by
  cases h with
  | minus => rfl
  | absent =>
      cases hwhole with
      | zero => rfl
      | @digits c cs hzero hdigits =>
          have hc : c.isDigit := hdigits.2 c (by simp)
          have hminus : c ≠ '-' := by rintro rfl; cases hc
          simp [splitSign, hminus]

theorem SpellsExponent.endsDigits {exponent rest : List Char} {power : Option (Bool × List Char)}
    (h : SpellsExponent exponent power) (hrest : Delimited rest) :
    EndsDigits (exponent ++ rest) ∧ (exponent ++ rest).head? ≠ some '.' := by
  cases h with
  | absent => exact ⟨hrest.endsDigits, hrest.head_ne (by decide)⟩
  | present he =>
      rcases he with rfl | rfl <;> exact ⟨by simp [EndsDigits], by simp⟩

theorem SpellsFraction.endsDigits {fraction digits rest : List Char}
    (h : SpellsFraction fraction digits) (hrest : EndsDigits rest) :
    EndsDigits (fraction ++ rest) := by
  cases h with
  | absent => exact hrest
  | present => simp [EndsDigits]

theorem readNumeral_complete {cs rest : List Char} {n : Numeral} (h : SpellsNumeral cs n)
    (hrest : Delimited rest) : readNumeral (cs ++ rest) = .ok (n, rest) := by
  obtain ⟨hsign, hwhole, hfraction, hexponent⟩ := h
  obtain ⟨hdigits, hpoint⟩ := hexponent.endsDigits hrest
  simp only [List.append_assoc]
  rw [readNumeral_eq, splitSign_complete hsign hwhole]
  simp only [readWhole_complete hwhole (hfraction.endsDigits hdigits),
    readFraction_complete hfraction hdigits hpoint, readExponent_complete hexponent hrest, bind,
    Except.bind]
  rfl

end SyntaxInspector.Json
