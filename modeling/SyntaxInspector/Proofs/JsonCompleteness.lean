import SyntaxInspector.Proofs.JsonSoundness

/-! # What is JSON is read as JSON

The reader gets behind everything that the grammar derives, with the value that the grammar gives it
(`readValue_complete`, by recursion on the derivation; an allowance of three for each character is
enough).  So it reads a text to its end without a break if and only if the text is JSON
(`isJson_iff`). -/

namespace SyntaxInspector.Json

/-! ### Where values begin and end -/

theorem skipSpacing_gap_append {gap cs : List Char} (h : IsGap gap) :
    skipSpacing (gap ++ cs) = skipSpacing cs :=
  List.dropWhile_append_of_pos h

theorem skipSpacing_cons {c : Char} (h : isSpacing c = false) (cs : List Char) :
    skipSpacing (c :: cs) = c :: cs := by
  simp [skipSpacing, h]

theorem readName_complete (name rest : List Char) : readName name (name ++ rest) = .ok rest := by
  induction name with
  | nil => rfl
  | cons c name ih => simp [readName, ih]

theorem SpellsNumeral.head {cs : List Char} {n : Numeral} (h : SpellsNumeral cs n) :
    ∃ c cs', cs = c :: cs' ∧ (c = '-' ∨ c.isDigit) := by
  obtain ⟨hsign, hwhole, -, -⟩ := h
  cases hsign with
  | minus => exact ⟨_, _, rfl, .inl rfl⟩
  | absent =>
      cases hwhole with
      | zero => exact ⟨_, _, rfl, .inr rfl⟩
      | @digits c cs _ hdigits => exact ⟨_, _, rfl, .inr (hdigits.2 c (by simp))⟩

theorem isSpacing_of_isDigit {c : Char} (h : c.isDigit) : isSpacing c = false := by
  cases hs : isSpacing c with
  | false => rfl
  | true =>
    simp only [isSpacing, Bool.or_eq_true, decide_eq_true_eq] at hs
    rcases hs with ((rfl | rfl) | rfl) | rfl <;> cases h

/-- A value begins with a character that is no spacing and closes no array. -/
theorem Spells.head {cs : List Char} {d : Draft} (h : Spells cs d) :
    ∃ c cs', cs = c :: cs' ∧ isSpacing c = Bool.false ∧ c ≠ ']' := by
  cases h with
  | nullName | trueName | falseName | text | array | emptyArray | object | emptyObject =>
      exact ⟨_, _, rfl, by decide, by decide⟩
  | number h =>
      obtain ⟨c, cs, rfl, rfl | hc⟩ := h.head
      · exact ⟨_, _, rfl, by decide, by decide⟩
      · exact ⟨_, _, rfl, isSpacing_of_isDigit hc, by rintro rfl; cases hc⟩

theorem readValue_numeral {c : Char} (h : c = '-' ∨ c.isDigit) {cs cs' : List Char} (n : Nat)
    (hskip : skipSpacing cs = c :: cs') :
    readValue (n + 1) cs = scalar .number (readNumeral (c :: cs')) := by
  have hne : ∀ c' ∈ ['n', 't', 'f', '"', '[', '\x7b'], c ≠ c' := by
    rintro c' hc' rfl
    have hlead : ∀ c ∈ ['n', 't', 'f', '"', '[', '\x7b'], ¬(c = '-' ∨ Char.isDigit c) := by
      simp only [List.forall_mem_cons]
      exact ⟨nofun, nofun, nofun, nofun, nofun, nofun, nofun⟩
    exact hlead c hc' h
  unfold readValue
  rw [hskip]
  split
  case h_1 heq => cases heq
  case h_8 heq =>
    obtain ⟨rfl, rfl⟩ := List.cons.inj heq
    rw [if_pos (by simpa using h)]
  all_goals
    rename_i heq
    exact (hne _ (by decide) (List.cons.inj heq).1).elim

theorem skipSpacing_spelled {gap cs : List Char} {d : Draft} (hgap : IsGap gap) (h : Spells cs d)
    (rest : List Char) : skipSpacing (gap ++ (cs ++ rest)) = cs ++ rest := by
  obtain ⟨c, cs, rfl, hc, -⟩ := h.head
  rw [skipSpacing_gap_append hgap, List.cons_append, skipSpacing_cons hc]

theorem Spells.length_pos {cs : List Char} {d : Draft} (h : Spells cs d) : 0 < cs.length := by
  obtain ⟨c, cs, rfl, -⟩ := h.head
  simp

theorem mem_of_isSpacing {c : Char} (h : isSpacing c) : c ∈ [' ', '\n', '\t', '\r'] := by
  simpa [isSpacing, or_assoc] using h

/-- Behind a value there may be spacing, and then a sign. -/
theorem delimited_append {gap : List Char} {c : Char} (hgap : IsGap gap)
    (hc : c ∈ [',', ']', '\x7d']) (rest : List Char) : Delimited (gap ++ c :: rest) := by
  intro c' hc'
  cases gap with
  | nil =>
      obtain rfl : c = c' := by simpa using hc'
      exact List.mem_append_right [' ', '\n', '\t', '\r'] hc
  | cons c'' gap =>
      obtain rfl : c'' = c' := by simpa using hc'
      exact List.mem_append_left [',', ']', '\x7d'] (mem_of_isSpacing (hgap c'' (by simp)))

theorem named_complete (d : Draft) (name rest : List Char) :
    named d name (name ++ rest) = (d, some rest) := by
  rw [named, readName_complete]

theorem skipSpacing_skipSpacing (cs : List Char) :
    skipSpacing (skipSpacing cs) = skipSpacing cs := by
  induction cs with
  | nil => rfl
  | cons c cs ih =>
      cases hc : isSpacing c with
      | true => simpa [skipSpacing, hc] using ih
      | false => simp [skipSpacing, hc]

theorem readValue_skipSpacing (n : Nat) (cs : List Char) :
    readValue n (skipSpacing cs) = readValue n cs := by
  cases n with
  | zero => rfl
  | succ n =>
      unfold readValue
      rw [skipSpacing_skipSpacing]

theorem readItems_skipSpacing (n : Nat) (cs : List Char) :
    readItems n (skipSpacing cs) = readItems n cs := by
  cases n with
  | zero => rfl
  | succ n =>
      unfold readItems
      rw [readValue_skipSpacing]

theorem SpellsPadded.head {cs : List Char} {d : Draft} (h : SpellsPadded cs d)
    (rest : List Char) : ∃ c cs', skipSpacing (cs ++ rest) = c :: cs' ∧ c ≠ ']' := by
  obtain ⟨hbefore, hd, -⟩ := h
  obtain ⟨c, cs', rfl, -, hc⟩ := hd.head
  exact ⟨c, _, by simpa using skipSpacing_spelled hbefore hd _, hc⟩

/-- Items begin with a character that does not close their array. -/
theorem SpellsItems.head {cs : List Char} {ds : List Draft} (h : SpellsItems cs ds)
    (rest : List Char) : ∃ c cs', skipSpacing (cs ++ rest) = c :: cs' ∧ c ≠ ']' := by
  cases h with
  | one h => exact h.head rest
  | more h h' =>
      rw [List.append_assoc]
      exact h.head _

theorem SpellsMember.head {cs : List Char} {m : Option String × Draft} (h : SpellsMember cs m)
    (rest : List Char) : ∃ cs', skipSpacing (cs ++ rest) = '"' :: cs' := by
  obtain ⟨hbefore, -, -, -⟩ := h
  rw [List.append_assoc, skipSpacing_gap_append hbefore]
  exact ⟨_, skipSpacing_cons (by decide) _⟩

/-- Members begin with a quote. -/
theorem SpellsMembers.head {cs : List Char} {ms : List (Option String × Draft)}
    (h : SpellsMembers cs ms) (rest : List Char) :
    ∃ cs', skipSpacing (cs ++ rest) = '"' :: cs' := by
  cases h with
  | one h => exact h.head rest
  | more h h' =>
      rw [List.append_assoc]
      exact h.head _

/-! ### One step of reading -/

theorem readValue_emptyArray {cs cs' rest : List Char} (n : Nat)
    (hopen : skipSpacing cs = '[' :: cs') (hclose : skipSpacing cs' = ']' :: rest) :
    readValue (n + 1) cs = (.array [] .closed, some rest) := by
  simp only [readValue, hopen, hclose]

theorem readValue_array {c : Char} {cs cs' cs'' rest : List Char} {ds : List Draft} {n : Nat}
    (hopen : skipSpacing cs = '[' :: cs') (hitem : skipSpacing cs' = c :: cs'') (hc : c ≠ ']')
    (hread : readItems n cs' = (ds, .closed, some rest)) :
    readValue (n + 1) cs = (.array ds .closed, some rest) := by
  rw [← readItems_skipSpacing, hitem] at hread
  simp [readValue, hopen, hitem, hc, hread]

theorem readValue_emptyObject {cs cs' rest : List Char} (n : Nat)
    (hopen : skipSpacing cs = '\x7b' :: cs') (hclose : skipSpacing cs' = '\x7d' :: rest) :
    readValue (n + 1) cs = (.object [] .closed, some rest) := by
  simp only [readValue, hopen, hclose]

theorem readValue_object {cs cs' cs'' rest : List Char} {ms : List (Option String × Draft)}
    {n : Nat} (hopen : skipSpacing cs = '\x7b' :: cs')
    (hmember : skipSpacing cs' = '"' :: cs'')
    (hread : readMembers n (skipSpacing cs') = (ms, .closed, some rest)) :
    readValue (n + 1) cs = (.object ms .closed, some rest) := by
  rw [hmember] at hread
  simp [readValue, hopen, hmember, hread]

theorem readItems_one {cs cs' rest : List Char} {d : Draft} {n : Nat}
    (hread : readValue n cs = (d, some cs')) (hclose : skipSpacing cs' = ']' :: rest) :
    readItems (n + 1) cs = ([d], .closed, some rest) := by
  simp only [readItems, hread, hclose]

theorem readItems_more {c : Char} {cs cs' cs'' cs₁ rest : List Char} {d : Draft} {ds : List Draft}
    {n : Nat} (hread : readValue n cs = (d, some cs')) (hcomma : skipSpacing cs' = ',' :: cs'')
    (hitem : skipSpacing cs'' = c :: cs₁) (hc : c ≠ ']')
    (hitems : readItems n cs'' = (ds, .closed, some rest)) :
    readItems (n + 1) cs = (d :: ds, .closed, some rest) := by
  rw [← readItems_skipSpacing, hitem] at hitems
  simp [readItems, hread, hcomma, hitem, hc, hitems]

theorem readMembers_one {cs cs' cs'' rest : List Char} {key : Option String} {d : Draft} {n : Nat}
    (hkey : readQuoted {} cs = .ok (key, cs')) (hread : readMemberValue n cs' = (d, some cs''))
    (hclose : skipSpacing cs'' = '\x7d' :: rest) :
    readMembers (n + 1) ('"' :: cs) = ([(key, d)], .closed, some rest) := by
  simp only [readMembers, hkey, hread, hclose]

theorem readMembers_more {cs cs' cs'' cs₁ cs₂ rest : List Char} {key : Option String} {d : Draft}
    {ms : List (Option String × Draft)} {n : Nat} (hkey : readQuoted {} cs = .ok (key, cs'))
    (hread : readMemberValue n cs' = (d, some cs'')) (hcomma : skipSpacing cs'' = ',' :: cs₁)
    (hmember : skipSpacing cs₁ = '"' :: cs₂)
    (hmembers : readMembers n (skipSpacing cs₁) = (ms, .closed, some rest)) :
    readMembers (n + 1) ('"' :: cs) = ((key, d) :: ms, .closed, some rest) := by
  rw [hmember] at hmembers
  simp [readMembers, hkey, hread, hcomma, hmember, hmembers]

theorem readMemberValue_colon {cs cs' : List Char} (n : Nat)
    (hcolon : skipSpacing cs = ':' :: cs') : readMemberValue (n + 1) cs = readValue n cs' := by
  simp only [readMemberValue, hcolon]

theorem skipSpacing_gap_sign {gap : List Char} {c : Char} (hgap : IsGap gap)
    (hc : isSpacing c = false) (rest : List Char) :
    skipSpacing (gap ++ c :: rest) = c :: rest := by
  rw [skipSpacing_gap_append hgap, skipSpacing_cons hc]

/-- Spacing, and something between two signs. -/
theorem skipSpacing_enclosed {gap : List Char} {opening : Char} (hgap : IsGap gap)
    (ho : isSpacing opening = false) (inner rest : List Char) (closing : Char) :
    skipSpacing (gap ++ (opening :: (inner ++ [closing]) ++ rest)) =
      opening :: (inner ++ closing :: rest) := by
  rw [List.cons_append, skipSpacing_gap_sign hgap ho]
  simp

/-! ### Reading what is spelled -/

mutual

theorem readValue_complete {cs : List Char} {d : Draft} :
    Spells cs d → ∀ {gap rest : List Char} {n : Nat}, IsGap gap → Delimited rest →
      3 * cs.length ≤ n + 1 → readValue (n + 1) (gap ++ (cs ++ rest)) = (d, some rest)
  | .nullName, gap, rest, n, hgap, hrest, hn => by
      unfold readValue
      rw [skipSpacing_spelled hgap .nullName]
      exact named_complete .null ['u', 'l', 'l'] rest
  | .trueName, gap, rest, n, hgap, hrest, hn => by
      unfold readValue
      rw [skipSpacing_spelled hgap .trueName]
      exact named_complete (.bool true) ['r', 'u', 'e'] rest
  | .falseName, gap, rest, n, hgap, hrest, hn => by
      unfold readValue
      rw [skipSpacing_spelled hgap .falseName]
      exact named_complete (.bool false) ['a', 'l', 's', 'e'] rest
  | .number h, gap, rest, n, hgap, hrest, hn => by
      obtain ⟨c, cs, rfl, hc⟩ := h.head
      have hskip : skipSpacing (gap ++ (c :: cs ++ rest)) = c :: (cs ++ rest) :=
        skipSpacing_spelled hgap (.number h) rest
      rw [readValue_numeral hc n hskip, ← List.cons_append, readNumeral_complete h hrest, scalar]
  | @Spells.text cs ps h, gap, rest, n, hgap, hrest, hn => by
      have hread : readQuoted {} (cs ++ '"' :: rest) = .ok ((denote ps).map String.ofList, rest) :=
        readQuoted_eq_ok_iff.mpr ⟨cs, ps, rfl, h, rfl⟩
      unfold readValue
      rw [skipSpacing_enclosed hgap (by decide)]
      change scalar .text (readQuoted {} (cs ++ '"' :: rest)) = _
      rw [hread, scalar]
  | @Spells.emptyArray inner h, gap, rest, n, hgap, hrest, hn =>
      readValue_emptyArray n (skipSpacing_enclosed hgap (by decide) inner rest ']')
        (skipSpacing_gap_sign h (by decide) rest)
  | @Spells.array cs ds h, gap, rest, n, hgap, hrest, hn => by
      simp only [List.length_cons, List.length_append, List.length_nil] at hn
      obtain ⟨n, rfl⟩ : ∃ m, n = m + 1 := ⟨n - 1, by omega⟩
      obtain ⟨c, cs', hitem, hc⟩ := h.head (']' :: rest)
      exact readValue_array (skipSpacing_enclosed hgap (by decide) cs rest ']') hitem hc
        (readItems_complete h (by omega))
  | @Spells.emptyObject inner h, gap, rest, n, hgap, hrest, hn =>
      readValue_emptyObject n (skipSpacing_enclosed hgap (by decide) inner rest '\x7d')
        (skipSpacing_gap_sign h (by decide) rest)
  | @Spells.object cs ms h, gap, rest, n, hgap, hrest, hn => by
      simp only [List.length_cons, List.length_append, List.length_nil] at hn
      obtain ⟨n, rfl⟩ : ∃ m, n = m + 1 := ⟨n - 1, by omega⟩
      obtain ⟨cs', hmember⟩ := h.head ('\x7d' :: rest)
      exact readValue_object (skipSpacing_enclosed hgap (by decide) cs rest '\x7d') hmember
        (readMembers_complete h (by omega))

theorem readItems_complete {cs : List Char} {ds : List Draft} :
    SpellsItems cs ds → ∀ {rest : List Char} {n : Nat}, 3 * cs.length ≤ n →
      readItems (n + 1) (cs ++ ']' :: rest) = (ds, .closed, some rest)
  | .one (@SpellsPadded.mk before cs after d hbefore hd hafter), rest, n, hn => by
      have hpos := hd.length_pos
      simp only [List.length_append] at hn
      obtain ⟨n, rfl⟩ : ∃ m, n = m + 1 := ⟨n - 1, by omega⟩
      have hread : readValue (n + 1) (before ++ (cs ++ (after ++ ']' :: rest))) = (d, some _) :=
        readValue_complete hd hbefore (delimited_append hafter (by decide) rest) (by omega)
      simp only [List.append_assoc]
      exact readItems_one hread (skipSpacing_gap_sign hafter (by decide) rest)
  | @SpellsItems.more _ cs' _ ds (@SpellsPadded.mk before cs after d hbefore hd hafter) hds,
      rest, n, hn => by
      have hpos := hd.length_pos
      simp only [List.length_append, List.length_cons] at hn
      obtain ⟨n, rfl⟩ : ∃ m, n = m + 1 := ⟨n - 1, by omega⟩
      have hread : readValue (n + 1) (before ++ (cs ++ (after ++ ',' :: (cs' ++ ']' :: rest)))) =
          (d, some _) :=
        readValue_complete hd hbefore (delimited_append hafter (by decide) _) (by omega)
      obtain ⟨c, cs'', hitem, hc⟩ := hds.head (']' :: rest)
      simp only [List.append_assoc, List.cons_append]
      exact readItems_more hread (skipSpacing_gap_sign hafter (by decide) _) hitem hc
        (readItems_complete hds (by omega))

theorem readMembers_complete {cs : List Char} {ms : List (Option String × Draft)} :
    SpellsMembers cs ms → ∀ {rest : List Char} {n : Nat}, 3 * cs.length ≤ n →
      readMembers (n + 1) (skipSpacing (cs ++ '\x7d' :: rest)) = (ms, .closed, some rest)
  | .one (@SpellsMember.mk start key gap _ ps d hstart hkey hgap
      (@SpellsPadded.mk before cs after _ hbefore hd hafter)), rest, n, hn => by
      simp only [List.length_append, List.length_cons] at hn
      obtain ⟨n, rfl⟩ : ∃ m, n = m + 2 := ⟨n - 2, by omega⟩
      have hread : readValue (n + 1) (before ++ (cs ++ (after ++ '\x7d' :: rest))) = (d, some _) :=
        readValue_complete hd hbefore (delimited_append hafter (by decide) rest) (by omega)
      simp only [List.append_assoc, List.cons_append]
      rw [skipSpacing_gap_sign hstart (by decide)]
      refine readMembers_one (readQuoted_eq_ok_iff.mpr ⟨key, ps, rfl, hkey, rfl⟩) ?_
        (skipSpacing_gap_sign hafter (by decide) rest)
      rw [readMemberValue_colon (n + 1) (skipSpacing_gap_sign hgap (by decide) _), hread]
  | @SpellsMembers.more _ cs' _ ms (@SpellsMember.mk start key gap _ ps d hstart hkey hgap
      (@SpellsPadded.mk before cs after _ hbefore hd hafter)) hms, rest, n, hn => by
      simp only [List.length_append, List.length_cons] at hn
      obtain ⟨n, rfl⟩ : ∃ m, n = m + 2 := ⟨n - 2, by omega⟩
      have hread : readValue (n + 1)
          (before ++ (cs ++ (after ++ ',' :: (cs' ++ '\x7d' :: rest)))) = (d, some _) :=
        readValue_complete hd hbefore (delimited_append hafter (by decide) _) (by omega)
      obtain ⟨cs'', hmember⟩ := hms.head ('\x7d' :: rest)
      simp only [List.append_assoc, List.cons_append]
      rw [skipSpacing_gap_sign hstart (by decide)]
      refine readMembers_more (readQuoted_eq_ok_iff.mpr ⟨key, ps, rfl, hkey, rfl⟩) ?_
        (skipSpacing_gap_sign hafter (by decide) _) hmember (readMembers_complete hms (by omega))
      rw [readMemberValue_colon (n + 1) (skipSpacing_gap_sign hgap (by decide) _), hread]

end

theorem delimited_of_isGap {gap : List Char} (h : IsGap gap) : Delimited gap := by
  intro c hc
  exact List.mem_append_left [',', ']', '\x7d'] (mem_of_isSpacing (h c (List.mem_of_mem_head? hc)))

/-! ### Nothing spelled is broken -/

mutual

theorem Spells.skim {cs : List Char} {d : Draft} : Spells cs d → d.skim = none
  | .nullName | .trueName | .falseName | .number _ | .text _ => by simp [Draft.skim]
  | .emptyArray _ => by simp [Draft.skim, Draft.skimItems, Ending.skimmed]
  | .array h => by simp [Draft.skim, Ending.skimmed, h.skim]
  | .emptyObject _ => by simp [Draft.skim, Draft.skimMembers, Ending.skimmed]
  | .object h => by simp [Draft.skim, Ending.skimmed, h.skim]

theorem SpellsPadded.skim {cs : List Char} {d : Draft} : SpellsPadded cs d → d.skim = none
  | .mk _ h _ => h.skim

theorem SpellsItems.skim {cs : List Char} {ds : List Draft} :
    SpellsItems cs ds → Draft.skimItems ds = none
  | .one h => by simp [Draft.skimItems, h.skim]
  | .more h h' => by simp [Draft.skimItems, h.skim, h'.skim]

theorem SpellsMember.skim {cs : List Char} {m : Option String × Draft} :
    SpellsMember cs m → m.2.skim = none
  | .mk _ _ _ h => h.skim

theorem SpellsMembers.skim {cs : List Char} {ms : List (Option String × Draft)} :
    SpellsMembers cs ms → Draft.skimMembers ms = none
  | .one h => by simp [Draft.skimMembers, h.skim]
  | .more h h' => by simp [Draft.skimMembers, h.skim, h'.skim]

end

/-! ### Whole texts -/

/-- A text is JSON of a value if and only if this is the value that is read, nothing of it is
broken, and nothing follows it. -/
theorem isJson_iff {s : String} {d : Draft} :
    IsJson s d ↔ read s = ⟨d, false⟩ ∧ d.skim = none := by
  constructor
  · intro h
    refine ⟨?_, SpellsPadded.skim h⟩
    unfold IsJson at h
    unfold read
    generalize s.toList = cs at h ⊢
    cases h with
    | @mk before cs after _ hbefore hd hafter =>
        have hallowance : 3 * cs.length ≤ 3 * (before ++ (cs ++ after)).length + 2 + 1 := by
          simp only [List.length_append]
          omega
        have hend : skipSpacing after = [] := by
          rw [← List.append_nil after, skipSpacing_gap_append hafter]
          rfl
        have hread := readValue_complete hd hbefore (delimited_of_isGap hafter) hallowance
        dsimp only
        rw [hread]
        simp [hend]
  · rintro ⟨hread, hskim⟩
    unfold read at hread
    dsimp only at hread
    split at hread
    · rename_i hvalue
      cases hread
      exact absurd hskim ((broken _).1 hvalue)
    · rename_i rest hvalue
      simp at hread
      obtain ⟨rfl, hrest⟩ := hread
      have hvalues : ValuesSpelled (3 * s.toList.length + 3) := (spelled _).1
      obtain ⟨used, hcs, hd⟩ := hvalues.padded hvalue hrest
      unfold IsJson
      rwa [hcs, List.append_nil]

/-- A text is JSON of one value only. -/
theorem IsJson.unique {s : String} {d d' : Draft} (h : IsJson s d) (h' : IsJson s d') : d = d' := by
  have hread := (isJson_iff.mp h).1.symm.trans (isJson_iff.mp h').1
  exact congrArg Document.value hread

end SyntaxInspector.Json
