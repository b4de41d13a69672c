import SyntaxInspector.Proofs.JsonTokens

/-! # What is read as JSON is JSON

Reading a value, items or members goes on behind them only if they are spelled by the characters
that have been read (`spelled`), and it stops only at a break (`broken`).  Both are proved for all
four reading functions at once, by induction on the allowance they share. -/

namespace SyntaxInspector.Json

/-! ### Spacing -/

theorem IsGap.append {before gap : List Char} (h : IsGap before) (h' : IsGap gap) :
    IsGap (before ++ gap) := by
  intro c hc
  rcases List.mem_append.mp hc with hc | hc
  · exact h c hc
  · exact h' c hc

theorem exists_gap (cs : List Char) : ∃ gap, cs = gap ++ skipSpacing cs ∧ IsGap gap := by
  exact ⟨cs.takeWhile isSpacing, List.takeWhile_append_dropWhile.symm,
    fun _ => List.mem_takeWhile_imp⟩

theorem exists_gap_of_eq {cs rest : List Char} (h : skipSpacing cs = rest) :
    ∃ gap, cs = gap ++ rest ∧ IsGap gap := by
  subst h
  exact exists_gap cs

theorem SpellsPadded.gap_append {gap cs : List Char} {d : Draft} (hgap : IsGap gap)
    (h : SpellsPadded cs d) : SpellsPadded (gap ++ cs) d := by
  cases h with
  | mk hbefore hd hafter =>
      rw [← List.append_assoc]
      exact .mk (hgap.append hbefore) hd hafter

theorem SpellsItems.gap_append {gap cs : List Char} {ds : List Draft} (hgap : IsGap gap)
    (h : SpellsItems cs ds) : SpellsItems (gap ++ cs) ds := by
  cases h with
  | one h => exact .one (h.gap_append hgap)
  | more h h' =>
      rw [← List.append_assoc]
      exact .more (h.gap_append hgap) h'

theorem SpellsMember.gap_append {gap cs : List Char} {m : Option String × Draft}
    (hgap : IsGap gap) (h : SpellsMember cs m) : SpellsMember (gap ++ cs) m := by
  cases h with
  | mk hbefore hkey hcolon hd =>
      rw [← List.append_assoc]
      exact .mk (hgap.append hbefore) hkey hcolon hd

theorem SpellsMembers.gap_append {gap cs : List Char} {ms : List (Option String × Draft)}
    (hgap : IsGap gap) (h : SpellsMembers cs ms) : SpellsMembers (gap ++ cs) ms := by
  cases h with
  | one h => exact .one (h.gap_append hgap)
  | more h h' =>
      rw [← List.append_assoc]
      exact .more (h.gap_append hgap) h'

/-- Values read with an allowance are spelled by what is read. -/
def ValuesSpelled (n : Nat) : Prop :=
  ∀ {cs rest : List Char} {d : Draft}, readValue n cs = (d, some rest) →
    ∃ before used, cs = before ++ (used ++ rest) ∧ IsGap before ∧ Spells used d

/-- Items read with an allowance are spelled by what is read before the closing sign. -/
def ItemsSpelled (n : Nat) : Prop :=
  ∀ {cs rest : List Char} {ds : List Draft} {e : Ending}, readItems n cs = (ds, e, some rest) →
    e = .closed ∧ ∃ used, cs = used ++ ']' :: rest ∧ SpellsItems used ds

/-- Members read with an allowance are spelled by what is read before the closing sign. -/
def MembersSpelled (n : Nat) : Prop :=
  ∀ {cs rest : List Char} {ms : List (Option String × Draft)} {e : Ending},
    readMembers n cs = (ms, e, some rest) →
      e = .closed ∧ ∃ used, cs = used ++ '\x7d' :: rest ∧ SpellsMembers used ms

/-- The value of a member stands behind a colon. -/
def MemberValuesSpelled (n : Nat) : Prop :=
  ∀ {cs rest : List Char} {d : Draft}, readMemberValue n cs = (d, some rest) →
    ∃ gap before used, cs = gap ++ ':' :: (before ++ (used ++ rest)) ∧ IsGap gap ∧
      IsGap before ∧ Spells used d

theorem readName_sound {name cs rest : List Char} (h : readName name cs = .ok rest) :
    cs = name ++ rest := by
  fun_induction readName name cs with
  | case1 cs => exact Except.ok.inj h
  | case2 => cases h
  | case3 n ns cs ih => rw [ih h, List.cons_append]
  | case4 => cases h

theorem named_sound {value d : Draft} {name cs rest : List Char}
    (h : named value name cs = (d, some rest)) : d = value ∧ cs = name ++ rest := by
  unfold named at h
  split at h
  · rename_i hname
    cases h
    exact ⟨rfl, readName_sound hname⟩
  · cases h

theorem scalar_sound {α : Type} {make : α → Draft} {x : Except Break (α × List Char)} {d : Draft}
    {rest : List Char} (h : scalar make x = (d, some rest)) :
    ∃ a, x = .ok (a, rest) ∧ d = make a := by
  unfold scalar at h
  split at h <;> cases h
  exact ⟨_, rfl, rfl⟩

theorem valuesSpelled_succ {n : Nat} (hitems : ItemsSpelled n) (hmembers : MembersSpelled n) :
    ValuesSpelled (n + 1) := by
  intro cs rest d h
  obtain ⟨gap, hcs, hgap⟩ := exists_gap cs
  -- The spacing before the value is the same whatever the value is.
  suffices hused : ∃ used, skipSpacing cs = used ++ rest ∧ Spells used d by
    obtain ⟨used, hskip, hd⟩ := hused
    exact ⟨gap, used, by rw [← hskip, ← hcs], hgap, hd⟩
  unfold readValue at h
  split at h <;> (try rename_i cs' hskip; rw [hskip])
  · cases h
  · obtain ⟨rfl, rfl⟩ := named_sound h
    exact ⟨_, rfl, .nullName⟩
  · obtain ⟨rfl, rfl⟩ := named_sound h
    exact ⟨_, rfl, .trueName⟩
  · obtain ⟨rfl, rfl⟩ := named_sound h
    exact ⟨_, rfl, .falseName⟩
  · obtain ⟨s, hs, rfl⟩ := scalar_sound h
    obtain ⟨used, ps, rfl, hps, rfl⟩ := readQuoted_eq_ok_iff.mp hs
    exact ⟨'"' :: (used ++ ['"']), by simp, .text hps⟩
  · obtain ⟨gap, hcs', hgap⟩ := exists_gap cs'
    split at h
    · cases h
    · rename_i hclose
      cases h
      rw [hcs', hclose]
      exact ⟨'[' :: (gap ++ [']']), by simp, .emptyArray hgap⟩
    · rcases hread : readItems n (skipSpacing cs') with ⟨ds, e, rest'⟩
      rw [hread] at h
      cases h
      obtain ⟨rfl, used, hused, hds⟩ := hitems hread
      rw [hcs', hused]
      exact ⟨'[' :: ((gap ++ used) ++ [']']), by simp, .array (hds.gap_append hgap)⟩
  · obtain ⟨gap, hcs', hgap⟩ := exists_gap cs'
    split at h
    · cases h
    · rename_i hclose
      cases h
      rw [hcs', hclose]
      exact ⟨'\x7b' :: (gap ++ ['\x7d']), by simp, .emptyObject hgap⟩
    · rcases hread : readMembers n (skipSpacing cs') with ⟨ms, e, rest'⟩
      rw [hread] at h
      cases h
      obtain ⟨rfl, used, hused, hms⟩ := hmembers hread
      rw [hcs', hused]
      exact ⟨'\x7b' :: ((gap ++ used) ++ ['\x7d']), by simp, .object (hms.gap_append hgap)⟩
  · split at h
    · obtain ⟨n, hn, rfl⟩ := scalar_sound h
      obtain ⟨used, hused, hn⟩ := readNumeral_sound hn
      exact ⟨used, hused, .number hn⟩
    · cases h

/-- A value that is read up to a sign is spelled, with spacing around it, by what precedes it. -/
theorem ValuesSpelled.padded {n : Nat} (h : ValuesSpelled n) {cs rest rest' : List Char} {d : Draft}
    (hread : readValue n cs = (d, some rest)) (hskip : skipSpacing rest = rest') :
    ∃ used, cs = used ++ rest' ∧ SpellsPadded used d := by
  obtain ⟨before, used, rfl, hbefore, hd⟩ := h hread
  obtain ⟨after, rfl, hafter⟩ := exists_gap_of_eq hskip
  exact ⟨before ++ (used ++ after), by simp, .mk hbefore hd hafter⟩

theorem itemsSpelled_succ {n : Nat} (hvalues : ValuesSpelled n) (hitems : ItemsSpelled n) :
    ItemsSpelled (n + 1) := by
  intro cs rest ds e h
  unfold readItems at h
  split at h
  · cases h
  · rename_i d cs' hvalue
    split at h
    · cases h
    · rename_i cs₁ hskip
      obtain ⟨used, rfl, hd⟩ := hvalues.padded hvalue hskip
      cases h
      exact ⟨rfl, used, rfl, .one hd⟩
    · rename_i cs₁ hskip
      obtain ⟨used, rfl, hd⟩ := hvalues.padded hvalue hskip
      split at h
      · cases h
      · cases h
      · rcases hread : readItems n (skipSpacing cs₁) with ⟨ds, e, rest'⟩
        rw [hread] at h
        cases h
        obtain ⟨rfl, used', hused, hds⟩ := hitems hread
        obtain ⟨gap, hcs₁, hgap⟩ := exists_gap cs₁
        rw [hcs₁, hused]
        exact ⟨rfl, used ++ ',' :: (gap ++ used'), by simp, .more hd (hds.gap_append hgap)⟩
    · cases h

theorem memberValuesSpelled_succ {n : Nat} (hvalues : ValuesSpelled n) :
    MemberValuesSpelled (n + 1) := by
  intro cs rest d h
  unfold readMemberValue at h
  split at h
  · cases h
  · rename_i cs' hskip
    obtain ⟨gap, rfl, hgap⟩ := exists_gap_of_eq hskip
    obtain ⟨before, used, rfl, hbefore, hd⟩ := hvalues h
    exact ⟨gap, before, used, rfl, hgap, hbefore, hd⟩
  · cases h

/-- A member that is read up to a sign is spelled by what precedes it. -/
theorem MemberValuesSpelled.member {n : Nat} (h : MemberValuesSpelled n)
    {cs cs' rest rest' : List Char} {key : Option String} {d : Draft}
    (hkey : readQuoted {} cs = .ok (key, cs')) (hread : readMemberValue n cs' = (d, some rest))
    (hskip : skipSpacing rest = rest') :
    ∃ used, '"' :: cs = used ++ rest' ∧ SpellsMember used (key, d) := by
  obtain ⟨name, ps, rfl, hps, rfl⟩ := readQuoted_eq_ok_iff.mp hkey
  obtain ⟨gap, before, used, rfl, hgap, hbefore, hd⟩ := h hread
  obtain ⟨after, rfl, hafter⟩ := exists_gap_of_eq hskip
  have hnone : IsGap [] := by simp [IsGap]
  exact ⟨_, by simp, .mk hnone hps hgap (.mk hbefore hd hafter)⟩

theorem membersSpelled_succ {n : Nat} (hvalues : MemberValuesSpelled n)
    (hmembers : MembersSpelled n) : MembersSpelled (n + 1) := by
  intro cs rest ms e h
  unfold readMembers at h
  split at h
  · cases h
  · rename_i m cs₁ hm
    obtain rfl : n = m := Nat.succ.inj hm
    split at h
    · cases h
    · rename_i key cs₂ hkey
      split at h
      · cases h
      · rename_i d cs₃ hvalue
        split at h
        · cases h
        · rename_i cs₄ hskip
          obtain ⟨used, hcs, hm⟩ := hvalues.member hkey hvalue hskip
          cases h
          exact ⟨rfl, used, hcs, .one hm⟩
        · rename_i cs₄ hskip
          obtain ⟨used, hcs, hm⟩ := hvalues.member hkey hvalue hskip
          split at h
          · cases h
          · rcases hread : readMembers n (skipSpacing cs₄) with ⟨ms, e, rest'⟩
            simp only [hread] at h
            cases h
            obtain ⟨rfl, used', hused, hms⟩ := hmembers hread
            obtain ⟨gap, hcs₄, hgap⟩ := exists_gap cs₄
            rw [hcs, hcs₄, hused]
            exact ⟨rfl, used ++ ',' :: (gap ++ used'), by simp, .more hm (hms.gap_append hgap)⟩
        · cases h
  · cases h

theorem spelled (n : Nat) :
    ValuesSpelled n ∧ ItemsSpelled n ∧ MembersSpelled n ∧ MemberValuesSpelled n := by
  induction n with
  | zero =>
      refine ⟨?_, ?_, ?_, ?_⟩
      · intro cs rest d h
        cases h
      · intro cs rest d e h
        cases h
      · intro cs rest d e h
        cases h
      · intro cs rest d h
        cases h
  | succ n ih =>
      obtain ⟨hvalues, hitems, hmembers, hmemberValues⟩ := ih
      exact ⟨valuesSpelled_succ hitems hmembers, itemsSpelled_succ hvalues hitems,
        membersSpelled_succ hmemberValues hmembers, memberValuesSpelled_succ hvalues⟩

/-! ### Values that are broken -/

/-- Reading a value stops only at a break. -/
def ValuesBroken (n : Nat) : Prop :=
  ∀ {cs : List Char} {d : Draft}, readValue n cs = (d, none) → d.skim ≠ none

/-- Reading items stops only at a break. -/
def ItemsBroken (n : Nat) : Prop :=
  ∀ {cs : List Char} {ds : List Draft} {e : Ending}, readItems n cs = (ds, e, none) →
    (Draft.skimItems ds).or e.skimmed ≠ none

/-- Reading members stops only at a break. -/
def MembersBroken (n : Nat) : Prop :=
  ∀ {cs : List Char} {ms : List (Option String × Draft)} {e : Ending},
    readMembers n cs = (ms, e, none) → (Draft.skimMembers ms).or e.skimmed ≠ none

/-- Reading the value of a member stops only at a break. -/
def MemberValuesBroken (n : Nat) : Prop :=
  ∀ {cs : List Char} {d : Draft}, readMemberValue n cs = (d, none) → d.skim ≠ none

theorem named_broken {value d : Draft} {name cs : List Char}
    (h : named value name cs = (d, none)) : d.skim ≠ none := by
  unfold named at h
  split at h <;> cases h
  simp [Draft.skim]

theorem scalar_broken {α : Type} {make : α → Draft} {x : Except Break (α × List Char)} {d : Draft}
    (h : scalar make x = (d, none)) : d.skim ≠ none := by
  unfold scalar at h
  split at h <;> cases h
  simp [Draft.skim]

theorem valuesBroken_succ {n : Nat} (hitems : ItemsBroken n) (hmembers : MembersBroken n) :
    ValuesBroken (n + 1) := by
  intro cs d h
  unfold readValue at h
  split at h
  · cases h
    simp [Draft.skim]
  · exact named_broken h
  · exact named_broken h
  · exact named_broken h
  · exact scalar_broken h
  · rename_i cs' hskip
    split at h
    · cases h
      simp [Draft.skim, Draft.skimItems, Ending.skimmed]
    · cases h
    · rcases hread : readItems n (skipSpacing cs') with ⟨ds, e, rest⟩
      rw [hread] at h
      cases h
      exact hitems hread
  · rename_i cs' hskip
    split at h
    · cases h
      simp [Draft.skim, Draft.skimMembers, Ending.skimmed]
    · cases h
    · rcases hread : readMembers n (skipSpacing cs') with ⟨ms, e, rest⟩
      rw [hread] at h
      cases h
      exact hmembers hread
  · split at h
    · exact scalar_broken h
    · cases h
      simp [Draft.skim]

theorem itemsBroken_succ {n : Nat} (hvalues : ValuesBroken n) (hitems : ItemsBroken n) :
    ItemsBroken (n + 1) := by
  intro cs ds e h
  unfold readItems at h
  split at h
  · rename_i d hvalue
    cases h
    simp [Draft.skimItems, hvalues hvalue]
  · split at h
    · cases h
      simp [Ending.skimmed]
    · cases h
    · rename_i cs₁ _
      split at h
      · cases h
        simp [Ending.skimmed]
      · cases h
        simp [Ending.skimmed]
      · rcases hread : readItems n (skipSpacing cs₁) with ⟨ds, e, rest⟩
        rw [hread] at h
        cases h
        have hbroken := hitems hread
        rw [Draft.skimItems, Option.or_assoc]
        exact fun hnone => hbroken (Option.or_eq_none_iff.mp hnone).2
    · cases h
      simp [Ending.skimmed]

theorem membersBroken_succ {n : Nat} (hvalues : MemberValuesBroken n)
    (hmembers : MembersBroken n) : MembersBroken (n + 1) := by
  intro cs ms e h
  unfold readMembers at h
  split at h
  · cases h
    simp [Ending.skimmed]
  · rename_i m cs₁ hm
    obtain rfl : n = m := Nat.succ.inj hm
    split at h
    · cases h
      simp [Ending.skimmed]
    · split at h
      · rename_i d hvalue
        cases h
        simp [Draft.skimMembers, hvalues hvalue]
      · split at h
        · cases h
          simp [Ending.skimmed]
        · cases h
        · rename_i cs₄ _
          split at h
          · cases h
            simp [Ending.skimmed]
          · rcases hread : readMembers n (skipSpacing cs₄) with ⟨ms, e, rest⟩
            simp only [hread] at h
            cases h
            have hbroken := hmembers hread
            rw [Draft.skimMembers, Option.or_assoc]
            exact fun hnone => hbroken (Option.or_eq_none_iff.mp hnone).2
        · cases h
          simp [Ending.skimmed]
  · cases h
    simp [Ending.skimmed]

theorem memberValuesBroken_succ {n : Nat} (hvalues : ValuesBroken n) :
    MemberValuesBroken (n + 1) := by
  intro cs d h
  unfold readMemberValue at h
  split at h
  · cases h
    simp [Draft.skim]
  · exact hvalues h
  · cases h
    simp [Draft.skim]

theorem broken (n : Nat) :
    ValuesBroken n ∧ ItemsBroken n ∧ MembersBroken n ∧ MemberValuesBroken n := by
  induction n with
  | zero =>
      refine ⟨?_, ?_, ?_, ?_⟩
      · intro cs d h
        cases h
        simp [Draft.skim]
      · intro cs ds e h
        cases h
        simp [Ending.skimmed]
      · intro cs ms e h
        cases h
        simp [Ending.skimmed]
      · intro cs d h
        cases h
        simp [Draft.skim]
  | succ n ih =>
      obtain ⟨hvalues, hitems, hmembers, hmemberValues⟩ := ih
      exact ⟨valuesBroken_succ hitems hmembers, itemsBroken_succ hvalues hitems,
        membersBroken_succ hmemberValues hmembers, memberValuesBroken_succ hvalues⟩

end SyntaxInspector.Json
