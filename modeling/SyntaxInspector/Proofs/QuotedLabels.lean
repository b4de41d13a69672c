import SyntaxInspector.Proofs.GraphReading

/-! # Labels between quotes

Backslashes that stand side by side pair up from the first one on.  So the number of backslashes
directly in front of a quote tells whether one is left over for it: the quote is a character of the
text if the number is odd, and it ends the text if the number is even.

* `Enclosable` is a text that is ended by the quote behind it and by no quote before.  Reading stops
  behind such a text (`exists_enclosable_of_readQuoted`).
* A written label is enclosable, whatever runs of backslashes and quotes it has, also at its end,
  and it is read back.  Its two replacements in turn come to one substitution for each character; so
  labels can be written piece by piece, and different labels are written differently
  (`readQuoted_escapeLabel_and_injective`). -/

namespace SyntaxInspector.Dot

/-! ### Backslashes in front of a quote -/

/-- The number of backslashes at the end of a text. -/
def trailingBackslashes (cs : List Char) : Nat := (cs.reverse.takeWhile (· = '\\')).length

theorem trailingBackslashes_le_length (cs : List Char) : trailingBackslashes cs ≤ cs.length := by
  have := (List.takeWhile_sublist (l := cs.reverse) (· = '\\')).length_le
  rwa [List.length_reverse] at this

/-- A backslash in front of backslashes adds to their number; in front of any other text no
character does. -/
theorem trailingBackslashes_cons (c : Char) (cs : List Char) :
    trailingBackslashes (c :: cs) =
      if c = '\\' ∧ trailingBackslashes cs = cs.length then cs.length + 1
      else trailingBackslashes cs := by
  rw [trailingBackslashes, List.reverse_cons, List.takeWhile_append, List.length_reverse]
  by_cases hall : (cs.reverse.takeWhile (· = '\\')).length = cs.length
  · by_cases hc : c = '\\' <;> simp [trailingBackslashes, hall, hc]
  · simp [trailingBackslashes, hall]

theorem trailingBackslashes_cons_of_ne {c : Char} (h : c ≠ '\\') (cs : List Char) :
    trailingBackslashes (c :: cs) = trailingBackslashes cs := by
  rw [trailingBackslashes_cons, if_neg fun hc => h hc.1]

/-- A backslash and the character after it add two backslashes or none. -/
theorem trailingBackslashes_pair_mod (c : Char) (cs : List Char) :
    trailingBackslashes ('\\' :: c :: cs) % 2 = trailingBackslashes cs % 2 := by
  have hle := trailingBackslashes_le_length cs
  rw [trailingBackslashes_cons, trailingBackslashes_cons, List.length_cons]
  by_cases hall : c = '\\' ∧ trailingBackslashes cs = cs.length
  · rw [if_pos hall, if_pos ⟨rfl, rfl⟩, hall.2]
    omega
  · -- The run at the end does not reach the backslash in front.
    rw [if_neg hall, if_neg fun h => absurd h.2 (by omega)]

/-- A text that is ended by the quote behind it and by no quote before. -/
structure Enclosable (cs : List Char) : Prop where
  odd_of_quote : ∀ before after, cs = before ++ '"' :: after → trailingBackslashes before % 2 = 1
  even_at_end : trailingBackslashes cs % 2 = 0

theorem enclosable_nil : Enclosable [] := by
  refine ⟨fun before after h => ?_, rfl⟩
  cases before <;> cases h

theorem Enclosable.cons {c : Char} {cs : List Char} (h : Enclosable cs) (hquote : c ≠ '"')
    (hslash : c ≠ '\\') : Enclosable (c :: cs) := by
  refine ⟨fun before after hcs => ?_, ?_⟩
  · cases before with
    | nil => exact absurd (List.cons.inj hcs).1 hquote
    | cons d before =>
        obtain ⟨rfl, htail⟩ := List.cons.inj hcs
        rw [trailingBackslashes_cons_of_ne hslash]
        exact h.odd_of_quote before after htail
  · rw [trailingBackslashes_cons_of_ne hslash]
    exact h.even_at_end

theorem Enclosable.escaped {cs : List Char} (h : Enclosable cs) (c : Char) :
    Enclosable ('\\' :: c :: cs) := by
  refine ⟨fun before after hcs => ?_, ?_⟩
  · cases before with
    | nil => exact absurd (List.cons.inj hcs).1 (by decide)
    | cons d before =>
        obtain ⟨rfl, hescaped⟩ := List.cons.inj hcs
        cases before with
        | nil => rfl
        | cons e before =>
            obtain ⟨rfl, htail⟩ := List.cons.inj hescaped
            rw [trailingBackslashes_pair_mod]
            exact h.odd_of_quote before after htail
  · rw [trailingBackslashes_pair_mod]
    exact h.even_at_end

/-- Reading stops at the first quote that no backslash is left over for. -/
theorem exists_enclosable_of_readQuoted {cs s rest : List Char}
    (h : readQuoted cs = some (s, rest)) :
    ∃ front, cs = front ++ '"' :: rest ∧ Enclosable front := by
  fun_induction readQuoted cs generalizing s with
  | case1 => cases h
  | case2 cs =>
      cases h
      exact ⟨[], rfl, enclosable_nil⟩
  | case3 c cs ih =>
      obtain ⟨r, hr, he⟩ := Option.map_eq_some_iff.mp h
      cases he
      obtain ⟨front, rfl, hfront⟩ := ih hr
      exact ⟨'\\' :: c :: front, rfl, hfront.escaped c⟩
  | case4 => cases h
  | case5 c cs hquote _ hslash ih =>
      obtain ⟨r, hr, he⟩ := Option.map_eq_some_iff.mp h
      cases he
      obtain ⟨front, rfl, hfront⟩ := ih hr
      exact ⟨c :: front, rfl, hfront.cons hquote hslash⟩

/-! ### Written labels -/

theorem escapeLabel_eq_ofList (s : String) :
    escapeLabel s = String.ofList (s.toList.flatMap escapeChar) := by
  rw [← toList_escapeLabel, String.ofList_toList]

theorem escapeLabel_append (s t : String) :
    escapeLabel (s ++ t) = escapeLabel s ++ escapeLabel t := by
  rw [← String.toList_inj, String.toList_append]
  simp only [toList_escapeLabel, String.toList_append, List.flatMap_append]

theorem enclosable_escapeLabel (s : String) : Enclosable (escapeLabel s).toList := by
  obtain ⟨front, hfront, h⟩ := exists_enclosable_of_readQuoted (readQuoted_escapeLabel s [])
  rwa [List.append_cancel_right hfront]

theorem escapeLabel_inj {s t : String} (h : escapeLabel s = escapeLabel t) : s = t := by
  have hs := readQuoted_escapeLabel s []
  rw [h, readQuoted_escapeLabel, Option.some.injEq, Prod.mk.injEq] at hs
  exact String.toList_inj.mp hs.1.symm

/-- **A label between quotes is read back**, whatever follows the quote behind it: reading stops at
that quote, since one backslash is left over for every quote of the written label and none for that
one.  Putting backslashes in front of all backslashes and then in front of all quotes is the same as
writing character by character.  So a label of two parts is written as the two parts are, and
different labels are written differently. -/
theorem readQuoted_escapeLabel_and_injective :
    (∀ s rest : String,
      readQuoted (escapeLabel s ++ "\"" ++ rest).toList = some (s.toList, rest.toList)) ∧
      (∀ s : String, Enclosable (escapeLabel s).toList) ∧
      (∀ s : String, escapeLabel s = (s.replace '\\' "\\\\").replace '"' "\\\"" ∧
        escapeLabel s = String.ofList (s.toList.flatMap escapeChar)) ∧
      (∀ s t : String, escapeLabel (s ++ t) = escapeLabel s ++ escapeLabel t) ∧
      Function.Injective escapeLabel := by
  refine ⟨fun s rest => ?_, enclosable_escapeLabel, fun s => ⟨rfl, escapeLabel_eq_ofList s⟩,
    escapeLabel_append, fun _ _ => escapeLabel_inj⟩
  have hquote : "\"".toList = ['"'] := rfl
  rw [String.toList_append, String.toList_append, hquote, List.append_assoc, List.singleton_append,
    readQuoted_escapeLabel]

end SyntaxInspector.Dot
