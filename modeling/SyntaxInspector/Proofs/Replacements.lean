import SyntaxInspector.Tree.Graph

/-! # Characters replaced by texts

A search goes through a text in steps: it finds the character, or it passes over a stretch without
it.  Replacing the character follows these steps.  It puts the new text where the character was
found and keeps the stretches.

* `toList_replace`: the outcome has the new text for every occurrence of the character and all other
  characters as they are (`exchange`), wherever the steps of the search begin and end. -/

namespace SyntaxInspector.Text

open String.Slice.Pattern (SearchStep ToForwardSearcher)
open String.Slice.Pattern.Model (IsValidSearchFrom LawfulToForwardSearcherModel MatchesAt)

/-- What stands for `d` once `new` has been put in place of `c`. -/
def exchange (c : Char) (new : List Char) (d : Char) : List Char := if d = c then new else [d]

theorem flatMap_exchange_of_not_mem {c : Char} {cs : List Char} (h : c ∉ cs) (new : List Char) :
    cs.flatMap (exchange c new) = cs := by
  induction cs with
  | nil => rfl
  | cons d cs ih =>
      rw [List.mem_cons, not_or] at h
      rw [List.flatMap_cons, ih h.2, exchange, if_neg (Ne.symm h.1), List.singleton_append]

/-- What a step of a search adds to the text that is put together. -/
def appendStep {s : String.Slice} (new done : String) : SearchStep s → String
  | .matched _ _ => done ++ new
  | .rejected p q => done ++ s.slice! p q

theorem replace_eq_foldl (s : String) (c : Char) (new : String) :
    s.replace c new =
      (ToForwardSearcher.toSearcher c s.toSlice).toList.foldl (appendStep new) "" := by
  rw [Std.Iter.foldl_toList]
  unfold String.replace String.Slice.replace
  congr 1
  funext done step
  cases step with
  | rejected p q => rfl
  | matched p q =>
      rw [appendStep, ← String.toList_inj]
      simp [String.ToSlice.toSlice]

/-- The stretches that a search passes over are free of the character. -/
theorem not_mem_slice {s : String.Slice} {c : Char} {p q : s.Pos} (hle : p ≤ q)
    (h : ∀ m, p ≤ m → m < q → ¬ MatchesAt c m) : c ∉ (s.slice p q hle).copy.toList := by
  rw [String.Slice.mem_toList_copy_iff_exists_get]
  rintro ⟨m, hm, hc⟩
  rw [String.Slice.Pos.get_eq_get_ofSlice] at hc
  have hlt : String.Slice.Pos.ofSlice m < q := by
    have := String.Slice.Pos.ofSlice_lt_ofSlice_iff.mpr ((String.Slice.Pos.lt_endPos_iff m).mpr hm)
    rwa [String.Slice.Pos.ofSlice_endPos] at this
  exact h _ String.Slice.Pos.le_ofSlice hlt
    (String.Slice.Pattern.Model.Char.matchesAt_iff.mpr ⟨_, hc⟩)

/-- From any place on, the steps of a search put the rest of the text together, character by
character. -/
theorem toList_foldl_appendStep {s : String.Slice} {c : Char} {p : s.Pos}
    {steps : List (SearchStep s)} (h : IsValidSearchFrom c p steps) (new done : String) :
    (steps.foldl (appendStep new) done).toList =
      done.toList ++ (s.sliceFrom p).copy.toList.flatMap (exchange c new.toList) := by
  induction h generalizing done with
  | endPos => simp
  | @matched steps p q hmatch _ ih =>
      obtain ⟨hp, rfl, hc⟩ := String.Slice.Pattern.Model.Char.isLongestMatchAt_iff.mp hmatch
      have hrest := p.splits.eq_right (String.Slice.Pos.splits_next_right p hp)
      rw [List.foldl_cons, ih, hrest, hc]
      simp [appendStep, exchange]
  | @mismatched steps p q hlt hno _ ih =>
      have hle : p ≤ q := Std.le_of_lt hlt
      obtain ⟨before, after, hp, hq⟩ := String.Slice.copy_slice_eq_iff_splits.mp ⟨hle, rfl⟩
      rw [List.foldl_cons, ih, p.splits.eq_right hp, q.splits.eq_right hq, appendStep,
        ← @String.Slice.slice_eq_slice! s p q hle, String.toList_append, List.flatMap_append,
        flatMap_exchange_of_not_mem (not_mem_slice hle hno)]
      simp

/-- A replacement treats each character on its own. -/
theorem toList_replace (s : String) (c : Char) (new : String) :
    (s.replace c new).toList = s.toList.flatMap (exchange c new.toList) := by
  have hsearch : IsValidSearchFrom c s.toSlice.startPos
      (ToForwardSearcher.toSearcher c s.toSlice).toList :=
    LawfulToForwardSearcherModel.isValidSearchFrom_toList _
  rw [replace_eq_foldl, toList_foldl_appendStep hsearch]
  simp

end SyntaxInspector.Text
