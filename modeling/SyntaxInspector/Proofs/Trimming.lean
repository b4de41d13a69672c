import Mathlib.Data.List.TakeWhile
import SyntaxInspector.Text.Blank

/-! # Trimmed texts

What is left of a text without the blank characters at its ends: nothing if and only if it is blank,
and otherwise a text that is not blank either.  Blank characters added at the ends make no
difference, and a text without any is left as it is. -/

namespace SyntaxInspector.Text

theorem trimChars_eq_nil_iff (cs : List Char) : trimChars cs = [] ↔ ∀ c ∈ cs, isBlank c := by
  rw [trimChars, List.reverse_eq_nil_iff, List.dropWhile_eq_nil_iff]
  simp only [List.mem_reverse]
  constructor
  · intro h c hc
    rw [← @List.takeWhile_append_dropWhile _ isBlank cs] at hc
    rcases List.mem_append.mp hc with hc | hc
    · exact List.mem_takeWhile_imp hc
    · exact h c hc
  · intro h c hc
    exact h c (List.dropWhile_sublist isBlank |>.subset hc)

/-- Nothing is left of a text if and only if it is blank. -/
theorem trim_eq_empty_iff (s : String) : trim s = "" ↔ isBlankText s = true := by
  rw [← String.toList_inj, toList_trim, isBlankText, List.all_eq_true]
  exact trimChars_eq_nil_iff s.toList

/-- A text of two parts is blank if both of them are. -/
theorem isBlankText_append (s t : String) :
    isBlankText (s ++ t) = (isBlankText s && isBlankText t) := by
  rw [isBlankText, String.toList_append, List.all_append, isBlankText, isBlankText]

theorem isBlankText_append_of_left {s : String} (h : isBlankText s = false) (t : String) :
    isBlankText (s ++ t) = false := by
  rw [isBlankText_append, h, Bool.false_and]

theorem isBlankText_append_of_right (s : String) {t : String} (h : isBlankText t = false) :
    isBlankText (s ++ t) = false := by
  rw [isBlankText_append, h, Bool.and_false]

/-- Only blank characters are trimmed. -/
theorem mem_trimChars {cs : List Char} {c : Char} (h : c ∈ cs) (hc : isBlank c = false) :
    c ∈ trimChars cs := by
  have hkept : ∀ {ds : List Char}, c ∈ ds → c ∈ ds.dropWhile isBlank := by
    intro ds hd
    rw [← @List.takeWhile_append_dropWhile _ isBlank ds] at hd
    rcases List.mem_append.mp hd with hd | hd
    · exact absurd (List.mem_takeWhile_imp hd) (by rw [hc]; exact Bool.false_ne_true)
    · exact hd
  exact List.mem_reverse.mpr (hkept (List.mem_reverse.mpr (hkept h)))

/-- Trimming leaves no blank text of one that is not blank. -/
theorem isBlankText_trim {s : String} (h : isBlankText s = false) :
    isBlankText (trim s) = false := by
  rw [isBlankText, List.all_eq_false] at h ⊢
  obtain ⟨c, hmem, hc⟩ := h
  refine ⟨c, ?_, hc⟩
  rw [toList_trim]
  exact mem_trimChars hmem (Bool.eq_false_iff.mpr hc)

/-- Blank characters around a text are trimmed with those that it has at its ends. -/
theorem trimChars_append {before after : List Char} (hbefore : ∀ c ∈ before, isBlank c = true)
    (hafter : ∀ c ∈ after, isBlank c = true) (cs : List Char) :
    trimChars (before ++ cs ++ after) = trimChars cs := by
  have hback : ∀ c ∈ after.reverse, isBlank c = true := fun c hc =>
    hafter c (List.mem_reverse.mp hc)
  rw [List.append_assoc, trimChars, List.dropWhile_append_of_pos hbefore, List.dropWhile_append]
  split
  · -- The text itself is blank, too.
    rename_i hblank
    rw [List.isEmpty_iff] at hblank
    rw [List.dropWhile_eq_nil_iff.mpr hafter, trimChars, hblank]
  · rw [List.reverse_append, List.dropWhile_append_of_pos hback, trimChars]

theorem trim_append {before after : String} (hbefore : isBlankText before = true)
    (hafter : isBlankText after = true) (s : String) : trim (before ++ s ++ after) = trim s := by
  rw [isBlankText, List.all_eq_true] at hbefore hafter
  rw [trim, String.toList_append, String.toList_append, trimChars_append hbefore hafter, trim]

/-- Nothing is trimmed from a text without blank characters. -/
theorem trim_eq_self {s : String} (h : ∀ c ∈ s.toList, isBlank c = false) : trim s = s := by
  have hkept : ∀ cs : List Char, (∀ c ∈ cs, isBlank c = false) → cs.dropWhile isBlank = cs := by
    intro cs hcs
    cases cs with
    | nil => rfl
    | cons c cs =>
        have hc : ¬ isBlank c = true := Bool.not_eq_true _ ▸ hcs c List.mem_cons_self
        rw [List.dropWhile_cons, if_neg hc]
  have hback : ∀ c ∈ s.toList.reverse, isBlank c = false := fun c hc => h c (List.mem_reverse.mp hc)
  rw [trim, trimChars, hkept s.toList h, hkept _ hback, List.reverse_reverse, String.ofList_toList]

end SyntaxInspector.Text
