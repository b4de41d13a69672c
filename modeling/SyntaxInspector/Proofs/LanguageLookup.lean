import Mathlib.Data.List.Forall2
import SyntaxInspector.Proofs.FileNames
import SyntaxInspector.Proofs.Trimming
import SyntaxInspector.Run

/-! # How a language is found

The ways to find a language, for all texts.

* `Text.SameButCase` is a text with any change of the case of its ASCII letters; it decides what the
  tables are compared with (`fold_eq_iff`).
* `ofExtension?_eq_some_iff` and `ofName?_eq_some_iff` say which texts find a language.  No text
  belongs to two languages, so the order in which the tables are searched makes no difference
  (`find?_eq_of_perm`). -/

namespace SyntaxInspector

namespace Text

/-! ### The case of ASCII letters -/

/-- The second text is the first, except that letters of ASCII may be in the other case. -/
def SameButCase (s t : String) : Prop :=
  List.Forall₂ (fun c d => d = c ∨ d = c.toLower ∨ d = c.toUpper) s.toList t.toList

theorem upper_iff {c : Char} :
    ('A'.val ≤ c.val ∧ c.val ≤ 'Z'.val) ↔ 65 ≤ c.toNat ∧ c.toNat ≤ 90 := by
  rw [UInt32.le_iff_toNat_le, UInt32.le_iff_toNat_le]
  exact Iff.rfl

theorem lower_iff {c : Char} :
    ('a'.val ≤ c.val ∧ c.val ≤ 'z'.val) ↔ 97 ≤ c.toNat ∧ c.toNat ≤ 122 := by
  rw [UInt32.le_iff_toNat_le, UInt32.le_iff_toNat_le]
  exact Iff.rfl

theorem toNat_toLower (c : Char) :
    c.toLower.toNat = if 65 ≤ c.toNat ∧ c.toNat ≤ 90 then c.toNat + 32 else c.toNat := by
  by_cases h : 65 ≤ c.toNat ∧ c.toNat ≤ 90
  · have hlower : c.toLower = _ := dif_pos (upper_iff.mpr h)
    have hdist : ('a'.val - 'A'.val).toNat = 32 := by decide
    rw [if_pos h, hlower, Char.toNat, UInt32.toNat_add, hdist, ← Char.toNat]
    omega
  · rw [if_neg h]
    exact congrArg Char.toNat (dif_neg (mt upper_iff.mp h))

theorem toNat_toUpper (c : Char) :
    c.toUpper.toNat = if 97 ≤ c.toNat ∧ c.toNat ≤ 122 then c.toNat - 32 else c.toNat := by
  by_cases h : 97 ≤ c.toNat ∧ c.toNat ≤ 122
  · have hupper : c.toUpper = _ := dif_pos (lower_iff.mpr h)
    -- The difference is negative, so it is added as its complement.
    have hdist : ('A'.val - 'a'.val).toNat = 2 ^ 32 - 32 := by decide
    rw [if_pos h, hupper, Char.toNat, UInt32.toNat_add, hdist, ← Char.toNat]
    omega
  · rw [if_neg h]
    exact congrArg Char.toNat (dif_neg (mt lower_iff.mp h))

theorem toLower_eq_iff {c d : Char} :
    c.toLower = d.toLower ↔ d = c ∨ d = c.toLower ∨ d = c.toUpper := by
  simp only [← Char.toNat_inj, toNat_toLower, toNat_toUpper]
  split <;> split <;> split <;> omega

theorem isBlank_eq_false_of_letter {c : Char}
    (h : (65 ≤ c.toNat ∧ c.toNat ≤ 90) ∨ (97 ≤ c.toNat ∧ c.toNat ≤ 122)) : isBlank c = false := by
  simp [isBlank]
  omega

theorem isBlank_eq_false_of_isAlpha {c : Char} (h : c.isAlpha = true) : isBlank c = false := by
  have hcase : (c.isUpper || c.isLower) = true := h
  rcases Bool.or_eq_true_iff.mp hcase with hupper | hlower
  · exact isBlank_eq_false_of_letter (.inl (upper_iff.mp (of_decide_eq_true hupper)))
  · have hboth : (decide ('a'.val ≤ c.val) && decide (c.val ≤ 'z'.val)) = true := hlower
    rw [Bool.and_eq_true, decide_eq_true_iff, decide_eq_true_iff, lower_iff] at hboth
    exact isBlank_eq_false_of_letter (.inr hboth)

/-- No letter is blank, so the case makes no difference. -/
theorem isBlank_toLower (c : Char) : isBlank c.toLower = isBlank c := by
  by_cases h : 65 ≤ c.toNat ∧ c.toNat ≤ 90
  · have hlower : c.toLower.toNat = c.toNat + 32 := by rw [toNat_toLower, if_pos h]
    rw [isBlank_eq_false_of_letter (.inl h), isBlank_eq_false_of_letter (.inr (by omega))]
  · have hsame : c.toLower.toNat = c.toNat := by rw [toNat_toLower, if_neg h]
    rw [isBlank, isBlank, hsame]

theorem trimChars_map_toLower (cs : List Char) :
    trimChars (cs.map Char.toLower) = (trimChars cs).map Char.toLower := by
  have hblank : isBlank ∘ Char.toLower = isBlank := funext isBlank_toLower
  rw [trimChars, List.dropWhile_map, hblank, ← List.map_reverse, List.dropWhile_map, hblank,
    ← List.map_reverse, trimChars]

end Text

namespace Language

open Text (SameButCase)

/-! ### Texts that spell a language -/

/-- The names of a language, one of them its usual extension. -/
def names (l : Language) : List String := [l.displayName, l.fenceTag, l.mainExtension]

/-- The language has this extension, in upper or lower case. -/
def hasExtension (l : Language) (ext : String) : Bool :=
  l.extensions.any (·.toList == fold ext)

theorem fold_eq_iff {s t : String} : fold s = fold t ↔ SameButCase s t := by
  rw [fold, fold, ← List.forall₂_eq_eq_eq, List.forall₂_map_left_iff, List.forall₂_map_right_iff,
    SameButCase]
  simp only [Text.toLower_eq_iff]

theorem fold_trim (s : String) : fold (Text.trim s) = Text.trimChars (fold s) := by
  rw [fold, Text.toList_trim, ← Text.trimChars_map_toLower, fold]

/-- Extensions are listed in lower case. -/
theorem fold_of_mem_extensions {l : Language} {e : String} (h : e ∈ l.extensions) :
    fold e = e.toList := by
  have hall : ∀ l ∈ all, ∀ e ∈ l.extensions, fold e = e.toList := by decide
  exact hall l (mem_all l) e h

theorem hasExtension_iff {l : Language} {ext : String} :
    l.hasExtension ext = true ↔ ∃ e ∈ l.extensions, SameButCase e ext := by
  rw [hasExtension, List.any_eq_true]
  refine exists_congr fun e => and_congr_right fun he => ?_
  rw [beq_iff_eq, ← fold_eq_iff, fold_of_mem_extensions he]

theorem hasName_iff {l : Language} {name : String} :
    l.hasName name = true ↔ ∃ n ∈ l.names, SameButCase n name := by
  simp [hasName, sameFold, names, ← fold_eq_iff, eq_comm (a := fold name), or_assoc]

/-- No name and no extension belongs to two languages, whatever the case. -/
theorem eq_of_sameButCase {l₁ l₂ : Language} {s₁ s₂ t : String}
    (h₁ : s₁ ∈ l₁.names ++ l₁.extensions) (h₂ : s₂ ∈ l₂.names ++ l₂.extensions)
    (hs₁ : SameButCase s₁ t) (hs₂ : SameButCase s₂ t) : l₁ = l₂ := by
  have hall : ∀ l₁ ∈ all, ∀ s₁ ∈ l₁.names ++ l₁.extensions, ∀ l₂ ∈ all,
      ∀ s₂ ∈ l₂.names ++ l₂.extensions, fold s₁ = fold s₂ → l₁ = l₂ := by decide
  refine hall l₁ (mem_all l₁) s₁ h₁ l₂ (mem_all l₂) s₂ h₂ ?_
  rw [fold_eq_iff.mpr hs₁, fold_eq_iff.mpr hs₂]

theorem eq_of_hasExtension {l₁ l₂ : Language} {ext : String} (h₁ : l₁.hasExtension ext = true)
    (h₂ : l₂.hasExtension ext = true) : l₁ = l₂ := by
  obtain ⟨e₁, he₁, hs₁⟩ := hasExtension_iff.mp h₁
  obtain ⟨e₂, he₂, hs₂⟩ := hasExtension_iff.mp h₂
  exact eq_of_sameButCase (List.mem_append_right _ he₁) (List.mem_append_right _ he₂) hs₁ hs₂

theorem eq_of_hasName {l₁ l₂ : Language} {name : String} (h₁ : l₁.hasName name = true)
    (h₂ : l₂.hasName name = true) : l₁ = l₂ := by
  obtain ⟨n₁, hn₁, hs₁⟩ := hasName_iff.mp h₁
  obtain ⟨n₂, hn₂, hs₂⟩ := hasName_iff.mp h₂
  exact eq_of_sameButCase (List.mem_append_left _ hn₁) (List.mem_append_left _ hn₂) hs₁ hs₂

/-! ### Searching the languages -/

/-- The first language that is found is the only one, in whatever order they are searched. -/
theorem find?_eq_some_iff {p : Language → Bool} (hp : ∀ l₁ l₂, p l₁ = true → p l₂ = true → l₁ = l₂)
    {order : List Language} (horder : order.Perm all) {l : Language} :
    order.find? p = some l ↔ p l = true := by
  refine ⟨List.find?_some, fun h => ?_⟩
  have hmem : l ∈ order := horder.mem_iff.mpr (mem_all l)
  cases hfind : order.find? p with
  | none => exact absurd h (List.find?_eq_none.mp hfind l hmem)
  | some l' => rw [hp l' l (List.find?_some hfind) h]

theorem find?_eq_of_perm {p : Language → Bool}
    (hp : ∀ l₁ l₂, p l₁ = true → p l₂ = true → l₁ = l₂) {order : List Language}
    (horder : order.Perm all) : order.find? p = all.find? p := by
  ext l
  rw [find?_eq_some_iff hp horder, find?_eq_some_iff hp (List.Perm.refl all)]

theorem ofExtension?_eq_some_iff {ext : String} {l : Language} :
    ofExtension? ext = some l ↔ ∃ e ∈ l.extensions, SameButCase e ext := by
  rw [← hasExtension_iff]
  exact find?_eq_some_iff (fun _ _ => eq_of_hasExtension) (List.Perm.refl all)

theorem ofName?_eq_some_iff {name : String} {l : Language} :
    ofName? name = some l ↔ ∃ n ∈ l.names, SameButCase n (Text.trim name) := by
  rw [← hasName_iff]
  exact find?_eq_some_iff (fun _ _ => eq_of_hasName) (List.Perm.refl all)

theorem ofExtension?_congr {s t : String} (h : SameButCase s t) :
    ofExtension? s = ofExtension? t := by
  rw [ofExtension?, ofExtension?, fold_eq_iff.mpr h]

theorem ofName?_congr {s t : String} (h : SameButCase s t) : ofName? s = ofName? t := by
  have htrim : fold (Text.trim s) = fold (Text.trim t) := by
    rw [fold_trim, fold_trim, fold_eq_iff.mpr h]
  simp only [ofName?, hasName, sameFold, htrim]

/-- No extension has a blank character. -/
theorem isBlank_eq_false_of_ofExtension? {ext : String} {l : Language}
    (h : ofExtension? ext = some l) : ∀ c ∈ ext.toList, Text.isBlank c = false := by
  obtain ⟨e, he, hs⟩ := ofExtension?_eq_some_iff.mp h
  have hletters : ∀ l ∈ all, ∀ e ∈ l.extensions, e.toList.all Char.isAlpha = true := by decide
  intro c hc
  have hc' : c.toLower ∈ e.toList := by
    rw [← fold_of_mem_extensions he, fold_eq_iff.mpr hs]
    exact List.mem_map_of_mem hc
  have hletter : c.toLower.isAlpha = true :=
    List.all_eq_true.mp (hletters l (mem_all l) e he) c.toLower hc'
  rw [← Text.isBlank_toLower, Text.isBlank_eq_false_of_isAlpha hletter]

/-- A text that is both a name and an extension is so of one language. -/
theorem eq_of_ofName?_of_ofExtension? {s : String} {l₁ l₂ : Language} (h₁ : ofName? s = some l₁)
    (h₂ : ofExtension? s = some l₂) : l₁ = l₂ := by
  have htrim : Text.trim s = s := Text.trim_eq_self (isBlank_eq_false_of_ofExtension? h₂)
  obtain ⟨n, hn, hs₁⟩ := ofName?_eq_some_iff.mp h₁
  obtain ⟨e, he, hs₂⟩ := ofExtension?_eq_some_iff.mp h₂
  rw [htrim] at hs₁
  exact eq_of_sameButCase (List.mem_append_left _ hn) (List.mem_append_right _ he) hs₁ hs₂

/-! ### Paths -/

theorem ofPath?_named {front stem ext tail : String} (hfront : Path.IsDirectories front)
    (htail : Path.IsTrailer tail) (hstem : stem ≠ "") (hslash : '/' ∉ stem.toList)
    (hdot : '.' ∉ ext.toList) (hslash' : '/' ∉ ext.toList) :
    ofPath? (front ++ (stem ++ "." ++ ext) ++ tail) = ofExtension? ext := by
  have hstem' : stem.toList ≠ [] := mt String.toList_eq_nil_iff.mp hstem
  obtain ⟨c, cs, hcons⟩ := List.exists_cons_of_ne_nil hstem'
  have hname : (stem ++ "." ++ ext).toList = stem.toList ++ '.' :: ext.toList := by simp
  have hidle : ¬ Path.IsIdle (stem ++ "." ++ ext).toList := by
    rw [hname, hcons]
    simp [Path.IsIdle]
  rw [ofPath?, Path.extension?_named hfront htail (by simp [hslash, hslash']) hidle, hname,
    Path.extensionOf?_append hstem' hdot]
  split
  · -- A name of two dots has nothing behind the second, and nothing is no extension.
    rename_i hup
    have hext : ext = "" := by
      have hlist := congrArg String.toList hup
      rw [hname, hcons] at hlist
      have hall : c = '.' ∧ cs = [] ∧ ext = "" := by
        simpa [List.append_eq_singleton_iff] using hlist
      exact hall.2.2
    rw [hext]
    decide
  · rw [Option.map_some, Option.bind_some, String.ofList_toList]

/-- A name without a dot behind its beginning has no extension. -/
theorem ofPath?_of_no_extension {front name tail : String} (hfront : Path.IsDirectories front)
    (htail : Path.IsTrailer tail) (hslash : '/' ∉ name.toList) (hidle : ¬ Path.IsIdle name.toList)
    (hname : '.' ∉ name.toList ∨ (∃ rest, name = "." ++ rest ∧ '.' ∉ rest.toList) ∨ name = "..") :
    ofPath? (front ++ name ++ tail) = none := by
  rw [ofPath?, Path.extension?_named hfront htail hslash hidle]
  split
  · rfl
  · have hnone : Path.extensionOf? name.toList = none := by
      rcases hname with hdot | ⟨rest, rfl, hdot⟩ | hup
      · exact Path.extensionOf?_of_not_mem hdot
      · rw [String.toList_append]
        exact Path.extensionOf?_dotFile hdot
      · exact absurd hup ‹_›
    rw [hnone, Option.map_none, Option.bind_none]

/-- **How a language is found.**  A path finds the language of the extension of the last part that
leads somewhere, and none if this part has no dot behind its beginning, leads upwards, or is
missing.  An extension or a name finds a language exactly if one of its spellings is the same text
but for the case of letters, for a name also but for blank characters around it.  No text belongs to
two languages, neither as a name nor as an extension nor as one of each, so the order of the
languages makes no difference.  A language that is given is taken whatever the path. -/
theorem found_by_path_extension_and_name :
    (∀ front stem ext tail : String, Path.IsDirectories front → Path.IsTrailer tail →
      stem ≠ "" → '/' ∉ stem.toList → '.' ∉ ext.toList → '/' ∉ ext.toList →
        ofPath? (front ++ (stem ++ "." ++ ext) ++ tail) = ofExtension? ext) ∧
    (∀ front name tail : String, Path.IsDirectories front → Path.IsTrailer tail →
      '/' ∉ name.toList → ¬ Path.IsIdle name.toList →
      ('.' ∉ name.toList ∨ (∃ rest, name = "." ++ rest ∧ '.' ∉ rest.toList) ∨ name = "..") →
        ofPath? (front ++ name ++ tail) = none) ∧
    (∀ path : String, (∀ part ∈ Path.split path.toList, Path.IsIdle part) → ofPath? path = none) ∧
    (∀ ext l, ofExtension? ext = some l ↔ ∃ e ∈ l.extensions, SameButCase e ext) ∧
    (∀ name l, ofName? name = some l ↔ ∃ n ∈ l.names, SameButCase n (Text.trim name)) ∧
    (∀ s t, SameButCase s t → ofExtension? s = ofExtension? t ∧ ofName? s = ofName? t) ∧
    (∀ before name after, Text.isBlankText before = true → Text.isBlankText after = true →
      ofName? (before ++ name ++ after) = ofName? name) ∧
    (∀ ext : String, (∃ c ∈ ext.toList, Text.isBlank c = true) → ofExtension? ext = none) ∧
    (∀ (text : String) (l₁ l₂ : Language),
      (l₁.hasExtension text = true → l₂.hasExtension text = true → l₁ = l₂) ∧
      (l₁.hasName text = true → l₂.hasName text = true → l₁ = l₂)) ∧
    (∀ order : List Language, order.Perm all → ∀ text,
      order.find? (·.hasExtension text) = ofExtension? text ∧
        order.find? (·.hasName (Text.trim text)) = ofName? text) ∧
    (∀ s l₁ l₂, ofName? s = some l₁ → ofExtension? s = some l₂ → l₁ = l₂) ∧
    ∀ l path, resolveLanguage (some l) path = .ok l := by
  refine ⟨fun front stem ext tail => ofPath?_named, fun front name tail => ofPath?_of_no_extension,
    ?idle, fun ext l => ofExtension?_eq_some_iff, fun name l => ofName?_eq_some_iff,
    fun s t h => ⟨ofExtension?_congr h, ofName?_congr h⟩, ?blanks, ?blank,
    fun text l₁ l₂ => ⟨eq_of_hasExtension, eq_of_hasName⟩, ?order,
    fun s l₁ l₂ => eq_of_ofName?_of_ofExtension?, fun l path => rfl⟩
  case idle =>
    intro path h
    rw [ofPath?, Path.extension?_nameless h, Option.bind_none]
  case blanks =>
    intro before name after hbefore hafter
    rw [ofName?, ofName?, Text.trim_append hbefore hafter]
  case blank =>
    rintro ext ⟨c, hc, hblank⟩
    cases hfound : ofExtension? ext with
    | none => rfl
    | some l =>
        rw [isBlank_eq_false_of_ofExtension? hfound c hc] at hblank
        cases hblank
  case order =>
    intro order horder text
    exact ⟨find?_eq_of_perm (fun _ _ => eq_of_hasExtension) horder,
      find?_eq_of_perm (fun _ _ => eq_of_hasName) horder⟩

example : ofPath? "src/.old..Hpp//./" = some cpp := by decide

end Language
end SyntaxInspector
