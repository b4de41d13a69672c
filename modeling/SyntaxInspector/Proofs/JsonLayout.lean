import Mathlib.Data.List.Forall2
import SyntaxInspector.Json.Basic
import SyntaxInspector.Proofs.JsonCompleteness

/-! # Written JSON is JSON

The text that is written for a value is JSON of this value, without any spacing as well as over
several lines and indented.

* `Json.draft` is a value to be written as a value that is read.
* `exists_pieces` says that an escaped text denotes the text, `spellsNumeral_toDigits` that the
  digits of a number are a numeral.
* `spellsItems_intercalate` and `spellsMembers_intercalate` put entries together, with a comma and
  spacing between them.
* `isJson_compact_iff` and `isJson_pretty` are the results. -/

namespace SyntaxInspector.Json

/-- The decimal digits of a number as a numeral. -/
def numeralOf (n : Nat) : Numeral := { negative := Bool.false, whole := Nat.toDigits 10 n }

mutual

/-- The value as it is read. -/
def draft : Json → Draft
  | number n => .number (numeralOf n)
  | text s => .text (some s)
  | list items => .array (draftItems items) .closed
  | record members => .object (draftMembers members) .closed

/-- The items of a list as they are read. -/
def draftItems : List Json → List Draft
  | [] => []
  | v :: vs => draft v :: draftItems vs

/-- The members of a record as they are read. -/
def draftMembers : List (String × Json) → List (Option String × Draft)
  | [] => []
  | (k, v) :: ms => (some k, draft v) :: draftMembers ms

end

theorem draftItems_eq_map (vs : List Json) : draftItems vs = vs.map draft := by
  induction vs with
  | nil => rfl
  | cons v vs ih => rw [draftItems, ih, List.map_cons]

theorem draftMembers_eq_map (ms : List (String × Json)) :
    draftMembers ms = ms.map fun m => (some m.1, draft m.2) := by
  induction ms with
  | nil => rfl
  | cons m ms ih =>
      obtain ⟨k, v⟩ := m
      rw [draftMembers, ih, List.map_cons]

/-! ### Texts -/

/-- One of the four hexadecimal digits of a number. -/
def hexAt (n i : Nat) : Char := (fourHex n).getD i '0'

theorem hexQuad?_fourHex :
    ∀ n < 0x20, ∃ a b c d, fourHex n = [a, b, c, d] ∧ hexQuad? a b c d = some n := by
  have hall : ∀ n < 0x20, fourHex n = [hexAt n 0, hexAt n 1, hexAt n 2, hexAt n 3] ∧
      hexQuad? (hexAt n 0) (hexAt n 1) (hexAt n 2) (hexAt n 3) = some n := by
    decide +kernel
  intro n hn
  exact ⟨_, _, _, _, hall n hn⟩

/-- The written form of a character is one piece of a quoted text, and denotes the character. -/
theorem exists_piece (c : Char) :
    ∃ p, SpellsPiece (escape c) p ∧ ∀ ps, denote (p :: ps) = (denote ps).map (c :: ·) := by
  have hletter : ∀ {e : Char}, letterEscape? e = some c → escape c = ['\\', e] →
      ∃ p, SpellsPiece (escape c) p ∧ ∀ ps, denote (p :: ps) = (denote ps).map (c :: ·) :=
    fun he hc => ⟨.char c, hc ▸ .letter he, fun _ => rfl⟩
  by_cases hquote : c = '"'
  · subst hquote; exact hletter rfl rfl
  by_cases hbackslash : c = '\\'
  · subst hbackslash; exact hletter rfl rfl
  by_cases hnewline : c = '\n'
  · subst hnewline; exact hletter rfl rfl
  by_cases hreturn : c = '\r'
  · subst hreturn; exact hletter rfl rfl
  by_cases htab : c = '\t'
  · subst htab; exact hletter rfl rfl
  by_cases hbackspace : c = Char.ofNat 0x08
  · subst hbackspace; exact hletter rfl rfl
  by_cases hfeed : c = Char.ofNat 0x0C
  · subst hfeed; exact hletter rfl rfl
  by_cases hcontrol : c.toNat < 0x20
  · obtain ⟨x, y, z, w, hfour, hquad⟩ := hexQuad?_fourHex c.toNat hcontrol
    have hc : escape c = ['\\', 'u', x, y, z, w] := by
      simp [escape, hquote, hbackslash, hnewline, hreturn, htab, hbackspace, hfeed, hcontrol, hfour]
    -- A control character is no surrogate, so it denotes itself.
    have hlead : isLeading c.toNat = Bool.false := by
      rw [isLeading, Bool.and_eq_false_iff, decide_eq_false_iff_not]
      omega
    have htrail : isTrailing c.toNat = Bool.false := by
      rw [isTrailing, Bool.and_eq_false_iff, decide_eq_false_iff_not]
      omega
    refine ⟨.unit c.toNat, hc ▸ .hex hquad, fun ps => ?_⟩
    rw [denote_unit hlead htrail, Char.ofNat_toNat]
  · have hc : escape c = [c] := by
      simp [escape, hquote, hbackslash, hnewline, hreturn, htab, hbackspace, hfeed, hcontrol]
    exact ⟨.char c, hc ▸ .plain hquote hbackslash (by omega), fun _ => rfl⟩

/-- The written form of a text, between its quotes, denotes the text. -/
theorem exists_pieces (cs : List Char) :
    ∃ ps, SpellsPieces (cs.flatMap escape) ps ∧ denote ps = some cs := by
  induction cs with
  | nil => exact ⟨[], .nil, rfl⟩
  | cons c cs ih =>
      obtain ⟨p, hp, hdenote⟩ := exists_piece c
      obtain ⟨ps, hps, hcs⟩ := ih
      rw [List.flatMap_cons]
      exact ⟨p :: ps, .cons hp hps, by rw [hdenote, hcs, Option.map_some]⟩

theorem spells_quote (s : String) : Spells (quote s).toList (.text (some s)) := by
  obtain ⟨ps, hps, hdenote⟩ := exists_pieces s.toList
  have h := Spells.text hps
  rwa [hdenote, Option.map_some, String.ofList_toList, ← List.cons_append, ← toList_quote] at h

/-! ### Numbers -/

theorem digitChar_ne_zero : ∀ d < 10, d ≠ 0 → Nat.digitChar d ≠ '0' := by
  decide

theorem head_toDigits_ne_zero {n : Nat} (hn : n ≠ 0) : (Nat.toDigits 10 n).head? ≠ some '0' := by
  induction n using Nat.strongRecOn with
  | ind n ih =>
      rw [Nat.toDigits_eq_if (by decide)]
      split
      · rename_i hlt
        simpa using digitChar_ne_zero n hlt hn
      · rename_i hge
        have hne : Nat.toDigits 10 (n / 10) ≠ [] := Nat.toDigits_ne_nil
        obtain ⟨c, cs, hcs⟩ := List.exists_cons_of_ne_nil hne
        have hhead := ih (n / 10) (by omega) (by omega)
        rwa [hcs] at hhead ⊢

theorem isDigits_toDigits (n : Nat) : IsDigits (Nat.toDigits 10 n) :=
  ⟨Nat.toDigits_ne_nil, fun _ => Nat.isDigit_of_mem_toDigits (by decide) (by decide)⟩

theorem isWhole_toDigits (n : Nat) : IsWhole (Nat.toDigits 10 n) := by
  by_cases hn : n = 0
  · subst hn
    exact .zero
  · have hdigits := isDigits_toDigits n
    have hhead := head_toDigits_ne_zero hn
    obtain ⟨c, cs, hcs⟩ := List.exists_cons_of_ne_nil hdigits.1
    rw [hcs] at hdigits hhead ⊢
    exact .digits (fun hc => hhead (by rw [hc, List.head?_cons])) hdigits

/-- The digits of a number are a numeral. -/
theorem spellsNumeral_toDigits (n : Nat) : SpellsNumeral (Nat.toDigits 10 n) (numeralOf n) := by
  have h := SpellsNumeral.mk .absent (isWhole_toDigits n) .absent .absent
  rwa [List.nil_append, List.append_nil, List.append_nil] at h

theorem toNat?_numeralOf (n : Nat) : (numeralOf n).toNat? = some n := by
  have hfold : Numeral.natOf (Nat.toDigits 10 n) = Nat.ofDigitChars 10 (Nat.toDigits 10 n) 0 := by
    rw [Nat.ofDigitChars_eq_foldl]
    exact congrArg (fun f => List.foldl f 0 (Nat.toDigits 10 n))
      (funext₂ fun m c => congrArg (· + _) (Nat.mul_comm m 10))
  simp [Numeral.toNat?, numeralOf, hfold, Nat.ofDigitChars_ten_toDigits]

/-! ### Entries between brackets -/

theorem isGap_nil : IsGap [] := by
  simp [IsGap]

theorem isGap_newline (level : Nat) : IsGap (newline level).toList := by
  intro c hc
  rw [newline, String.toList_append, List.mem_append] at hc
  rcases hc with hc | hc
  · obtain rfl : c = '\n' := by simpa using hc
    rfl
  · rw [String.toList_ofList] at hc
    obtain rfl := List.eq_of_mem_replicate hc
    rfl

/-- Items with a comma and spacing between them. -/
theorem spellsItems_intercalate {gap gap' : List Char} (hgap : IsGap gap) (hgap' : IsGap gap')
    {entries : List (List Char)} {ds : List Draft} (h : List.Forall₂ Spells entries ds)
    (hne : entries ≠ []) :
    SpellsItems (gap ++ ((',' :: gap).intercalate entries ++ gap')) ds := by
  induction h with
  | nil => exact absurd rfl hne
  | @cons e d entries ds he hrest ih =>
      cases hrest with
      | nil =>
          rw [List.intercalate_singleton]
          exact .one (.mk hgap he hgap')
      | cons he' hrest' =>
          have hitems := ih (List.cons_ne_nil _ _)
          have hitem : SpellsPadded (gap ++ e) d := by
            simpa using SpellsPadded.mk hgap he isGap_nil
          rw [List.intercalate_cons_cons]
          simpa using SpellsItems.more hitem hitems

/-- The characters are a member, whatever spacing is around them. -/
def Written (cs : List Char) (m : Option String × Draft) : Prop :=
  ∀ {gap gap' : List Char}, IsGap gap → IsGap gap' → SpellsMember (gap ++ (cs ++ gap')) m

/-- Members with a comma and spacing between them. -/
theorem spellsMembers_intercalate {gap gap' : List Char} (hgap : IsGap gap) (hgap' : IsGap gap')
    {entries : List (List Char)} {ms : List (Option String × Draft)}
    (h : List.Forall₂ (fun cs m => Written cs m) entries ms) (hne : entries ≠ []) :
    SpellsMembers (gap ++ ((',' :: gap).intercalate entries ++ gap')) ms := by
  induction h with
  | nil => exact absurd rfl hne
  | @cons e m entries ms he hrest ih =>
      cases hrest with
      | nil =>
          rw [List.intercalate_singleton]
          exact .one (he hgap hgap')
      | cons he' hrest' =>
          have hmembers := ih (List.cons_ne_nil _ _)
          have hmember : SpellsMember (gap ++ e) m := by simpa using he hgap isGap_nil
          rw [List.intercalate_cons_cons]
          simpa using SpellsMembers.more hmember hmembers

/-- A key, a colon and a value, with spacing between the last two. -/
theorem written_of_spells {k : String} {colonGap cs : List Char} {d : Draft}
    (hcolon : IsGap colonGap) (h : Spells cs d) :
    Written ((quote k).toList ++ ':' :: (colonGap ++ cs)) (some k, d) := by
  intro gap gap' hgap hgap'
  obtain ⟨ps, hps, hdenote⟩ := exists_pieces k.toList
  have hm := SpellsMember.mk hgap hps isGap_nil (SpellsPadded.mk hcolon h hgap')
  rw [hdenote, Option.map_some, String.ofList_toList] at hm
  simpa using hm

/-- A key, a colon, a space and a value. -/
theorem written_member {k value : String} {d : Draft} (h : Spells value.toList d) :
    Written (quote k ++ ": " ++ value).toList (some k, d) := by
  have hspace : IsGap [' '] := by simp [IsGap, isSpacing]
  have hlist : (quote k ++ ": " ++ value).toList =
      (quote k).toList ++ ':' :: ([' '] ++ value.toList) := by
    simp
  rw [hlist]
  intro gap gap' hgap hgap'
  exact written_of_spells hspace h hgap hgap'

/-- A key, a colon and a value. -/
theorem written_compactMember {k value : String} {d : Draft} (h : Spells value.toList d) :
    Written (quote k ++ ":" ++ value).toList (some k, d) := by
  have hlist : (quote k ++ ":" ++ value).toList =
      (quote k).toList ++ ':' :: ([] ++ value.toList) := by
    simp
  rw [hlist]
  intro gap gap' hgap hgap'
  exact written_of_spells isGap_nil h hgap hgap'

theorem toList_bracketed (level : Nat) {entries : List String} (h : entries ≠ [])
    (opening closing : String) :
    (bracketed level opening closing entries).toList =
      opening.toList ++ ((newline (level + 1)).toList ++
        ((',' :: (newline (level + 1)).toList).intercalate (entries.map String.toList) ++
          (newline level).toList) ++ closing.toList) := by
  have hne : ¬entries.isEmpty := by simpa using h
  simp [bracketed, hne, String.toList_intercalate]

theorem spells_bracketed_items (level : Nat) {entries : List String} {ds : List Draft}
    (h : List.Forall₂ Spells (entries.map String.toList) ds) :
    Spells (bracketed level "[" "]" entries).toList (.array ds .closed) := by
  cases entries with
  | nil =>
      cases h
      have hnil : (bracketed level "[" "]" []).toList = '[' :: ([] ++ [']']) := by simp [bracketed]
      exact hnil ▸ .emptyArray isGap_nil
  | cons e entries =>
      rw [toList_bracketed level (List.cons_ne_nil e entries)]
      exact .array (spellsItems_intercalate (isGap_newline (level + 1)) (isGap_newline level) h
        (List.cons_ne_nil _ _))

theorem spells_bracketed_members (level : Nat) {entries : List String}
    {ms : List (Option String × Draft)}
    (h : List.Forall₂ (fun cs m => Written cs m) (entries.map String.toList) ms) :
    Spells (bracketed level "\x7b" "\x7d" entries).toList (.object ms .closed) := by
  cases entries with
  | nil =>
      cases h
      have hnil : (bracketed level "\x7b" "\x7d" []).toList = '\x7b' :: ([] ++ ['\x7d']) := by
        simp [bracketed]
      exact hnil ▸ .emptyObject isGap_nil
  | cons e entries =>
      rw [toList_bracketed level (List.cons_ne_nil e entries)]
      exact .object (spellsMembers_intercalate (isGap_newline (level + 1)) (isGap_newline level) h
        (List.cons_ne_nil _ _))

/-- Without spacing, the items stand between brackets with a comma between them. -/
theorem spells_compactEntries {entries : List String} {ds : List Draft}
    (h : List.Forall₂ Spells (entries.map String.toList) ds) :
    Spells ("[" ++ ",".intercalate entries ++ "]").toList (.array ds .closed) := by
  cases entries with
  | nil =>
      cases h
      exact .emptyArray isGap_nil
  | cons e entries =>
      have hitems := spellsItems_intercalate isGap_nil isGap_nil h (List.cons_ne_nil _ _)
      simpa [String.toList_intercalate] using Spells.array hitems

/-- So do the members between braces. -/
theorem spells_compactMemberEntries {entries : List String} {ms : List (Option String × Draft)}
    (h : List.Forall₂ (fun cs m => Written cs m) (entries.map String.toList) ms) :
    Spells ("\x7b" ++ ",".intercalate entries ++ "\x7d").toList (.object ms .closed) := by
  cases entries with
  | nil =>
      cases h
      exact .emptyObject isGap_nil
  | cons e entries =>
      have hmembers := spellsMembers_intercalate isGap_nil isGap_nil h (List.cons_ne_nil _ _)
      simpa [String.toList_intercalate] using Spells.object hmembers

/-! ### Values -/

theorem spells_toString (n : Nat) : Spells (toString n).toList (.number (numeralOf n)) := by
  rw [Nat.toString_eq_ofList_toDigits, String.toList_ofList]
  exact .number (spellsNumeral_toDigits n)

mutual

theorem spells_prettyAt (level : Nat) : ∀ v : Json, Spells (prettyAt level v).toList (draft v)
  | number n => by
      rw [prettyAt, draft]
      exact spells_toString n
  | text s => by
      rw [prettyAt, draft]
      exact spells_quote s
  | list items => by
      rw [prettyAt, draft]
      exact spells_bracketed_items level (forall₂_prettyItems (level + 1) items)
  | record members => by
      rw [prettyAt, draft]
      exact spells_bracketed_members level (forall₂_prettyMembers (level + 1) members)

theorem forall₂_prettyItems (level : Nat) : ∀ vs : List Json,
    List.Forall₂ Spells ((prettyItems level vs).map String.toList) (draftItems vs)
  | [] => .nil
  | v :: vs => by
      rw [prettyItems, draftItems, List.map_cons]
      exact .cons (spells_prettyAt level v) (forall₂_prettyItems level vs)

theorem forall₂_prettyMembers (level : Nat) : ∀ ms : List (String × Json),
    List.Forall₂ (fun cs m => Written cs m) ((prettyMembers level ms).map String.toList)
      (draftMembers ms)
  | [] => .nil
  | (k, v) :: ms => by
      rw [prettyMembers, draftMembers, List.map_cons]
      exact .cons (written_member (spells_prettyAt level v)) (forall₂_prettyMembers level ms)

end

mutual

theorem spells_compact : ∀ v : Json, Spells (compact v).toList (draft v)
  | number n => by
      rw [compact, draft]
      exact spells_toString n
  | text s => by
      rw [compact, draft]
      exact spells_quote s
  | list items => by
      rw [compact, draft]
      exact spells_compactEntries (forall₂_compactItems items)
  | record members => by
      rw [compact, draft]
      exact spells_compactMemberEntries (forall₂_compactMembers members)

theorem forall₂_compactItems : ∀ vs : List Json,
    List.Forall₂ Spells ((compactItems vs).map String.toList) (draftItems vs)
  | [] => .nil
  | v :: vs => by
      rw [compactItems, draftItems, List.map_cons]
      exact .cons (spells_compact v) (forall₂_compactItems vs)

theorem forall₂_compactMembers : ∀ ms : List (String × Json),
    List.Forall₂ (fun cs m => Written cs m) ((compactMembers ms).map String.toList)
      (draftMembers ms)
  | [] => .nil
  | (k, v) :: ms => by
      rw [compactMembers, draftMembers, List.map_cons]
      exact .cons (written_compactMember (spells_compact v)) (forall₂_compactMembers ms)

end

/-- A value over several lines is JSON of this value. -/
theorem isJson_pretty (v : Json) : IsJson v.pretty v.draft := by
  have h := SpellsPadded.mk isGap_nil (spells_prettyAt 0 v) isGap_nil
  rwa [List.nil_append, List.append_nil] at h

/-- A value without any spacing is JSON of this value, and of no other. -/
theorem isJson_compact_iff (v : Json) (d : Draft) : IsJson v.compact d ↔ d = v.draft := by
  have h := SpellsPadded.mk isGap_nil (spells_compact v) isGap_nil
  rw [List.nil_append, List.append_nil] at h
  constructor
  · exact fun hd => hd.unique h
  · rintro rfl
    exact h

end SyntaxInspector.Json
