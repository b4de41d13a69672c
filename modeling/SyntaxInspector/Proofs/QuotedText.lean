import SyntaxInspector.Json.Reader
import SyntaxInspector.Proofs.GraphReading
import SyntaxInspector.Proofs.OutlineLines

/-! # Reading quoted text from the right

A quoted text at the end of a line is found without reading the line from its beginning, so it does
not matter what stands in front of it.

* `readEscape` reads one character in its written form, `unescape?` a whole text; it undoes
  `escape`, whatever the characters (`unescape?_flatMap_escape`).
* In a written text every quote has a backslash directly in front of it.  So the quote that opens
  the text is the first one from the right without a backslash; `cutQuoted` looks for it
  (`cutQuoted_reverse_append`). -/

namespace SyntaxInspector.Text

open SyntaxInspector.Dot (Reader)

/-! ### Hexadecimal numbers -/

/-- The number that hexadecimal digits denote. -/
def hexNumber (digits : List Char) : Nat :=
  digits.foldl (fun n c => 16 * n + (Json.hexValue? c).getD 0) 0

theorem hexValue?_digitChar {d : Nat} (h : d < 16) :
    Json.hexValue? (Nat.digitChar d) = some d := by
  have hall : ∀ d < 16, Json.hexValue? (Nat.digitChar d) = some d := by decide
  exact hall d h

theorem hexNumber_toDigits (n : Nat) : hexNumber (Nat.toDigits 16 n) = n := by
  induction n using Nat.strongRecOn with
  | ind n ih =>
      rw [Nat.toDigits_eq_if (by decide)]
      split
      · rename_i hn
        simp [hexNumber, hexValue?_digitChar hn]
      · rename_i hn
        have hfront := ih (n / 16) (Nat.div_lt_self (by omega) (by decide))
        have hlast := hexValue?_digitChar (Nat.mod_lt n (show 16 > 0 by decide))
        rw [hexNumber] at hfront
        rw [hexNumber, List.foldl_append, hfront]
        simp only [List.foldl_cons, List.foldl_nil, hlast, Option.getD_some]
        omega

theorem not_mem_toDigits {c : Char} (h : ∀ d < 16, Nat.digitChar d ≠ c) (n : Nat) :
    c ∉ Nat.toDigits 16 n := by
  intro hc
  obtain ⟨d, hd, he⟩ := exists_digitChar_of_mem_toDigits (by decide) hc
  exact h d hd he.symm

/-! ### Characters in their written form -/

/-- The character that a letter behind a backslash stands for. -/
def escapedLetter? : Char → Option Char
  | '"' => some '"'
  | '\\' => some '\\'
  | 'n' => some '\n'
  | 'r' => some '\r'
  | 't' => some '\t'
  | '0' => some (Char.ofNat 0)
  | _ => none

/-- Reads what follows a backslash: a code point between braces, or a letter. -/
def readBackslash : Reader Char
  | 'u' :: '\x7b' :: cs =>
    match cs.dropWhile (· != '\x7d') with
    | [] => none
    | _ :: rest => some (Char.ofNat (hexNumber (cs.takeWhile (· != '\x7d'))), rest)
  | c :: cs => (escapedLetter? c).map (·, cs)
  | [] => none

/-- Reads one character in its written form. -/
def readEscape : Reader Char
  | [] => none
  | c :: cs => if c = '\\' then readBackslash cs else some (c, cs)

theorem readBackslash_codePoint (n : Nat) (rest : List Char) :
    readBackslash ('u' :: '\x7b' :: (Nat.toDigits 16 n ++ '\x7d' :: rest)) =
      some (Char.ofNat n, rest) := by
  have hdigits : ∀ c ∈ Nat.toDigits 16 n, (c != '\x7d') = true := by
    intro c hc
    rw [bne_iff_ne]
    rintro rfl
    exact not_mem_toDigits (by decide) n hc
  have htake : (Nat.toDigits 16 n ++ '\x7d' :: rest).takeWhile (· != '\x7d') =
      Nat.toDigits 16 n := by
    rw [List.takeWhile_append_of_pos hdigits, List.takeWhile_cons, if_neg (by decide),
      List.append_nil]
  have hdrop : (Nat.toDigits 16 n ++ '\x7d' :: rest).dropWhile (· != '\x7d') = '\x7d' :: rest := by
    rw [List.dropWhile_append_of_pos hdigits, List.dropWhile_cons, if_neg (by decide)]
  rw [readBackslash, htake, hdrop, hexNumber_toDigits]

/-- A character is written as a letter behind a backslash, as its code point, or as itself. -/
theorem escape_cases (c : Char) :
    (∃ l, escape c = ['\\', l] ∧ escapedLetter? l = some c) ∨
      escape c = '\\' :: 'u' :: '\x7b' :: (Nat.toDigits 16 c.toNat ++ ['\x7d']) ∨
      escape c = [c] ∧ c ≠ '"' ∧ c ≠ '\\' := by
  by_cases hc : c ∈ ['"', '\\', '\n', '\r', '\t', Char.ofNat 0]
  · left
    simp only [List.mem_cons, List.not_mem_nil, or_false] at hc
    rcases hc with rfl | rfl | rfl | rfl | rfl | rfl
    · exact ⟨'"', rfl, rfl⟩
    · exact ⟨'\\', rfl, rfl⟩
    · exact ⟨'n', rfl, rfl⟩
    · exact ⟨'r', rfl, rfl⟩
    · exact ⟨'t', rfl, rfl⟩
    · exact ⟨'0', rfl, rfl⟩
  · simp only [List.mem_cons, not_or] at hc
    obtain ⟨hquote, hslash, hn, hr, ht, hnull, -⟩ := hc
    rw [escape, if_neg hquote, if_neg hslash, if_neg hn, if_neg hr, if_neg ht, if_neg hnull]
    by_cases hu : isUnshown c = true
    · rw [if_pos hu]
      exact .inr (.inl rfl)
    · rw [if_neg hu]
      exact .inr (.inr ⟨rfl, hquote, hslash⟩)

theorem readBackslash_letter {l c : Char} (h : escapedLetter? l = some c) (rest : List Char) :
    readBackslash (l :: rest) = some (c, rest) := by
  have hl : l ≠ 'u' := by
    rintro rfl
    cases h
  rw [readBackslash, h, Option.map_some]
  exact fun cs hu => absurd hu hl

/-- Every character is read back from its written form, whatever follows. -/
theorem readEscape_escape (c : Char) (rest : List Char) :
    readEscape (escape c ++ rest) = some (c, rest) := by
  rcases escape_cases c with ⟨l, he, hl⟩ | he | ⟨he, -, hslash⟩
  · rw [he, List.cons_append, List.singleton_append, readEscape, if_pos rfl,
      readBackslash_letter hl]
  · rw [he, List.cons_append, List.cons_append, List.cons_append, List.append_assoc,
      List.singleton_append, readEscape, if_pos rfl, readBackslash_codePoint, Char.ofNat_toNat]
  · rw [he, List.singleton_append, readEscape, if_neg hslash]

theorem length_lt_of_readBackslash {cs rest : List Char} {c : Char}
    (h : readBackslash cs = some (c, rest)) : rest.length < cs.length := by
  unfold readBackslash at h
  split at h
  · rename_i cs
    have hle := (List.dropWhile_sublist (l := cs) (· != '\x7d')).length_le
    split at h
    · cases h
    · rename_i heq
      cases h
      rw [heq] at hle
      simp only [List.length_cons] at hle ⊢
      omega
  · obtain ⟨d, -, hd⟩ := Option.map_eq_some_iff.mp h
    cases hd
    exact Nat.lt_succ_self _
  · cases h

theorem length_lt_of_readEscape {cs rest : List Char} {c : Char}
    (h : readEscape cs = some (c, rest)) : rest.length < cs.length := by
  cases cs with
  | nil => cases h
  | cons d cs =>
      rw [readEscape] at h
      split at h
      · exact Nat.lt_succ_of_lt (length_lt_of_readBackslash h)
      · cases h
        exact Nat.lt_succ_self _

/-- The text with these characters as its written form. -/
def unescape? (cs : List Char) : Option (List Char) :=
  if cs = [] then some []
  else
    match _h : readEscape cs with
    | none => none
    | some (c, rest) => (unescape? rest).map (c :: ·)
termination_by cs.length
decreasing_by exact length_lt_of_readEscape _h

theorem unescape?_of_readEscape {cs rest : List Char} {c : Char}
    (h : readEscape cs = some (c, rest)) : unescape? cs = (unescape? rest).map (c :: ·) := by
  have hne : cs ≠ [] := by
    rintro rfl
    cases h
  rw [unescape?, if_neg hne]
  split
  · rename_i hnone
    rw [h] at hnone
    cases hnone
  · rename_i hsome
    rw [h] at hsome
    cases hsome
    rfl

/-- A text is read back from the written forms of its characters. -/
theorem unescape?_flatMap_escape (s : List Char) : unescape? (s.flatMap escape) = some s := by
  induction s with
  | nil => rw [List.flatMap_nil, unescape?, if_pos rfl]
  | cons c s ih =>
      rw [List.flatMap_cons, unescape?_of_readEscape (readEscape_escape c _), ih]
      rfl

/-! ### The quote that opens a text -/

/-- Reads a written text backwards, from the character in front of the quote that closes it, up to
the first quote without a backslash. -/
def cutQuoted : Reader (List Char)
  | [] => none
  | '"' :: '\\' :: cs => (cutQuoted cs).map fun r => (r.1 ++ ['\\', '"'], r.2)
  | c :: cs => if c = '"' then some ([], cs) else (cutQuoted cs).map fun r => (r.1 ++ [c], r.2)

theorem cutQuoted_cons {c : Char} (h : c ≠ '"') (cs : List Char) :
    cutQuoted (c :: cs) = (cutQuoted cs).map fun r => (r.1 ++ [c], r.2) := by
  rw [cutQuoted, if_neg h]
  exact fun _ hc => absurd hc h

theorem cutQuoted_opening {cs : List Char} (h : cs.head? ≠ some '\\') :
    cutQuoted ('"' :: cs) = some ([], cs) := by
  rw [cutQuoted, if_pos rfl]
  rintro cs' - rfl
  exact h rfl

/-- Characters other than the quote are passed over. -/
theorem cutQuoted_reverse {w : List Char} (h : '"' ∉ w) (cs : List Char) :
    cutQuoted (w.reverse ++ cs) = (cutQuoted cs).map fun r => (r.1 ++ w, r.2) := by
  induction w generalizing cs with
  | nil => simp
  | cons c w ih =>
      have hc : c ≠ '"' := fun he => h (he ▸ List.mem_cons_self)
      have hw : '"' ∉ w := fun hm => h (List.mem_cons_of_mem c hm)
      rw [List.reverse_cons, List.append_assoc, List.singleton_append, ih hw, cutQuoted_cons hc,
        Option.map_map]
      simp [Function.comp_def]

theorem quote_not_mem_escape {c : Char} (h : c ≠ '"') : '"' ∉ escape c := by
  rcases escape_cases c with ⟨l, he, hl⟩ | he | ⟨he, hquote, -⟩
  · have hquote : l ≠ '"' := by
      rintro rfl
      exact h (Option.some.inj hl).symm
    simp [he, hquote.symm]
  · simp [he, not_mem_toDigits (c := '"') (by decide) c.toNat]
  · simp [he, hquote.symm]

/-- The written form of a character is passed over, also that of a quote. -/
theorem cutQuoted_reverse_escape (c : Char) (cs : List Char) :
    cutQuoted ((escape c).reverse ++ cs) = (cutQuoted cs).map fun r => (r.1 ++ escape c, r.2) := by
  by_cases h : c = '"'
  · subst h
    rfl
  · exact cutQuoted_reverse (quote_not_mem_escape h) cs

theorem cutQuoted_reverse_flatMap_escape (s cs : List Char) :
    cutQuoted ((s.flatMap escape).reverse ++ cs) =
      (cutQuoted cs).map fun r => (r.1 ++ s.flatMap escape, r.2) := by
  induction s generalizing cs with
  | nil => simp
  | cons c s ih =>
      rw [List.flatMap_cons, List.reverse_append, List.append_assoc, ih, cutQuoted_reverse_escape,
        Option.map_map]
      simp [Function.comp_def]

/-- From the right, a written text ends at the quote in front of it, unless that quote has a
backslash in front of it too. -/
theorem cutQuoted_reverse_append (s : List Char) {before : List Char}
    (h : before.head? ≠ some '\\') :
    cutQuoted ((s.flatMap escape).reverse ++ '"' :: before) = some (s.flatMap escape, before) := by
  rw [cutQuoted_reverse_flatMap_escape, cutQuoted_opening h]
  rfl

end SyntaxInspector.Text
