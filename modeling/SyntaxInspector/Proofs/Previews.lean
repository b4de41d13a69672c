import Mathlib.Data.List.Forall2
import SyntaxInspector.Proofs.ByteSlices
import SyntaxInspector.Proofs.OutlineReading

/-! # Previews

What the entries of an outline show of the source text, whatever ranges the nodes have.

* `IsPreview` says in the bytes of the source which text a node shows: nothing unless its range
  lies between characters of the text, all of it for a leaf, and the beginning for another node
  whose text is long.  `isPreview_preview` checks the previews against it.
* `Text.IsQuoted` says how a quoted text may look: only as parts of escapes does it have quotes
  and backslashes between its ends, and it has no line break at all.
* `Outline.previewOf?` reads the preview from the right end of an entry, whatever stands in front.

Together they say what `Tree.outline_shows_previews` finds in an outline. -/

namespace SyntaxInspector

namespace Text

/-! ### Quoted text -/

/-- The forms in which a quoted text may show a character: as it is, unless it would end the line or
the text or begin another form; as a letter behind a backslash; or as its code point. -/
inductive WrittenAs : Char → List Char → Prop where
  | itself {c : Char} (newline : c ≠ '\n') (quote : c ≠ '"') (backslash : c ≠ '\\') :
      WrittenAs c [c]
  | letter {c l : Char} (stands : escapedLetter? l = some c) : WrittenAs c ['\\', l]
  | codePoint (c : Char) :
      WrittenAs c ('\\' :: 'u' :: '\x7b' :: (Nat.toDigits 16 c.toNat ++ ['\x7d']))

/-- A text between quotes, each of its characters in one of its forms, on one line. -/
def IsQuoted (text field : List Char) : Prop :=
  '\n' ∉ field ∧ ∃ pieces, field = '"' :: pieces.flatten ++ ['"'] ∧
    List.Forall₂ WrittenAs text pieces

theorem writtenAs_escape (c : Char) : WrittenAs c (escape c) := by
  rcases escape_cases c with ⟨l, he, hl⟩ | he | ⟨he, hquote, hslash⟩
  · exact he ▸ .letter hl
  · exact he ▸ .codePoint c
  · have hnewline : c ≠ '\n' := by
      rintro rfl
      exact newline_not_mem_escape '\n' (he ▸ List.mem_singleton_self _)
    exact he ▸ .itself hnewline hquote hslash

theorem isQuoted_quote (text : List Char) : IsQuoted text (quote (String.ofList text)).toList := by
  refine ⟨?_, text.map escape, ?_, ?_⟩
  · simp [newline_not_mem_escape]
  · rw [toList_quote, String.toList_ofList, List.flatMap_def]
  · rw [List.forall₂_map_right_iff, List.forall₂_same]
    exact fun c _ => writtenAs_escape c

end Text

namespace Outline

open SyntaxInspector.Dot (expect expect_append)
open Text (bytesOf IsRange)

/-! ### Shortened texts -/

theorem shorten_of_le {limit : Nat} {cs : List Char} (h : cs.length ≤ limit) :
    shorten limit cs = cs := if_neg (Nat.not_lt.mpr h)

theorem shorten_of_lt {limit : Nat} {cs : List Char} (h : limit < cs.length) :
    shorten limit cs = cs.take limit ++ ['.', '.', '.'] := if_pos h

/-- A shortened text that is shortened again stays as it is: of a text with dots behind it the same
characters are kept. -/
theorem shorten_shorten (limit : Nat) (cs : List Char) :
    shorten limit (shorten limit cs) = shorten limit cs := by
  rcases Nat.lt_or_ge limit cs.length with hlt | hle
  · have htake : (cs.take limit).length = limit := List.length_take_of_le (Nat.le_of_lt hlt)
    have hdots : limit < (cs.take limit ++ ['.', '.', '.']).length := by
      rw [List.length_append, htake]
      exact Nat.lt_add_of_pos_right (by decide)
    rw [shorten_of_lt hlt, shorten_of_lt hdots, List.take_left' htake]
  · rw [shorten_of_le hle, shorten_of_le hle]

/-! ### The text that a node shows -/

/-- What a node shows of a source text with these bytes. -/
structure IsPreview (bytes : List UInt8) (t : Tree) (shown : List Char) : Prop where
  /-- A range that runs backwards, leaves the text or cuts a character in two shows nothing. -/
  outside : ¬ IsRange bytes t.info.startByte t.info.endByte → shown = []
  /-- A leaf shows all bytes of its range. -/
  leaf : t.isLeaf → IsRange bytes t.info.startByte t.info.endByte →
    bytesOf shown = bytes.extract t.info.startByte t.info.endByte
  /-- So does another node, up to 40 characters.  A longer text ends behind the first 40 of them,
  which is a place between characters in its range. -/
  inner : ¬ t.isLeaf → IsRange bytes t.info.startByte t.info.endByte →
    ∃ text, bytesOf text = bytes.extract t.info.startByte t.info.endByte ∧
      (text.length ≤ 40 → shown = text) ∧
      (40 < text.length → shown = text.take 40 ++ "...".toList ∧
        ∃ cut < t.info.endByte, IsRange bytes t.info.startByte cut ∧
          bytesOf (text.take 40) = bytes.extract t.info.startByte cut)
  /-- Shortening what is shown leaves it as it is. -/
  settled : ¬ t.isLeaf → shorten 40 shown = shown

theorem covered_of_not_isRange {source : List Char} {n : Node}
    (h : ¬ IsRange (bytesOf source) n.startByte n.endByte) : covered source n = [] := by
  rw [← Text.isSome_slice?_iff, Option.not_isSome_iff_eq_none] at h
  rw [covered, h, Option.getD_none]

theorem slice?_eq_covered {source : List Char} {n : Node}
    (h : IsRange (bytesOf source) n.startByte n.endByte) :
    Text.slice? source n.startByte n.endByte = some (covered source n) := by
  obtain ⟨text, htext⟩ := Option.isSome_iff_exists.mp (Text.isSome_slice?_iff.mpr h)
  rw [covered, htext, Option.getD_some]

/-- The first characters of a longer text end inside the range, between two characters. -/
theorem exists_cut_of_slice? {source text : List Char} {start stop limit : Nat}
    (h : Text.slice? source start stop = some text) (hlong : limit < text.length) :
    ∃ cut < stop, IsRange (bytesOf source) start cut ∧
      bytesOf (text.take limit) = (bytesOf source).extract start cut := by
  have hsplit : text = text.take limit ++ text[limit] :: text.drop (limit + 1) := by
    rw [List.getElem_cons_drop, List.take_append_drop]
  obtain ⟨cut, hcut, hfirst⟩ := Text.slice?_of_append_cons (hsplit ▸ h)
  exact ⟨cut, hcut, Text.isSome_slice?_iff.mp (Option.isSome_of_eq_some hfirst),
    Text.bytesOf_of_slice? hfirst⟩

theorem isPreview_preview (source : List Char) (t : Tree) :
    IsPreview (bytesOf source) t (preview source t) where
  outside h := by
    rw [preview, covered_of_not_isRange h]
    split
    · rfl
    · exact shorten_of_le (Nat.zero_le _)
  leaf hleaf h := by
    rw [preview, if_pos hleaf]
    exact Text.bytesOf_of_slice? (slice?_eq_covered h)
  inner hinner h := by
    have hslice := slice?_eq_covered h
    refine ⟨covered source t.info, Text.bytesOf_of_slice? hslice, fun hshort => ?_, fun hlong => ?_⟩
    · rw [preview, if_neg hinner]
      exact shorten_of_le hshort
    · refine ⟨?_, exists_cut_of_slice? hslice hlong⟩
      rw [preview, if_neg hinner]
      exact shorten_of_lt hlong
  settled hinner := by
    rw [preview, if_neg hinner]
    exact shorten_shorten 40 (covered source t.info)

/-! ### Entries -/

/-- The preview in an entry, read from the right end. -/
def previewOf? (entry : String) : Option (List Char) := do
  let (_, cs) ← expect ['\n', '"'] entry.toList.reverse
  let (written, _) ← Text.cutQuoted cs
  Text.unescape? written

theorem previewOf?_entry (source : List Char) (p : Placed) :
    previewOf? (entry source p) = some (preview source p.1) := by
  have hends : (entry source p).toList.reverse = '\n' :: (line source p).toList.reverse := by
    simp [entry_eq]
  rw [previewOf?, hends, reverse_line, ← List.cons_append, expect_append]
  simp only [Option.bind_eq_bind, Option.bind_some]
  rw [Text.cutQuoted_reverse_append _ (by simp), Option.bind_some, Text.unescape?_flatMap_escape]

/-- An entry ends with the quoted preview. -/
theorem exists_front_entry (source : List Char) (p : Placed) :
    ∃ front, (entry source p).toList =
      front ++ (Text.quote (String.ofList (preview source p.1))).toList ++ ['\n'] := by
  simp only [entry, String.toList_append]
  exact ⟨_, rfl⟩

end Outline

namespace Tree

open Outline

/-- **The previews of an outline.**  An outline consists of the entries of the nodes of the walk.
At its end an entry has a quoted text, and that is the preview of the node; reading the entry from
the right gives the preview back.  So the bytes of a leaf are found in its entry. -/
theorem outline_shows_previews (t : Tree) (source : String) (maxDepth : Option Nat) :
    ∃ entries : List String, t.outline source maxDepth = String.join entries ∧
      List.Forall₂ (fun (p : Placed) entry => ∃ shown,
          IsPreview (Text.encode source) p.1 shown ∧ previewOf? entry = some shown ∧
            ∃ front field, entry.toList = front ++ field ++ ['\n'] ∧ Text.IsQuoted shown field)
        (t.walk maxDepth) entries := by
  rw [Text.encode_eq_bytesOf]
  refine ⟨(t.walk maxDepth).map (entry source.toList), rfl, ?_⟩
  rw [List.forall₂_map_right_iff, List.forall₂_same]
  intro p _
  obtain ⟨front, hfront⟩ := exists_front_entry source.toList p
  exact ⟨preview source.toList p.1, isPreview_preview source.toList p.1,
    previewOf?_entry source.toList p, front, _, hfront, Text.isQuoted_quote _⟩

end Tree
end SyntaxInspector
