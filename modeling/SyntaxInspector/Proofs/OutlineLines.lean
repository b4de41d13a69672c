import SyntaxInspector.Proofs.Preorder
import SyntaxInspector.Tree.Outline

/-! # Lines of outlines

How an outline falls apart at its line breaks.

* `Outline.line` is the entry of a node without the line break at its end.  Everything in it but
  the kind is free of line breaks (`newline_not_mem_lineEnd`), so an entry has one line, and one
  more for each line break in the kind (`length_splitOn_line`).
* `splitOn_outline` cuts a whole outline: the lines of the entries, one after the other.  They are
  the entries themselves if and only if no kind has a line break
  (`splitOn_outline_eq_lines_iff`); a preprocessor directive has a token whose kind is one. -/

namespace SyntaxInspector

namespace Text

/-! ### Quoted text stays on its line -/

theorem exists_digitChar_of_mem_toDigits {b n : Nat} {c : Char} (hb : 1 < b)
    (h : c ∈ Nat.toDigits b n) : ∃ d < b, c = Nat.digitChar d := by
  induction n using Nat.strongRecOn with
  | ind n ih =>
      rw [Nat.toDigits_eq_if hb] at h
      split at h
      · exact ⟨n, ‹_›, List.mem_singleton.mp h⟩
      · rcases List.mem_append.mp h with h | h
        · exact ih (n / b) (Nat.div_lt_self (by omega) hb) h
        · exact ⟨n % b, Nat.mod_lt n (by omega), List.mem_singleton.mp h⟩

theorem newline_not_mem_toDigits {b : Nat} (hb : 1 < b) (hb' : b ≤ 16) (n : Nat) :
    '\n' ∉ Nat.toDigits b n := by
  intro h
  obtain ⟨d, hd, he⟩ := exists_digitChar_of_mem_toDigits hb h
  have hdigit : ∀ d < 16, Nat.digitChar d ≠ '\n' := by decide
  exact hdigit d (by omega) he.symm

theorem newline_not_mem_escape (c : Char) : '\n' ∉ escape c := by
  have hhex := newline_not_mem_toDigits (b := 16) (by decide) (by decide) c.toNat
  by_cases hn : c = '\n'
  · subst hn
    decide
  unfold escape
  split
  · decide
  split
  · decide
  split
  · decide
  split
  · decide
  split
  · decide
  split
  · simp [hhex]
  · exact fun h => hn (List.mem_singleton.mp h).symm

/-! ### Cutting text at line breaks -/

theorem length_splitOn (c : Char) (cs : List Char) :
    (cs.splitOn c).length = cs.count c + 1 := by
  induction cs with
  | nil => simp
  | cons d cs ih =>
      rw [List.splitOn_cons_eq_if_modifyHead, List.count_cons]
      split <;> simp [ih]

/-- Texts that end with a separator each are cut into what they are cut into alone; behind the last
separator nothing is left. -/
theorem splitOn_flatMap_append (c : Char) (lines : List (List Char)) :
    (lines.flatMap (· ++ [c])).splitOn c = lines.flatMap (·.splitOn c) ++ [[]] := by
  induction lines with
  | nil => rfl
  | cons line lines ih =>
      rw [List.flatMap_cons, List.append_assoc, List.singleton_append,
        List.splitOn_append_cons_self, ih, List.flatMap_cons, List.append_assoc]

end Text

namespace Outline

/-! ### The line of a node -/

/-- What follows the kind in the entry of a node: the mark of a leaf, the bytes, and the preview. -/
def lineEnd (source : List Char) (t : Tree) : String :=
  (if t.isLeaf then "*" else "") ++ " [" ++ toString t.info.startByte ++ ".." ++
    toString t.info.endByte ++ "] " ++ Text.quote (String.ofList (preview source t))

/-- The entry of a node without the line break at its end. -/
def line (source : List Char) (p : Placed) : String :=
  String.ofList (List.replicate (2 * p.2) ' ') ++ p.1.info.kind ++ lineEnd source p.1

theorem entry_eq (source : List Char) (p : Placed) : entry source p = line source p ++ "\n" := by
  simp only [entry, line, lineEnd, String.append_assoc]

theorem newline_not_mem_lineEnd (source : List Char) (t : Tree) :
    '\n' ∉ (lineEnd source t).toList := by
  have hstart := Text.newline_not_mem_toDigits (b := 10) (by decide) (by decide) t.info.startByte
  have hend := Text.newline_not_mem_toDigits (b := 10) (by decide) (by decide) t.info.endByte
  have hmark : '\n' ∉ (if t.isLeaf then "*" else "").toList := by split <;> decide
  simp [lineEnd, hstart, hend, hmark, Text.newline_not_mem_escape]

theorem count_newline_line (source : List Char) (p : Placed) :
    (line source p).toList.count '\n' = p.1.info.kind.toList.count '\n' := by
  have hend := List.count_eq_zero.mpr (newline_not_mem_lineEnd source p.1)
  simp [line, hend, List.count_replicate]

theorem length_splitOn_line (source : List Char) (p : Placed) :
    ((line source p).toList.splitOn '\n').length = p.1.info.kind.toList.count '\n' + 1 := by
  rw [Text.length_splitOn, count_newline_line]

end Outline

namespace Tree

open Outline

theorem toList_outline (t : Tree) (source : String) (maxDepth : Option Nat) :
    (t.outline source maxDepth).toList =
      ((t.walk maxDepth).map fun p => (line source.toList p).toList).flatMap (· ++ ['\n']) := by
  simp [outline, entry_eq, List.flatMap_map]

/-- An outline consists of the lines of its entries; nothing follows the last line break. -/
theorem splitOn_outline (t : Tree) (source : String) (maxDepth : Option Nat) :
    (t.outline source maxDepth).toList.splitOn '\n' =
      (t.walk maxDepth).flatMap (fun p => (line source.toList p).toList.splitOn '\n') ++ [[]] := by
  rw [toList_outline, Text.splitOn_flatMap_append, List.flatMap_map]

theorem length_le_length_splitOn_lines (ps : List Placed) (source : List Char) :
    ps.length ≤ (ps.flatMap fun p => (line source p).toList.splitOn '\n').length := by
  induction ps with
  | nil => exact Nat.le_refl 0
  | cons q ps ih =>
      rw [List.flatMap_cons, List.length_append, length_splitOn_line, List.length_cons]
      omega

/-- If there are as many lines as nodes, no kind takes up more than one. -/
theorem newline_not_mem_kind_of_length_eq {ps : List Placed} (source : List Char)
    (h : (ps.flatMap fun p => (line source p).toList.splitOn '\n').length = ps.length) :
    ∀ p ∈ ps, '\n' ∉ p.1.info.kind.toList := by
  induction ps with
  | nil => simp
  | cons q ps ih =>
      have hle := length_le_length_splitOn_lines ps source
      rw [List.flatMap_cons, List.length_append, length_splitOn_line, List.length_cons] at h
      intro p hp
      rcases List.mem_cons.mp hp with rfl | hp
      · exact List.count_eq_zero.mp (by omega)
      · exact ih (by omega) p hp

/-- The lines are the entries exactly if no kind of a node of the walk has a line break. -/
theorem splitOn_outline_eq_map_iff {t : Tree} {source : String} {maxDepth : Option Nat} :
    (t.outline source maxDepth).toList.splitOn '\n' =
        (t.walk maxDepth).map (fun p => (line source.toList p).toList) ++ [[]] ↔
      ∀ p ∈ t.walk maxDepth, '\n' ∉ p.1.info.kind.toList := by
  rw [splitOn_outline, List.append_left_inj]
  constructor
  · intro h
    refine newline_not_mem_kind_of_length_eq source.toList ?_
    rw [h, List.length_map]
  · intro h
    rw [List.map_eq_flatMap, List.flatMap_def, List.flatMap_def]
    refine congrArg _ (List.map_congr_left fun p hp => List.splitOn_eq_singleton ?_)
    rw [← List.count_eq_zero, count_newline_line]
    exact List.count_eq_zero.mpr (h p hp)

/-- **When an outline has a line for each node.**  It always consists of the lines of its entries,
of which an entry has one more than its kind has line breaks.  So its lines are the entries, one for
each node of the walk and in that order, exactly if no kind of a node of the walk has a line
break. -/
theorem splitOn_outline_eq_lines_iff (t : Tree) (source : String) (maxDepth : Option Nat) :
    (t.outline source maxDepth).toList.splitOn '\n' =
        (t.walk maxDepth).flatMap (fun p => (line source.toList p).toList.splitOn '\n') ++ [[]] ∧
      (∀ p, entry source.toList p = line source.toList p ++ "\n" ∧
        ((line source.toList p).toList.splitOn '\n').length =
          p.1.info.kind.toList.count '\n' + 1) ∧
      ((t.outline source maxDepth).toList.splitOn '\n' =
          (t.walk maxDepth).map (fun p => (line source.toList p).toList) ++ [[]] ↔
        ∀ p ∈ t.walk maxDepth, '\n' ∉ p.1.info.kind.toList) :=
  ⟨splitOn_outline t source maxDepth,
    fun p => ⟨entry_eq source.toList p, length_splitOn_line source.toList p⟩,
    splitOn_outline_eq_map_iff⟩

/-- A condition of the preprocessor around a declaration without its semicolon.  The line break
behind the condition is a token, and its kind is its text. -/
def conditionalDeclaration : Tree :=
  let node (kind : String) (isNamed : Bool) (start stop : Nat × Point) : Node :=
    { kind, isNamed, isError := false, isMissing := false, startByte := start.1, endByte := stop.1
      startPoint := start.2, endPoint := stop.2 }
  .node (node "translation_unit" true (0, ⟨0, 0⟩) (19, ⟨3, 0⟩))
    [.node (node "preproc_if" true (0, ⟨0, 0⟩) (18, ⟨2, 6⟩))
      [.node (node "#if" false (0, ⟨0, 0⟩) (3, ⟨0, 3⟩)) [],
        .node { node "number_literal" true (4, ⟨0, 4⟩) (5, ⟨0, 5⟩) with
          field := some "condition" } [],
        .node (node "\n" false (5, ⟨0, 5⟩) (6, ⟨1, 0⟩)) [],
        .node (node "declaration" true (6, ⟨1, 0⟩) (11, ⟨1, 5⟩))
          [.node { node "primitive_type" true (6, ⟨1, 0⟩) (9, ⟨1, 3⟩) with
              field := some "type" } [],
            .node { node "identifier" true (10, ⟨1, 4⟩) (11, ⟨1, 5⟩) with
              field := some "declarator" } [],
            .node { node ";" false (11, ⟨1, 5⟩) (11, ⟨1, 5⟩) with isMissing := true } []],
        .node (node "#endif" false (12, ⟨2, 0⟩) (18, ⟨2, 6⟩)) []]]

/-- The outline of the declaration has a line too many: the kind of the line break takes up two. -/
theorem splitOn_outline_conditionalDeclaration :
    ¬ (conditionalDeclaration.outline "#if 1\nint x\n#endif\n" none).toList.splitOn '\n' =
      (conditionalDeclaration.walk none).map
        (fun p => (line "#if 1\nint x\n#endif\n".toList p).toList) ++ [[]] := by
  rw [splitOn_outline_eq_map_iff, walk_eq_preorderTo]
  intro h
  have hkinds : ∃ p ∈ conditionalDeclaration.preorderTo none, p.1.info.kind = "\n" := by
    simp [conditionalDeclaration, preorderTo, preorder, preorders]
  obtain ⟨p, hp, hkind⟩ := hkinds
  have hp := h p hp
  rw [hkind] at hp
  exact hp (by decide)

end Tree
end SyntaxInspector
