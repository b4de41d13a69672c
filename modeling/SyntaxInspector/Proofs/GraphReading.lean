import SyntaxInspector.Proofs.Numbering
import SyntaxInspector.Proofs.Replacements

/-! # Reading graphs back

A reader for the written form of a graph, and the tree that it finds there.

* `Dot.readQuoted` reads up to the first quote without a backslash in front and takes the
  backslashes away; it undoes `escapeLabel`, whatever the label and whatever follows
  (`readQuoted_escapeLabel`).
* `Dot.readNode` reads the line of a node and the edge to its parent, `Graph.read?` a whole graph.
* `Graph.assemble?` puts the nodes of a graph together, from the last one on: a node takes the trees
  behind it whose parent it is.  Put together, the drawing of a sketch is the sketch
  (`foldr_graft_drawing`).
* So the text determines the tree that is drawn (`Sketch.ofDot?_toDot`). -/

namespace SyntaxInspector
namespace Dot

/-- Takes something from the front of a text. -/
abbrev Reader (α : Type) := List Char → Option (α × List Char)

/-! ### Words and numbers -/

/-- Takes the given characters. -/
def expect : List Char → Reader Unit
  | [], cs => some ((), cs)
  | w :: ws, c :: cs => if w = c then expect ws cs else none
  | _ :: _, [] => none

/-- Takes all digits at the front; there must be one. -/
def readNumber : Reader Nat := fun cs =>
  match cs.takeWhile Char.isDigit with
  | [] => none
  | d :: ds => some (Nat.ofDigitChars 10 (d :: ds) 0, cs.dropWhile Char.isDigit)

theorem expect_append (ws rest : List Char) : expect ws (ws ++ rest) = some ((), rest) := by
  induction ws with
  | nil => rfl
  | cons w ws ih => rw [List.cons_append, expect, if_pos rfl, ih]

theorem readNumber_toDigits (n : Nat) {rest : List Char}
    (h : rest.takeWhile Char.isDigit = []) :
    readNumber (Nat.toDigits 10 n ++ rest) = some (n, rest) := by
  have hd : ∀ c ∈ Nat.toDigits 10 n, c.isDigit = true := fun c hc =>
    Nat.isDigit_of_mem_toDigits (by decide) (by decide) hc
  have htake : (Nat.toDigits 10 n ++ rest).takeWhile Char.isDigit = Nat.toDigits 10 n := by
    rw [List.takeWhile_append_of_pos hd, h, List.append_nil]
  have hdrop : (Nat.toDigits 10 n ++ rest).dropWhile Char.isDigit = rest := by
    have := List.takeWhile_append_dropWhile (p := Char.isDigit) (l := rest)
    rw [h, List.nil_append] at this
    rw [List.dropWhile_append_of_pos hd, this]
  rw [readNumber, htake, hdrop]
  cases hn : Nat.toDigits 10 n with
  | nil => exact absurd hn Nat.toDigits_ne_nil
  | cons d ds =>
      have hof := Nat.ofDigitChars_ten_toDigits (n := n)
      rw [hn] at hof
      simp only [hof]

/-! ### Quoted labels -/

/-- Reads a quoted text behind its first quote.  A backslash stands for the character after it, and
the first quote without a backslash ends the text. -/
def readQuoted : Reader (List Char)
  | [] => none
  | '"' :: cs => some ([], cs)
  | '\\' :: c :: cs => (readQuoted cs).map fun r => (c :: r.1, r.2)
  | c :: cs => if c = '\\' then none else (readQuoted cs).map fun r => (c :: r.1, r.2)

/-- A label is written character by character. -/
def escapeChar (c : Char) : List Char :=
  if c = '\\' then ['\\', '\\'] else if c = '"' then ['\\', '"'] else [c]

/-- What becomes of a character in the two replacements is its written form. -/
theorem flatMap_exchange_exchange (c : Char) :
    (Text.exchange '\\' ['\\', '\\'] c).flatMap (Text.exchange '"' ['\\', '"']) =
      escapeChar c := by
  by_cases hb : c = '\\'
  · subst hb
    rfl
  · rw [Text.exchange, if_neg hb, List.flatMap_singleton, Text.exchange, escapeChar, if_neg hb]

theorem toList_escapeLabel (s : String) :
    (escapeLabel s).toList = s.toList.flatMap escapeChar := by
  rw [escapeLabel, Text.toList_replace, Text.toList_replace, List.flatMap_assoc]
  exact congrArg s.toList.flatMap (funext flatMap_exchange_exchange)

theorem readQuoted_escapeChar (c : Char) (cs : List Char) :
    readQuoted (escapeChar c ++ cs) = (readQuoted cs).map fun r => (c :: r.1, r.2) := by
  by_cases hb : c = '\\'
  · subst hb
    rfl
  by_cases hq : c = '"'
  · subst hq
    rfl
  · rw [escapeChar, if_neg hb, if_neg hq, List.singleton_append, readQuoted, if_neg hb]
    · exact hq
    · exact fun _ _ h => absurd h hb

theorem readQuoted_flatMap_escapeChar (s rest : List Char) :
    readQuoted (s.flatMap escapeChar ++ '"' :: rest) = some (s, rest) := by
  induction s with
  | nil => rfl
  | cons c s ih =>
      rw [List.flatMap_cons, List.append_assoc, readQuoted_escapeChar, ih]
      rfl

/-- Reading a written label stops at the quote behind it and gives the label. -/
theorem readQuoted_escapeLabel (s : String) (rest : List Char) :
    readQuoted ((escapeLabel s).toList ++ '"' :: rest) = some (s.toList, rest) := by
  rw [toList_escapeLabel, readQuoted_flatMap_escapeChar]

/-! ### Nodes and edges -/

/-- Reads the colours of a node, which tell whether it is named. -/
def readColours : Reader Bool := fun cs =>
  match expect (colourText true).toList cs with
  | some (_, rest) => some (true, rest)
  | none => (expect (colourText false).toList cs).map fun r => (false, r.2)

/-- Reads the line of an edge: the parent, then the child. -/
def readEdge : Reader (Nat × Nat) := fun cs => do
  let (_, cs) ← expect "  node".toList cs
  let (parent, cs) ← readNumber cs
  let (_, cs) ← expect " -> node".toList cs
  let (child, cs) ← readNumber cs
  let (_, cs) ← expect ";\n".toList cs
  return ((parent, child), cs)

/-- Reads the edge to the parent of a node, if there is one. -/
def readParent (id : Nat) : Reader (Option Nat) := fun cs =>
  match readEdge cs with
  | none => some (none, cs)
  | some ((parent, child), rest) => if child = id then some (some parent, rest) else none

/-- Reads the line of a node and the edge to its parent. -/
def readNode : Reader Drawn := fun cs => do
  let (_, cs) ← expect "  node".toList cs
  let (id, cs) ← readNumber cs
  let (_, cs) ← expect " [label=\"".toList cs
  let (label, cs) ← readQuoted cs
  let (_, cs) ← expect ", ".toList cs
  let (isNamed, cs) ← readColours cs
  let (_, cs) ← expect ", style=\"rounded,filled\"];\n".toList cs
  let (parent, cs) ← readParent id cs
  return (⟨id, String.ofList label, isNamed, parent⟩, cs)

/-- Reads nodes as long as there are some. -/
def readNodes (cs : List Char) : Graph × List Char :=
  match readNode cs with
  | none => ([], cs)
  | some (n, rest) =>
    if rest.length < cs.length then
      let (g, left) := readNodes rest
      (n :: g, left)
    else ([], cs)
termination_by cs.length

theorem readColours_append (isNamed : Bool) (rest : List Char) :
    readColours ((colourText isNamed).toList ++ rest) = some (isNamed, rest) := by
  cases isNamed with
  | true => rw [readColours, expect_append]
  | false =>
      have h : expect (colourText true).toList ((colourText false).toList ++ rest) = none := rfl
      rw [readColours, h, expect_append]
      rfl

theorem toList_nodeLine (id : Nat) (label : String) (isNamed : Bool) :
    (nodeLine id label isNamed).toList =
      "  node".toList ++ (Nat.toDigits 10 id ++ (" [label=\"".toList ++
        ((escapeLabel label).toList ++ '"' :: (", ".toList ++
          ((colourText isNamed).toList ++ ", style=\"rounded,filled\"];\n".toList))))) := by
  simp [nodeLine]

theorem toList_edgeLine (parent id : Nat) :
    (edgeLine (some parent) id).toList =
      "  node".toList ++ (Nat.toDigits 10 parent ++ (" -> node".toList ++
        (Nat.toDigits 10 id ++ ";\n".toList))) := by
  simp [edgeLine]

theorem readEdge_edgeLine (parent id : Nat) (rest : List Char) :
    readEdge ((edgeLine (some parent) id).toList ++ rest) = some ((parent, id), rest) := by
  rw [toList_edgeLine]
  simp only [List.append_assoc, readEdge, expect_append, Option.bind_eq_bind, Option.bind_some]
  rw [readNumber_toDigits parent rfl]
  simp only [expect_append, Option.bind_some]
  rw [readNumber_toDigits id rfl]
  simp only [expect_append, Option.bind_some]
  rfl

/-- The line of a node is not that of an edge. -/
theorem readEdge_nodeLine (id : Nat) (label : String) (isNamed : Bool) (rest : List Char) :
    readEdge ((nodeLine id label isNamed).toList ++ rest) = none := by
  rw [toList_nodeLine]
  simp only [List.append_assoc, readEdge, expect_append, Option.bind_eq_bind, Option.bind_some]
  rw [readNumber_toDigits id rfl]
  rfl

theorem readParent_edgeLine (parent : Option Nat) (id : Nat) {rest : List Char}
    (h : readEdge rest = none) :
    readParent id ((edgeLine parent id).toList ++ rest) = some (parent, rest) := by
  cases parent with
  | none => rw [edgeLine, readParent, String.toList_empty, List.nil_append, h]
  | some p =>
      rw [readParent, readEdge_edgeLine]
      exact if_pos rfl

/-- A written node is read back if no edge follows. -/
theorem readNode_lines (n : Drawn) {rest : List Char} (h : readEdge rest = none) :
    readNode (n.lines.toList ++ rest) = some (n, rest) := by
  rw [Drawn.lines_eq, String.toList_append, toList_nodeLine]
  simp only [List.append_assoc, List.cons_append, readNode, expect_append, Option.bind_eq_bind,
    Option.bind_some]
  rw [readNumber_toDigits n.id rfl]
  simp only [expect_append, Option.bind_some, readQuoted_escapeLabel, readColours_append,
    readParent_edgeLine n.parent n.id h, String.ofList_toList]
  rfl

theorem length_lines_pos (n : Drawn) : 0 < n.lines.toList.length := by
  have hpos : 0 < "  node".toList.length := by decide
  rw [Drawn.lines_eq, String.toList_append, toList_nodeLine, List.append_assoc, List.length_append]
  exact Nat.add_pos_left hpos _

/-- Behind the nodes of a graph, or before them, no edge is read. -/
theorem readEdge_lines (g : Graph) {rest : List Char} (h : readEdge rest = none) :
    readEdge ((String.join (g.map Drawn.lines)).toList ++ rest) = none := by
  cases g with
  | nil => exact h
  | cons n g =>
      rw [List.map_cons, String.join_cons, Drawn.lines_eq, String.toList_append,
        String.toList_append, List.append_assoc, List.append_assoc, readEdge_nodeLine]

theorem readNodes_lines (g : Graph) {rest : List Char} (hn : readNode rest = none)
    (he : readEdge rest = none) :
    readNodes ((String.join (g.map Drawn.lines)).toList ++ rest) = (g, rest) := by
  induction g with
  | nil =>
      have h : (String.join (([] : Graph).map Drawn.lines)).toList ++ rest = rest := rfl
      rw [h, readNodes, hn]
  | cons n g ih =>
      have hread := readNode_lines n (readEdge_lines g he)
      have hlen : ∀ cs : List Char, cs.length < (n.lines.toList ++ cs).length := by
        intro cs
        rw [List.length_append]
        exact Nat.lt_add_of_pos_left (length_lines_pos n)
      rw [List.map_cons, String.join_cons, String.toList_append, List.append_assoc, readNodes,
        hread]
      simp only [if_pos (hlen _), ih]

end Dot

/-! ### Graphs and trees -/

namespace Graph

/-- The graph that a text writes. -/
def read? (text : String) : Option Graph := do
  let (_, cs) ← Dot.expect header.toList text.toList
  let (g, left) := Dot.readNodes cs
  if left = ['\x7d'] then some g else none

/-- Every graph is read back from its text, whatever its labels, numbers and edges. -/
theorem read?_toDot (g : Graph) : read? g.toDot = some g := by
  have hclose : "\x7d".toList = ['\x7d'] := rfl
  rw [toDot, read?, String.toList_append, String.toList_append, List.append_assoc,
    Dot.expect_append, hclose]
  simp only [Option.bind_eq_bind, Option.bind_some]
  rw [Dot.readNodes_lines g rfl rfl]
  rfl

/-- Puts a node in front of trees that wait for their parents: it takes those at the front that wait
for it. -/
def graft (n : Drawn) (waiting : List (Option Nat × Sketch)) : List (Option Nat × Sketch) :=
  (n.parent, .node n.label n.isNamed ((waiting.takeWhile (·.1 == some n.id)).map Prod.snd)) ::
    waiting.dropWhile (·.1 == some n.id)

/-- The tree that the nodes of a graph make up. -/
def assemble? (g : Graph) : Option Sketch :=
  match g.foldr graft [] with
  | [(none, s)] => some s
  | _ => none

/-- The trees wait for parents with numbers below `id`. -/
def WaitingBelow (id : Nat) (waiting : List (Option Nat × Sketch)) : Prop :=
  ∀ q ∈ waiting, ∀ j, q.1 = some j → j < id

theorem WaitingBelow.mono {id id' : Nat} {waiting : List (Option Nat × Sketch)}
    (h : WaitingBelow id waiting) (hle : id ≤ id') : WaitingBelow id' waiting :=
  fun q hq j hj => Nat.lt_of_lt_of_le (h q hq j hj) hle

/-- A node takes all trees that wait for it and no other. -/
theorem graft_of_waitingBelow (n : Drawn) (ss : List Sketch)
    {waiting : List (Option Nat × Sketch)} (h : WaitingBelow n.id waiting) :
    graft n (ss.map (some n.id, ·) ++ waiting) =
      (n.parent, .node n.label n.isNamed ss) :: waiting := by
  have hpos : ∀ q ∈ ss.map (some n.id, ·), (q.1 == some n.id) = true := by
    intro q hq
    obtain ⟨s, -, rfl⟩ := List.mem_map.mp hq
    exact beq_self_eq_true _
  have htake : waiting.takeWhile (·.1 == some n.id) = [] := by
    cases waiting with
    | nil => rfl
    | cons q qs =>
        have hne : ¬ (q.1 == some n.id) = true := fun he =>
          Nat.lt_irrefl _ (h q List.mem_cons_self n.id (eq_of_beq he))
        rw [List.takeWhile_cons, if_neg hne]
  have hdrop : waiting.dropWhile (·.1 == some n.id) = waiting := by
    have := List.takeWhile_append_dropWhile (p := fun q : Option Nat × Sketch => q.1 == some n.id)
      (l := waiting)
    rwa [htake, List.nil_append] at this
  rw [graft, List.takeWhile_append_of_pos hpos, List.dropWhile_append_of_pos hpos, htake, hdrop,
    List.append_nil, List.map_map]
  simp [Function.comp_def]

mutual

/-- Grafted from the last node on, the drawing of a sketch becomes the sketch. -/
theorem foldr_graft_drawing : ∀ (s : Sketch) (parent : Option Nat) (id : Nat)
    (waiting : List (Option Nat × Sketch)), WaitingBelow id waiting →
    (s.drawing parent id).foldr graft waiting = (parent, s) :: waiting
  | .node label isNamed ss, parent, id, waiting, h => by
      rw [Sketch.drawing, List.foldr_cons, foldr_graft_drawings ss id (id + 1) waiting
        (Nat.lt_succ_self id) (h.mono (Nat.le_succ id))]
      exact graft_of_waitingBelow ⟨id, label, isNamed, parent⟩ ss h

theorem foldr_graft_drawings : ∀ (ss : List Sketch) (parent id : Nat)
    (waiting : List (Option Nat × Sketch)), parent < id → WaitingBelow id waiting →
    (Sketch.drawings parent id ss).foldr graft waiting = ss.map (some parent, ·) ++ waiting
  | [], _, _, _, _, _ => rfl
  | s :: ss, parent, id, waiting, hlt, h => by
      have hss : WaitingBelow id (ss.map (some parent, ·) ++ waiting) := by
        intro q hq j hj
        rcases List.mem_append.mp hq with hq | hq
        · obtain ⟨s', -, rfl⟩ := List.mem_map.mp hq
          cases hj
          exact hlt
        · exact h q hq j hj
      rw [Sketch.drawings, List.foldr_append, foldr_graft_drawings ss parent (id + s.size) waiting
        (Nat.lt_add_right _ hlt) (h.mono (Nat.le_add_right _ _)),
        foldr_graft_drawing s (some parent) id _ hss]
      rfl

end

theorem assemble?_drawing (s : Sketch) (id : Nat) : assemble? (s.drawing none id) = some s := by
  rw [assemble?, foldr_graft_drawing s none id [] (by intro q hq; cases hq)]

end Graph

/-- The tree that a text draws. -/
def Sketch.ofDot? (text : String) : Option Sketch := (Graph.read? text).bind Graph.assemble?

theorem Sketch.ofDot?_toDot (t : Tree) (k : Nat) : ofDot? (t.toDot k) = some (t.sketch k) := by
  rw [ofDot?, Tree.toDot, Graph.read?_toDot, Option.bind_some, Tree.graph_eq_drawing,
    Graph.assemble?_drawing]

/-- **The text determines the tree that is drawn**: reading it gives the tree down to the depth
asked for, and two texts are the same only if these trees are. -/
theorem Sketch.ofDot?_toDot_and_toDot_eq_iff :
    (∀ (t : Tree) (k : Nat), ofDot? (t.toDot k) = some (t.sketch k)) ∧
      ∀ (t₁ t₂ : Tree) (k₁ k₂ : Nat),
        t₁.toDot k₁ = t₂.toDot k₂ ↔ t₁.sketch k₁ = t₂.sketch k₂ := by
  refine ⟨ofDot?_toDot, fun t₁ t₂ k₁ k₂ => ⟨fun h => ?_, fun h => ?_⟩⟩
  · have h₁ := ofDot?_toDot t₁ k₁
    rw [h, ofDot?_toDot, Option.some.injEq] at h₁
    exact h₁.symm
  · rw [Tree.toDot_eq, Tree.toDot_eq, h]

end SyntaxInspector
