import SyntaxInspector.Proofs.Preorder
import SyntaxInspector.Tree.Graph

/-! # Numbers and parents in a graph

Which graph a tree is drawn as, said by recursion on the tree: every node hands its own number down
to its children.

* `Sketch` is a tree as it is drawn, with labels and marks only; `Tree.sketch` cuts a tree at a
  depth.
* `Sketch.drawing` numbers a sketch from its root on.  The loop that draws a walk agrees with it
  (`ofPlaced_preorder`): whatever path it starts with, below a node of depth `d` it leaves the first
  `d` numbers of the path alone, so the next sibling finds the number of its parent there.
* `Sketch.render` is the written form of `Sketch.drawing`. -/

namespace SyntaxInspector

/-- A tree as it is drawn. -/
inductive Sketch where
  | node (label : String) (isNamed : Bool) (children : List Sketch)
  deriving Repr

namespace Sketch

mutual

/-- The number of nodes of a sketch. -/
def size : Sketch → Nat
  | node _ _ ss => 1 + sizes ss

/-- The number of nodes of several sketches. -/
def sizes : List Sketch → Nat
  | [] => 0
  | s :: ss => s.size + sizes ss

end

mutual

/-- The graph of a sketch: the root gets the number `id` and the given parent. -/
def drawing (parent : Option Nat) (id : Nat) : Sketch → Graph
  | node label isNamed ss => ⟨id, label, isNamed, parent⟩ :: drawings id (id + 1) ss

/-- The graphs of sketches with a common parent, numbered one behind the other. -/
def drawings (parent id : Nat) : List Sketch → Graph
  | [] => []
  | s :: ss => s.drawing (some parent) id ++ drawings parent (id + s.size) ss

end

mutual

theorem length_drawing : ∀ (s : Sketch) (parent : Option Nat) (id : Nat),
    (s.drawing parent id).length = s.size
  | node _ _ ss, _, id => by
      rw [drawing, List.length_cons, length_drawings ss id (id + 1), size, Nat.add_comm]

theorem length_drawings : ∀ (ss : List Sketch) (parent id : Nat),
    (drawings parent id ss).length = sizes ss
  | [], _, _ => rfl
  | s :: ss, parent, id => by
      rw [drawings, List.length_append, length_drawing s, length_drawings ss, sizes]

end

mutual

theorem isSome_parent_of_mem_drawing : ∀ (s : Sketch) (parent id : Nat),
    ∀ n ∈ s.drawing (some parent) id, n.parent.isSome = true
  | node _ _ ss, _, id => by
      intro n hn
      rw [drawing, List.mem_cons] at hn
      rcases hn with rfl | hn
      · rfl
      · exact isSome_parent_of_mem_drawings ss id (id + 1) n hn

theorem isSome_parent_of_mem_drawings : ∀ (ss : List Sketch) (parent id : Nat),
    ∀ n ∈ drawings parent id ss, n.parent.isSome = true
  | [], _, _ => by
      intro n hn
      cases hn
  | s :: ss, parent, id => by
      intro n hn
      rw [drawings, List.mem_append] at hn
      rcases hn with hn | hn
      · exact isSome_parent_of_mem_drawing s parent id n hn
      · exact isSome_parent_of_mem_drawings ss parent (id + s.size) n hn

end

/-- All nodes but the root have a parent. -/
theorem countP_parent_drawing (s : Sketch) (id : Nat) :
    (s.drawing none id).countP (·.parent.isSome) + 1 = (s.drawing none id).length := by
  cases s with
  | node label isNamed ss =>
      have h : (drawings id (id + 1) ss).countP (·.parent.isSome) =
          (drawings id (id + 1) ss).length :=
        List.countP_eq_length.mpr (isSome_parent_of_mem_drawings ss id (id + 1))
      simp [drawing, h]

end Sketch

/-- The tree down to depth `k` as it is drawn. -/
def Tree.sketch : Nat → Tree → Sketch
  | 0, .node n _ => .node n.kind n.isNamed []
  | k + 1, .node n cs => .node n.kind n.isNamed (cs.map (sketch k))

/-! ### The loop over a walk -/

namespace Graph

/-- The part of a preorder that is drawn. -/
abbrev shown (maxDepth : Nat) (ps : List Placed) : List Placed :=
  ps.filter fun q => Walk.admits (some maxDepth) q.2

theorem shown_preorder (t : Tree) {maxDepth d : Nat} (h : d ≤ maxDepth) :
    shown maxDepth (t.preorder d) =
      (t, d) :: shown maxDepth (Tree.preorders t.children (d + 1)) := by
  have hd : Walk.admits (some maxDepth) d = true := by simpa [Walk.admits] using h
  rw [shown, Tree.preorder_eq, List.filter_cons, if_pos hd, Tree.preorders_eq]

theorem shown_preorders_eq_nil (ts : List Tree) {maxDepth d : Nat} (h : maxDepth < d) :
    shown maxDepth (Tree.preorders ts d) = [] := by
  have hd : Walk.admits (some maxDepth) d = false := by simpa [Walk.admits] using h
  induction ts with
  | nil => rfl
  | cons t ts ih =>
      rw [Tree.preorders, shown, List.filter_append, Walk.filter_preorder_eq_nil hd]
      exact ih

theorem take_of_take_succ {path path' : List Nat} {d id : Nat} (hd : d ≤ path.length)
    (h : path'.take (d + 1) = path.take d ++ [id]) : path'.take d = path.take d := by
  have h' := congrArg (List.take d) h
  have hlen : d ≤ (path.take d).length := by simp; omega
  rwa [List.take_take, Nat.min_eq_left (Nat.le_succ d), List.take_append_of_le_length hlen,
    List.take_take, Nat.min_self] at h'

theorem le_length_of_take_eq {path path' : List Nat} {d : Nat} (hd : d ≤ path.length)
    (h : path'.take d = path.take d) : d ≤ path'.length := by
  have := congrArg List.length h
  rw [List.length_take, List.length_take] at this
  omega

mutual

/-- Drawing a subtree of depth `d` gives its drawing, below the number that the path has for the
depth above.  What follows is drawn with a path that has the same first `d` numbers. -/
theorem ofPlaced_preorder : ∀ (t : Tree) (k d id : Nat) (path : List Nat) (rest : List Placed),
    d ≤ path.length → ∃ path', path'.take d = path.take d ∧
      ofPlaced id path (shown (d + k) (t.preorder d) ++ rest) =
        (t.sketch k).drawing (path.take d).getLast? id ++
          ofPlaced (id + (t.sketch k).size) path' rest
  | .node n cs, 0, d, id, path, rest, hd => by
      refine ⟨path.take d ++ [id], ?_, ?_⟩
      · rw [List.take_append_of_le_length (by simp; omega), List.take_take, Nat.min_self]
      · rw [shown_preorder _ (Nat.le_add_right d 0), shown_preorders_eq_nil _ (by omega)]
        rfl
  | .node n cs, k + 1, d, id, path, rest, hd => by
      have hlen : (path.take d ++ [id]).length = d + 1 := by simp; omega
      obtain ⟨path', hpath, h⟩ := ofPlaced_preorders cs k (d + 1) (id + 1) id (path.take d ++ [id])
        rest (Nat.le_of_eq hlen.symm) (by rw [← hlen, List.take_length, List.getLast?_concat])
      rw [← hlen, List.take_length, hlen] at hpath
      refine ⟨path', take_of_take_succ hd hpath, ?_⟩
      rw [shown_preorder _ (Nat.le_add_right d (k + 1)), List.cons_append, ofPlaced,
        show d + (k + 1) = d + 1 + k by omega, Tree.children_node, h, Tree.sketch, Sketch.drawing,
        Sketch.size, Tree.info_node, List.cons_append, Nat.add_assoc]

theorem ofPlaced_preorders : ∀ (ts : List Tree) (k d id parent : Nat) (path : List Nat)
    (rest : List Placed), d ≤ path.length → (path.take d).getLast? = some parent →
    ∃ path', path'.take d = path.take d ∧
      ofPlaced id path (shown (d + k) (Tree.preorders ts d) ++ rest) =
        Sketch.drawings parent id (ts.map (Tree.sketch k)) ++
          ofPlaced (id + Sketch.sizes (ts.map (Tree.sketch k))) path' rest
  | [], _, _, _, _, path, _, _, _ => ⟨path, rfl, rfl⟩
  | t :: ts, k, d, id, parent, path, rest, hd, hp => by
      obtain ⟨path₁, hpath₁, h₁⟩ := ofPlaced_preorder t k d id path
        (shown (d + k) (Tree.preorders ts d) ++ rest) hd
      obtain ⟨path₂, hpath₂, h₂⟩ := ofPlaced_preorders ts k d (id + (t.sketch k).size) parent path₁
        rest (le_length_of_take_eq hd hpath₁) (by rw [hpath₁, hp])
      refine ⟨path₂, hpath₂.trans hpath₁, ?_⟩
      rw [Tree.preorders, shown, List.filter_append, List.append_assoc, h₁, h₂, hp, List.map_cons,
        Sketch.drawings, Sketch.sizes, List.append_assoc, Nat.add_assoc]

end

end Graph

/-- The graph of a tree is the drawing of its sketch. -/
theorem Tree.graph_eq_drawing (t : Tree) (k : Nat) : t.graph k = (t.sketch k).drawing none 0 := by
  obtain ⟨path, -, h⟩ := Graph.ofPlaced_preorder t k 0 0 [] [] (Nat.le_refl 0)
  rw [List.append_nil, Nat.zero_add, Graph.shown, ← walk_eq_filter] at h
  simpa [graph, Graph.ofPlaced] using h

/-! ### Nodes and positions -/

namespace Graph

theorem map_id_ofPlaced (ps : List Placed) (id : Nat) (path : List Nat) :
    (ofPlaced id path ps).map Drawn.id = List.range' id ps.length := by
  induction ps generalizing id path with
  | nil => rfl
  | cons q ps ih => simp [ofPlaced, ih, List.range'_succ]

theorem map_label_ofPlaced (ps : List Placed) (id : Nat) (path : List Nat) :
    (ofPlaced id path ps).map (fun n => (n.label, n.isNamed)) =
      ps.map fun q => (q.1.info.kind, q.1.info.isNamed) := by
  induction ps generalizing id path with
  | nil => rfl
  | cons q ps ih => simp [ofPlaced, ih]

end Graph

namespace Tree

theorem length_positionsTo (t : Tree) (k : Nat) :
    (t.positionsTo (some k)).length = (t.sketch k).size := by
  have hwalk := congrArg List.length (map_walk t (some k))
  have hgraph := congrArg List.length (Graph.map_label_ofPlaced (t.walk (some k)) 0 [])
  have hdrawing := congrArg List.length (graph_eq_drawing t k)
  rw [List.length_map, List.length_map] at hwalk hgraph
  rw [graph, Sketch.length_drawing] at hdrawing
  omega

theorem eq_of_mem_zip_of_map_eq {α β γ : Type} {f : α → γ} {g : β → γ} {as : List α} {bs : List β}
    (h : as.map f = bs.map g) : ∀ x ∈ as.zip bs, f x.1 = g x.2 := by
  intro x hx
  obtain ⟨i, hi, rfl⟩ := List.mem_iff_getElem.mp hx
  have hf := congrArg (fun l => l[i]?) h
  rw [List.length_zip] at hi
  simpa [List.getElem?_eq_getElem (show i < as.length by omega),
    List.getElem?_eq_getElem (show i < bs.length by omega)] using hf

/-- The node drawn for a position is the one that is there. -/
theorem subtree?_of_mem_zip_graph (t : Tree) (k : Nat) :
    ∀ x ∈ (t.positionsTo (some k)).zip (t.graph k),
      (t.subtree? x.1).map (fun s => (s.info.kind, s.info.isNamed)) =
        some (x.2.label, x.2.isNamed) := by
  have hwalk := congrArg (List.map fun r => r.1.map fun s => (s.info.kind, s.info.isNamed))
    (map_walk t (some k))
  have hgraph := congrArg (List.map some) (Graph.map_label_ofPlaced (t.walk (some k)) 0 [])
  rw [List.map_map, List.map_map] at hwalk hgraph
  have h : (t.positionsTo (some k)).map
        (fun p => (t.subtree? p).map fun s => (s.info.kind, s.info.isNamed)) =
      (t.graph k).map fun n => some (n.label, n.isNamed) := hwalk.symm.trans hgraph.symm
  exact eq_of_mem_zip_of_map_eq h

/-- The positions in the children from the one with number `i` on, down to depth `k` in each. -/
def positionsFromTo (k i : Nat) (ts : List Tree) : List (List Nat) :=
  (positionsFrom i ts).filter fun p => Walk.admits (some (k + 1)) p.length

theorem positionsTo_zero (n : Node) (cs : List Tree) :
    (node n cs).positionsTo (some 0) = [[]] := by
  have h : (positionsFrom 0 cs).filter (fun p => Walk.admits (some 0) p.length) = [] := by
    rw [List.filter_eq_nil_iff]
    intro p hp
    obtain ⟨j, q, c, rfl, -, -⟩ := mem_positionsFrom.mp hp
    simp [Walk.admits]
  rw [positionsTo, positions, List.filter_cons, h]
  rfl

theorem positionsTo_succ (n : Node) (cs : List Tree) (k : Nat) :
    (node n cs).positionsTo (some (k + 1)) = [] :: positionsFromTo k 0 cs := by
  rw [positionsTo, positions, List.filter_cons, if_pos (by simp [Walk.admits]), positionsFromTo]

theorem positionsFromTo_cons (k i : Nat) (t : Tree) (ts : List Tree) :
    positionsFromTo k i (t :: ts) =
      (t.positionsTo (some k)).map (i :: ·) ++ positionsFromTo k (i + 1) ts := by
  simp [positionsFromTo, positionsFrom, positionsTo, List.filter_map, Function.comp_def,
    Walk.admits]

/-- A node drawn at a position is joined to the node drawn at the position above. -/
def ChildOf (x y : List Nat × Drawn) : Prop :=
  ∃ i, x.1 = y.1 ++ [i] ∧ x.2.parent = some y.2.id ∧ y.2.id < x.2.id

theorem ChildOf.below {x y : List Nat × Drawn} (h : ChildOf x y) (i : Nat) :
    ChildOf (i :: x.1, x.2) (i :: y.1, y.2) := by
  obtain ⟨j, hj, hp, hlt⟩ := h
  exact ⟨j, by rw [hj, List.cons_append], hp, hlt⟩

/-- The positions down to a depth, each with the node drawn there. -/
def placements (t : Tree) (k : Nat) (parent : Option Nat) (id : Nat) : List (List Nat × Drawn) :=
  (t.positionsTo (some k)).zip ((t.sketch k).drawing parent id)

/-- The same for the children from the one with number `i` on. -/
def placementsFrom (i : Nat) (ts : List Tree) (k parent id : Nat) : List (List Nat × Drawn) :=
  (positionsFromTo k i ts).zip (Sketch.drawings parent id (ts.map (sketch k)))

theorem placements_zero (n : Node) (cs : List Tree) (parent : Option Nat) (id : Nat) :
    (node n cs).placements 0 parent id = [([], ⟨id, n.kind, n.isNamed, parent⟩)] := by
  rw [placements, positionsTo_zero]
  rfl

theorem placements_succ (n : Node) (cs : List Tree) (k : Nat) (parent : Option Nat) (id : Nat) :
    (node n cs).placements (k + 1) parent id =
      ([], ⟨id, n.kind, n.isNamed, parent⟩) :: placementsFrom 0 cs k id (id + 1) := by
  rw [placements, positionsTo_succ]
  rfl

theorem placementsFrom_cons (i : Nat) (t : Tree) (ts : List Tree) (k parent id : Nat) :
    placementsFrom i (t :: ts) k parent id =
      (t.placements k (some parent) id).map (fun x => (i :: x.1, x.2)) ++
        placementsFrom (i + 1) ts k parent (id + (t.sketch k).size) := by
  have hlen : ((t.positionsTo (some k)).map (i :: ·)).length =
      ((t.sketch k).drawing (some parent) id).length := by
    rw [List.length_map, length_positionsTo, Sketch.length_drawing]
  rw [placementsFrom, positionsFromTo_cons, List.map_cons, Sketch.drawings,
    List.zip_append hlen, List.zip_map_left]
  rfl

mutual

theorem childOf_of_mem_placements : ∀ (t : Tree) (k id : Nat) (parent : Option Nat),
    ∀ x ∈ t.placements k parent id, (x.1 = [] ∧ x.2.parent = parent ∧ x.2.id = id) ∨
      ∃ y ∈ t.placements k parent id, ChildOf x y
  | node n cs, 0, id, parent => by
      intro x hx
      rw [placements_zero, List.mem_singleton] at hx
      subst hx
      exact .inl ⟨rfl, rfl, rfl⟩
  | node n cs, k + 1, id, parent => by
      intro x hx
      rw [placements_succ] at hx ⊢
      rcases List.mem_cons.mp hx with rfl | hx
      · exact .inl ⟨rfl, rfl, rfl⟩
      · exact .inr (childOf_of_mem_placementsFrom cs 0 k (id + 1) _ (Nat.lt_succ_self id) x hx)

/-- The children of a node, drawn after it, are joined to it, and all below them as well. -/
theorem childOf_of_mem_placementsFrom : ∀ (ts : List Tree) (i k id : Nat) (root : Drawn),
    root.id < id → ∀ x ∈ placementsFrom i ts k root.id id,
      ∃ y ∈ ([], root) :: placementsFrom i ts k root.id id, ChildOf x y
  | [], _, _, _, _, _ => by
      intro x hx
      cases hx
  | t :: ts, i, k, id, root, hlt => by
      intro x hx
      rw [placementsFrom_cons] at hx ⊢
      rcases List.mem_append.mp hx with hx | hx
      · obtain ⟨z, hz, rfl⟩ := List.mem_map.mp hx
        rcases childOf_of_mem_placements t k id (some root.id) z hz with ⟨h, hp, hid⟩ | ⟨y, hy, h⟩
        · exact ⟨_, List.mem_cons_self, i, by rw [h]; rfl, hp, by rw [hid]; exact hlt⟩
        · exact ⟨_, List.mem_cons_of_mem _ (List.mem_append_left _ (List.mem_map_of_mem hy)),
            h.below i⟩
      · obtain ⟨y, hy, h⟩ := childOf_of_mem_placementsFrom ts (i + 1) k
          (id + (t.sketch k).size) root (Nat.lt_add_right _ hlt) x hx
        rcases List.mem_cons.mp hy with rfl | hy
        · exact ⟨_, List.mem_cons_self, h⟩
        · exact ⟨y, List.mem_cons_of_mem _ (List.mem_append_right _ hy), h⟩

end

end Tree

/-! ### The written form -/

/-- How the colours of a node are written. -/
def colourText (isNamed : Bool) : String :=
  if isNamed then "fillcolor=\"#E3F2FD\", color=\"#1976D2\""
  else "fillcolor=\"#F5F5F5\", color=\"#757575\""

/-- The line of a node. -/
def nodeLine (id : Nat) (label : String) (isNamed : Bool) : String :=
  "  node" ++ toString id ++ " [label=\"" ++ escapeLabel label ++ "\", " ++ colourText isNamed ++
    ", style=\"rounded,filled\"];\n"

/-- The line of the edge from the parent; the root has none. -/
def edgeLine (parent : Option Nat) (id : Nat) : String :=
  match parent with
  | none => ""
  | some p => "  node" ++ toString p ++ " -> node" ++ toString id ++ ";\n"

theorem spaces_append_name (id : Nat) : "  " ++ Drawn.name id = "  node" ++ toString id := by
  rw [Drawn.name, ← String.append_assoc]
  rfl

theorem arrow_append_name (id : Nat) : " -> " ++ Drawn.name id = " -> node" ++ toString id := by
  rw [Drawn.name, ← String.append_assoc]
  rfl

theorem colourText_eq (isNamed : Bool) :
    "\", fillcolor=\"" ++ ((Colours.ofNode isNamed).fill ++ ("\", color=\"" ++
        ((Colours.ofNode isNamed).border ++ "\", style=\"rounded,filled\"];\n"))) =
      "\", " ++ (colourText isNamed ++ ", style=\"rounded,filled\"];\n") := by
  cases isNamed <;> rfl

theorem Drawn.lines_eq (n : Drawn) :
    n.lines = nodeLine n.id n.label n.isNamed ++ edgeLine n.parent n.id := by
  obtain ⟨id, label, isNamed, parent⟩ := n
  simp only [Drawn.lines, nodeLine, spaces_append_name, ← colourText_eq, String.append_assoc]
  cases parent with
  | none => rfl
  | some p =>
      rw [edgeLine, ← @String.append_assoc " -> ", arrow_append_name]
      simp only [String.append_assoc]

namespace Sketch

mutual

/-- The lines of a sketch: the root gets the number `id` and an edge from its parent. -/
def render (parent : Option Nat) (id : Nat) : Sketch → String
  | node label isNamed ss =>
    nodeLine id label isNamed ++ edgeLine parent id ++ renders id (id + 1) ss

/-- The lines of sketches with a common parent, numbered one behind the other. -/
def renders (parent id : Nat) : List Sketch → String
  | [] => ""
  | s :: ss => s.render (some parent) id ++ renders parent (id + s.size) ss

end

mutual

theorem join_lines_drawing : ∀ (s : Sketch) (parent : Option Nat) (id : Nat),
    String.join ((s.drawing parent id).map Drawn.lines) = s.render parent id
  | node label isNamed ss, parent, id => by
      rw [drawing, List.map_cons, String.join_cons, join_lines_drawings ss, Drawn.lines_eq, render]

theorem join_lines_drawings : ∀ (ss : List Sketch) (parent id : Nat),
    String.join ((drawings parent id ss).map Drawn.lines) = renders parent id ss
  | [], _, _ => rfl
  | s :: ss, parent, id => by
      rw [drawings, List.map_append, String.join_append, join_lines_drawing s,
        join_lines_drawings ss, renders]

end

end Sketch

namespace Tree

theorem toDot_eq (t : Tree) (k : Nat) :
    t.toDot k = Graph.header ++ (t.sketch k).render none 0 ++ "\x7d" := by
  rw [toDot, graph_eq_drawing, Graph.toDot, Sketch.join_lines_drawing]

/-- **Every node is joined to its parent.**  The written graph is the rendering of the tree down to
depth `k`, in which each node hands its number to its children.  Its nodes are those of the preorder
down to depth `k`, numbered without gaps, each on a line of its own with the edge from the parent
behind it; the number in that edge is the one given to the node at the position above. -/
theorem toDot_eq_render_and_parents (t : Tree) (k : Nat) :
    t.toDot k = Graph.header ++ (t.sketch k).render none 0 ++ "\x7d" ∧
      t.toDot k = Graph.header ++ String.join ((t.graph k).map fun n =>
        nodeLine n.id n.label n.isNamed ++ edgeLine n.parent n.id) ++ "\x7d" ∧
      (t.graph k).map (fun n => (n.label, n.isNamed)) =
        (t.preorderTo (some k)).map (fun q => (q.1.info.kind, q.1.info.isNamed)) ∧
      (t.graph k).map Drawn.id = List.range (t.preorderTo (some k)).length ∧
      (t.positionsTo (some k)).length = (t.graph k).length ∧
      (∀ x ∈ (t.positionsTo (some k)).zip (t.graph k),
        (t.subtree? x.1).map (fun s => (s.info.kind, s.info.isNamed)) =
            some (x.2.label, x.2.isNamed) ∧
          ((x.1 = [] ∧ x.2.parent = none) ∨
            ∃ y ∈ (t.positionsTo (some k)).zip (t.graph k), ChildOf x y)) ∧
      (t.graph k).countP (·.parent.isSome) + 1 = (t.graph k).length := by
  refine ⟨toDot_eq t k, ?_, ?_, ?_, ?_, fun x hx => ⟨subtree?_of_mem_zip_graph t k x hx, ?_⟩, ?_⟩
  · simp only [← Drawn.lines_eq]
    rfl
  · rw [← walk_eq_preorderTo, graph, Graph.map_label_ofPlaced]
  · rw [← walk_eq_preorderTo, graph, Graph.map_id_ofPlaced, List.range_eq_range']
  · rw [length_positionsTo, graph_eq_drawing, Sketch.length_drawing]
  · rw [graph_eq_drawing] at hx ⊢
    rcases childOf_of_mem_placements t k 0 none x hx with ⟨h, hp, -⟩ | h
    · exact .inl ⟨h, hp⟩
    · exact .inr h
  · rw [graph_eq_drawing, Sketch.countP_parent_drawing]

end Tree

end SyntaxInspector
