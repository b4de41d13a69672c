import SyntaxInspector.Proofs.Numbering
import SyntaxInspector.Proofs.OutlineLines
import SyntaxInspector.Proofs.Statistics

/-! # Two views under one limit

The graph and the outline of a tree, limited to the same depth, and the summary of the whole tree.

* `Tree.nodeLineAt` and `Tree.entryAt` are what the two views say of the node at a position.  Both
  views run through the same positions (`map_nodeLine_graph`, `entries_eq`), and neither depends on
  the limit, so a limit only takes entries away.
* A limit takes nothing away exactly from the height of the tree on: `height_le_iff` compares the
  height with the depths of all nodes, `walk_of_height_le` and `length_walk_lt` are the two sides of
  the boundary. -/

namespace SyntaxInspector
namespace Tree

/-! ### What the views say of a node -/

/-- The line of the node at a position, in a graph where it has the number `id`. -/
def nodeLineAt (t : Tree) (p : List Nat) (id : Nat) : String :=
  (t.subtree? p).elim "" fun s => nodeLine id s.info.kind s.info.isNamed

/-- The entry of the node at a position. -/
def entryAt (t : Tree) (source : String) (p : List Nat) : String :=
  (t.subtree? p).elim "" fun s => Outline.entry source.toList (s, p.length)

/-- The entries of an outline. -/
def entries (t : Tree) (source : String) (maxDepth : Option Nat) : List String :=
  (t.walk maxDepth).map (Outline.entry source.toList)

theorem entries_eq (t : Tree) (source : String) (maxDepth : Option Nat) :
    t.entries source maxDepth = (t.positionsTo maxDepth).map (t.entryAt source) := by
  have h := congrArg (List.map fun r : Option Tree × Nat =>
    r.1.elim "" fun s => Outline.entry source.toList (s, r.2)) (map_walk t maxDepth)
  rw [List.map_map, List.map_map] at h
  exact h

/-- A node with children has the same entry whether or not its children have one. -/
theorem entryAt_of_not_isLeaf {t s : Tree} {p : List Nat} (source : String)
    (h : t.subtree? p = some s) (hleaf : s.isLeaf = false) :
    t.entryAt source p =
      String.ofList (List.replicate (2 * p.length) ' ') ++ s.info.kind ++ " [" ++
        toString s.info.startByte ++ ".." ++ toString s.info.endByte ++ "] " ++
          Text.quote (String.ofList (Outline.shorten Outline.previewLimit
            (Outline.covered source.toList s.info))) ++ "\n" := by
  rw [entryAt, h, Option.elim_some, Outline.entry, Outline.preview, hleaf]
  simp only [Bool.false_eq_true, if_false, String.append_empty]

end Tree

theorem Graph.map_nodeLine_ofPlaced (ps : List Placed) (id : Nat) (path : List Nat) :
    (ofPlaced id path ps).map (fun n => nodeLine n.id n.label n.isNamed) =
      (ps.zipIdx id).map fun x => nodeLine x.2 x.1.1.info.kind x.1.1.info.isNamed := by
  induction ps generalizing id path with
  | nil => rfl
  | cons q ps ih =>
      rw [ofPlaced, List.map_cons, ih, List.zipIdx_cons, List.map_cons]

namespace Tree

/-- The graph has its node lines for the positions, in order. -/
theorem map_nodeLine_graph (t : Tree) (k : Nat) :
    (t.graph k).map (fun n => nodeLine n.id n.label n.isNamed) =
      (t.positionsTo (some k)).zipIdx.map fun x => t.nodeLineAt x.1 x.2 := by
  have h := congrArg (fun l : List (Option Tree × Nat) => l.zipIdx.map fun x =>
    x.1.1.elim "" fun s => nodeLine x.2 s.info.kind s.info.isNamed) (map_walk t (some k))
  simp only [List.zipIdx_map, List.map_map] at h
  rw [graph, Graph.map_nodeLine_ofPlaced]
  exact h

/-! ### Limits and the height -/

theorem deepest_le_iff {seen n : Nat} {ps : List Placed} :
    deepest seen ps ≤ n ↔ seen ≤ n ∧ ∀ q ∈ ps, q.2 ≤ n := by
  induction ps generalizing seen with
  | nil => simp [deepest]
  | cons q ps ih =>
      have hstep : deepest seen (q :: ps) = deepest (max seen q.2) ps := rfl
      rw [hstep, ih, Nat.max_le, List.forall_mem_cons, and_assoc]

/-- The height bounds the depths of the nodes, and nothing less does. -/
theorem height_le_iff {t : Tree} {n : Nat} : t.height ≤ n ↔ ∀ q ∈ t.preorder 0, q.2 ≤ n := by
  have h := deepest_preorder t 0 0
  rw [Nat.zero_max, Nat.zero_add] at h
  rw [← h, deepest_le_iff]
  exact and_iff_right (Nat.zero_le n)

theorem walk_none_eq (t : Tree) : t.walk none = t.preorder 0 := walk_eq_preorderTo t none

theorem walk_some_eq (t : Tree) (k : Nat) :
    t.walk (some k) = (t.preorder 0).filter (·.2 ≤ k) := walk_eq_preorderTo t (some k)

/-- A limit that the height keeps to takes nothing away. -/
theorem walk_of_height_le {t : Tree} {k : Nat} (h : t.height ≤ k) :
    t.walk (some k) = t.walk none := by
  rw [walk_some_eq, walk_none_eq, List.filter_eq_self]
  intro q hq
  exact decide_eq_true (height_le_iff.mp h q hq)

/-- A limit below the height takes something away. -/
theorem length_walk_lt {t : Tree} {k : Nat} (h : k < t.height) :
    (t.walk (some k)).length < t.size := by
  have hdeep : ¬ ∀ q ∈ t.preorder 0, q.2 ≤ k := by
    rw [← height_le_iff]
    omega
  rw [walk_some_eq, ← length_preorder t 0, List.length_filter_lt_length_iff_exists]
  simpa using hdeep

/-! ### Both views -/

theorem positionsTo_none (t : Tree) : t.positionsTo none = t.positions := by
  rw [positionsTo, List.filter_eq_self]
  intro p _
  rfl

theorem positionsTo_some (t : Tree) (k : Nat) :
    t.positionsTo (some k) = t.positions.filter (·.length ≤ k) := rfl

theorem length_graph (t : Tree) (k : Nat) : (t.graph k).length = (t.walk (some k)).length := by
  have h := congrArg List.length (Graph.map_label_ofPlaced (t.walk (some k)) 0 [])
  rwa [List.length_map, List.length_map] at h

theorem length_entries (t : Tree) (source : String) (maxDepth : Option Nat) :
    (t.entries source maxDepth).length = (t.walk maxDepth).length := List.length_map _

theorem length_walk_some (t : Tree) (k : Nat) :
    (t.walk (some k)).length = t.positions.countP (·.length ≤ k) := by
  have h := congrArg List.length (map_walk t (some k))
  rwa [List.length_map, List.length_map, positionsTo_some, ← List.countP_eq_length_filter] at h

theorem toDot_of_height_le {t : Tree} {k : Nat} (h : t.height ≤ k) :
    t.toDot k = (Graph.ofPlaced 0 [] (t.walk none)).toDot := by
  rw [toDot, graph, walk_of_height_le h]

/-- **Graph and outline show the same nodes.**  The graph has a node line and the outline an entry
for each position down to the limit, in the same order; what stands there depends on the node and
not on the limit, so that the entries are those of the whole outline without the deeper ones.  Both
views show all nodes that the summary counts exactly if the limit is at least the depth that it
gives, and then they are the same for every such limit. -/
theorem graph_and_outline_show_positionsTo (t : Tree) (source : String) (k : Nat) :
    t.toDot k = Graph.header ++ String.join ((t.graph k).map fun n =>
        nodeLine n.id n.label n.isNamed ++ edgeLine n.parent n.id) ++ "\x7d" ∧
      (t.graph k).map (fun n => nodeLine n.id n.label n.isNamed) =
        (t.positionsTo (some k)).zipIdx.map (fun x => t.nodeLineAt x.1 x.2) ∧
      t.outline source (some k) = String.join (t.entries source (some k)) ∧
      t.entries source (some k) = (t.positionsTo (some k)).map (t.entryAt source) ∧
      t.outline source none = String.join (t.positions.map (t.entryAt source)) ∧
      t.positionsTo (some k) = t.positions.filter (·.length ≤ k) ∧
      (∀ p, p ∈ t.positions ↔ (t.subtree? p).isSome = true) ∧
      (t.graph k).length = t.positions.countP (·.length ≤ k) ∧
      (t.entries source (some k)).length = t.positions.countP (·.length ≤ k) ∧
      (∀ p s, t.subtree? p = some s → s.isLeaf = false → t.entryAt source p =
        String.ofList (List.replicate (2 * p.length) ' ') ++ s.info.kind ++ " [" ++
          toString s.info.startByte ++ ".." ++ toString s.info.endByte ++ "] " ++
            Text.quote (String.ofList (Outline.shorten Outline.previewLimit
              (Outline.covered source.toList s.info))) ++ "\n") ∧
      (t.summary.maxDepth ≤ k →
        (t.graph k).length = t.summary.totalNodes ∧
          (t.entries source (some k)).length = t.summary.totalNodes ∧
          t.outline source (some k) = t.outline source none ∧
          ∀ k', t.summary.maxDepth ≤ k' → t.toDot k' = t.toDot k) ∧
      (k < t.summary.maxDepth →
        (t.graph k).length < t.summary.totalNodes ∧
          (t.entries source (some k)).length < t.summary.totalNodes) := by
  have hheight : t.summary.maxDepth = t.height := congrArg Summary.maxDepth (summary_eq t)
  have htotal : t.summary.totalNodes = t.size := congrArg Summary.totalNodes (summary_eq t)
  have hgraph : (t.graph k).length = (t.walk (some k)).length := length_graph t k
  have hentries : (t.entries source (some k)).length = (t.walk (some k)).length :=
    length_entries t source (some k)
  rw [hheight, htotal, hgraph, hentries]
  refine ⟨?dot, map_nodeLine_graph t k, rfl, entries_eq t source (some k), ?whole,
    positionsTo_some t k, fun p => mem_positions, length_walk_some t k, length_walk_some t k,
    fun p s hs hleaf => entryAt_of_not_isLeaf source hs hleaf, fun h => ?all, fun h => ?fewer⟩
  case dot =>
    simp only [← Drawn.lines_eq]
    rfl
  case whole =>
    rw [← positionsTo_none, ← entries_eq]
    rfl
  case all =>
    have hsize : (t.walk (some k)).length = t.size := by
      rw [walk_of_height_le h, walk_none_eq, length_preorder]
    refine ⟨hsize, hsize, ?_, fun k' h' => ?_⟩
    · rw [outline, outline, walk_of_height_le h]
    · rw [toDot_of_height_le h, toDot_of_height_le h']
  case fewer => exact ⟨length_walk_lt h, length_walk_lt h⟩

end Tree
end SyntaxInspector
