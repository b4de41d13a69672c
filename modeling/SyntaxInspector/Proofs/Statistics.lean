import SyntaxInspector.Proofs.Preorder
import SyntaxInspector.Proofs.Tallies
import SyntaxInspector.Summary.Basic

/-! # What a summary counts

The summary of a tree is computed in one pass over a walk.  Here the same figures are defined by
recursion on the tree.

* `Tree.countNodes` counts the nodes with a property, `Tree.height` is the depth of the deepest
  node, `Tree.kindTally` adds up the tallies of the children and counts the root;
  `Tree.statistics` puts them together.
* One more node changes the four figures of a summary in different ways (`Summary.add`), so each has
  a lemma about the pass over any list of nodes, from any summary on (`totalNodes_foldl_add` and its
  companions).
* The nodes of the walk are those of the preorder, and over a preorder the figures are those
  defined by recursion. -/

namespace SyntaxInspector

/-- The node is named and has this kind. -/
def Node.isOfKind (kind : String) (n : Node) : Bool := n.isNamed && n.kind == kind

/-- What a summary says about a child of the root. -/
def TopLevel.ofNode (n : Node) : TopLevel where
  kind := n.kind
  start := ⟨n.startPoint.row + 1, n.startPoint.column⟩
  stop := ⟨n.endPoint.row + 1, n.endPoint.column⟩

namespace Tree

/-! ### Statistics by recursion -/

mutual

/-- The number of nodes of a tree that have a property. -/
def countNodes (p : Node → Bool) : Tree → Nat
  | node n cs => (if p n then 1 else 0) + countNodesIn p cs

/-- The number of nodes of several trees that have a property. -/
def countNodesIn (p : Node → Bool) : List Tree → Nat
  | [] => 0
  | t :: ts => t.countNodes p + countNodesIn p ts

end

mutual

/-- The depth of the deepest node; the root has depth 0. -/
def height : Tree → Nat
  | node _ cs => depthBelow cs

/-- The depth of the deepest node below a root with these children. -/
def depthBelow : List Tree → Nat
  | [] => 0
  | t :: ts => max (t.height + 1) (depthBelow ts)

end

mutual

/-- The named nodes of a tree by kind: those of its children, and the root. -/
def kindTally : Tree → Tally
  | node n cs => if n.isNamed then (kindTallies cs).bump n.kind else kindTallies cs

/-- The named nodes of several trees by kind. -/
def kindTallies : List Tree → Tally
  | [] => .empty
  | t :: ts => t.kindTally.plus (kindTallies ts)

end

/-- What a tree consists of, by recursion. -/
def statistics (t : Tree) : Summary where
  totalNodes := t.size
  maxDepth := t.height
  kinds := t.kindTally
  topLevel := (t.children.filter (·.info.isNamed)).map fun c => .ofNode c.info

theorem countNodesIn_eq (p : Node → Bool) (ts : List Tree) :
    countNodesIn p ts = (ts.map (countNodes p)).sum := by
  induction ts with
  | nil => rfl
  | cons t ts ih => rw [countNodesIn, ih, List.map_cons, List.sum_cons]

theorem countNodes_eq (p : Node → Bool) (t : Tree) :
    t.countNodes p = (if p t.info then 1 else 0) + (t.children.map (countNodes p)).sum := by
  cases t with
  | node n cs => rw [countNodes, countNodesIn_eq, info_node, children_node]

mutual

theorem stores_kindTally : ∀ t : Tree, t.kindTally.Stores fun k => t.countNodes (Node.isOfKind k)
  | node n cs => by
      rw [kindTally]
      have hcs := stores_kindTallies cs
      split
      · rename_i hn
        refine (hcs.bump n.kind).congr fun k => ?_
        rw [countNodes, Node.isOfKind, hn, Bool.true_and, Nat.add_comm]
        by_cases hk : n.kind = k
        · simp [hk]
        · simp [hk, Ne.symm hk]
      · rename_i hn
        refine hcs.congr fun k => ?_
        rw [countNodes, Node.isOfKind, Bool.eq_false_iff.mpr hn]
        simp

theorem stores_kindTallies : ∀ ts : List Tree,
    (kindTallies ts).Stores fun k => countNodesIn (Node.isOfKind k) ts
  | [] => Tally.Stores.empty
  | t :: ts => (stores_kindTally t).plus (stores_kindTallies ts)

end

/-! ### Statistics of a preorder -/

mutual

theorem length_preorder : ∀ (t : Tree) (d : Nat), (t.preorder d).length = t.size
  | node n cs, d => by
      rw [preorder, List.length_cons, length_preorders cs, size, Nat.add_comm]

theorem length_preorders : ∀ (ts : List Tree) (d : Nat), (preorders ts d).length = sizes ts
  | [], _ => rfl
  | t :: ts, d => by
      rw [preorders, List.length_append, length_preorder t, length_preorders ts, sizes]

end

mutual

theorem countP_preorder (p : Node → Bool) : ∀ (t : Tree) (d : Nat),
    (t.preorder d).countP (fun q => p q.1.info) = t.countNodes p
  | node n cs, d => by
      rw [preorder, List.countP_cons, countP_preorders p cs, countNodes, info_node, Nat.add_comm]

theorem countP_preorders (p : Node → Bool) : ∀ (ts : List Tree) (d : Nat),
    (preorders ts d).countP (fun q => p q.1.info) = countNodesIn p ts
  | [], _ => rfl
  | t :: ts, d => by
      rw [preorders, List.countP_append, countP_preorder p t, countP_preorders p ts, countNodesIn]

end

/-- The greatest depth of some visits, or a depth already seen. -/
def deepest (seen : Nat) (ps : List Placed) : Nat := ps.foldl (fun d q => max d q.2) seen

mutual

theorem deepest_preorder : ∀ (t : Tree) (d seen : Nat),
    deepest seen (t.preorder d) = max seen (d + t.height)
  | node n cs, d, seen => by
      have hbelow := deepest_preorders cs d (max seen d) (Nat.le_max_right seen d)
      rw [deepest] at hbelow
      rw [preorder, deepest, List.foldl_cons, hbelow, height]
      omega

theorem deepest_preorders : ∀ (ts : List Tree) (d seen : Nat), d ≤ seen →
    deepest seen (preorders ts (d + 1)) = max seen (d + depthBelow ts)
  | [], d, seen, h => by
      rw [preorders, deepest, List.foldl_nil, depthBelow]
      omega
  | t :: ts, d, seen, h => by
      have hfirst := deepest_preorder t (d + 1) seen
      have hrest := deepest_preorders ts d (max seen (d + 1 + t.height)) (by omega)
      rw [deepest] at hfirst hrest
      rw [preorders, deepest, List.foldl_append, hfirst, hrest, depthBelow]
      omega

end

/-- A visit of a named child of the root. -/
def isTopLevel (q : Placed) : Bool := q.1.info.isNamed && q.2 == 1

theorem filter_isTopLevel_preorder (t : Tree) :
    (t.preorder 1).filter isTopLevel = if t.info.isNamed then [(t, 1)] else [] := by
  have hbelow : (t.children.flatMap (·.preorder 2)).filter isTopLevel = [] := by
    rw [List.filter_eq_nil_iff]
    intro q hq
    obtain ⟨c, -, hq⟩ := List.mem_flatMap.mp hq
    have hle := le_of_mem_preorder hq
    have hne : q.2 ≠ 1 := by omega
    simp [isTopLevel, hne]
  rw [preorder_eq, List.filter_cons, hbelow]
  simp [isTopLevel]

theorem filter_isTopLevel_preorder_zero (t : Tree) :
    (t.preorder 0).filter isTopLevel = (t.children.filter (·.info.isNamed)).map (·, 1) := by
  have hchildren : ∀ cs : List Tree, (cs.flatMap (·.preorder 1)).filter isTopLevel =
      (cs.filter (·.info.isNamed)).map (·, 1) := by
    intro cs
    induction cs with
    | nil => rfl
    | cons c cs ih =>
        rw [List.flatMap_cons, List.filter_append, filter_isTopLevel_preorder, ih,
          List.filter_cons]
        split <;> rfl
  rw [preorder_eq, List.filter_cons, hchildren]
  simp [isTopLevel]

end Tree

/-! ### The pass over a walk -/

namespace Summary

open SyntaxInspector.Tree (deepest isTopLevel)

variable {s : Summary} {ps : List Placed}

/-- What one more node does to each figure. -/
theorem add_eq (s : Summary) (p : Placed) :
    s.add p =
      { totalNodes := s.totalNodes + 1
        maxDepth := max s.maxDepth p.2
        kinds := if p.1.info.isNamed then s.kinds.bump p.1.info.kind else s.kinds
        topLevel := s.topLevel ++ if isTopLevel p then [TopLevel.ofNode p.1.info] else [] } := by
  obtain ⟨t, d⟩ := p
  simp only [add, isTopLevel]
  by_cases hn : t.info.isNamed = true
  · by_cases hd : d = 1
    · simp [hn, hd, TopLevel.ofNode, Position.ofPoint]
    · simp [hn, hd]
  · simp [hn]

theorem totalNodes_foldl_add : (ps.foldl add s).totalNodes = s.totalNodes + ps.length := by
  induction ps generalizing s with
  | nil => rfl
  | cons p ps ih =>
      rw [List.foldl_cons, ih, add_eq]
      simp only [List.length_cons]
      omega

theorem maxDepth_foldl_add : (ps.foldl add s).maxDepth = deepest s.maxDepth ps := by
  induction ps generalizing s with
  | nil => rfl
  | cons p ps ih =>
      rw [List.foldl_cons, ih, add_eq]
      rfl

/-- The tally of the pass stores what was stored before and the named nodes of the walk. -/
theorem stores_foldl_add {c : String → Nat} (h : s.kinds.Stores c) :
    (ps.foldl add s).kinds.Stores
      fun k => c k + ps.countP fun q => Node.isOfKind k q.1.info := by
  induction ps generalizing s c with
  | nil => exact h
  | cons p ps ih =>
      have hstep : (s.add p).kinds.Stores
          fun k => c k + if Node.isOfKind k p.1.info then 1 else 0 := by
        rw [add_eq]
        cases hn : p.1.info.isNamed with
        | false => exact h.congr fun k => by simp [Node.isOfKind, hn]
        | true =>
            refine (h.bump p.1.info.kind).congr fun k => ?_
            by_cases hk : k = p.1.info.kind
            · simp [Node.isOfKind, hn, hk]
            · simp [Node.isOfKind, hn, hk, Ne.symm hk]
      refine (ih hstep).congr fun k => ?_
      rw [List.countP_cons]
      omega

theorem total_kinds_foldl_add :
    (ps.foldl add s).kinds.total =
      s.kinds.total + ps.countP fun q => q.1.info.isNamed := by
  induction ps generalizing s with
  | nil => rfl
  | cons p ps ih =>
      rw [List.foldl_cons, ih, add_eq, List.countP_cons]
      split
      · rw [Tally.total_bump]
        omega
      · rfl

theorem topLevel_foldl_add :
    (ps.foldl add s).topLevel =
      s.topLevel ++ (ps.filter isTopLevel).map fun q => TopLevel.ofNode q.1.info := by
  induction ps generalizing s with
  | nil => rw [List.foldl_nil, List.filter_nil, List.map_nil, List.append_nil]
  | cons p ps ih =>
      rw [List.foldl_cons, ih, add_eq, List.append_assoc, List.filter_cons]
      split <;> rfl

end Summary

/-! ### Summaries and statistics -/

namespace Tree

theorem summary_eq_foldl (t : Tree) : t.summary = (t.preorder 0).foldl Summary.add .empty := by
  rw [summary, walk_eq_preorderTo, preorderTo]

theorem stores_summary (t : Tree) :
    t.summary.kinds.Stores fun k => t.countNodes (Node.isOfKind k) := by
  rw [summary_eq_foldl]
  refine (Summary.stores_foldl_add Tally.Stores.empty).congr fun k => ?_
  rw [Nat.zero_add, countP_preorder (Node.isOfKind k)]

theorem topLevel_summary (t : Tree) :
    t.summary.topLevel =
      (t.children.filter (·.info.isNamed)).map fun c => .ofNode c.info := by
  rw [summary_eq_foldl, Summary.topLevel_foldl_add, filter_isTopLevel_preorder_zero,
    List.map_map]
  rfl

theorem total_kinds_summary (t : Tree) :
    t.summary.kinds.total = t.countNodes (·.isNamed) := by
  rw [summary_eq_foldl, Summary.total_kinds_foldl_add, countP_preorder (·.isNamed)]
  exact Nat.zero_add _

theorem summary_eq (t : Tree) : t.summary = t.statistics := by
  have htotal : t.summary.totalNodes = t.size := by
    rw [summary_eq_foldl, Summary.totalNodes_foldl_add, length_preorder]
    exact Nat.zero_add _
  have hdepth : t.summary.maxDepth = t.height := by
    rw [summary_eq_foldl, Summary.maxDepth_foldl_add, deepest_preorder]
    exact (Nat.zero_max _).trans (Nat.zero_add _)
  have hkinds : t.summary.kinds = t.kindTally := t.stores_summary.unique t.stores_kindTally
  have htop := t.topLevel_summary
  rw [statistics, ← htotal, ← hdepth, ← hkinds, ← htop]

/-- A tree has a node with a property exactly if a position leads to one. -/
theorem countNodes_ne_zero_iff {p : Node → Bool} {t : Tree} :
    t.countNodes p ≠ 0 ↔ ∃ pos s, t.subtree? pos = some s ∧ p s.info = true := by
  rw [← countP_preorder p t 0, ← Nat.pos_iff_ne_zero, List.countP_pos_iff]
  have hwalk : t.preorder 0 = t.walk none := by rw [walk_eq_preorderTo, preorderTo]
  rw [hwalk]
  constructor
  · rintro ⟨q, hq, hp⟩
    obtain ⟨pos, hs, -⟩ := mem_walk_none.mp hq
    exact ⟨pos, q.1, hs, hp⟩
  · rintro ⟨pos, s, hs, hp⟩
    exact ⟨(s, pos.length), mem_walk_none.mpr ⟨pos, hs, rfl⟩, hp⟩

theorem countNodes_le_size (p : Node → Bool) (t : Tree) : t.countNodes p ≤ t.size := by
  rw [← countP_preorder p t 0, ← length_preorder t 0]
  exact List.countP_le_length

/-- **The summary is what recursion counts.**  The number of nodes, the height, the tally that adds
up those of the children and counts the root, and the named children of the root.

The tally has an entry for a kind exactly if some node of the tree is named and of this kind, and
then says how many are; no entry is 0, and all entries add up to the number of named nodes. -/
theorem summary_eq_statistics (t : Tree) :
    t.summary = t.statistics ∧
      (∀ k, t.summary.kinds.count? k =
        if t.countNodes (Node.isOfKind k) = 0 then none
        else some (t.countNodes (Node.isOfKind k))) ∧
      (∀ k, (t.summary.kinds.count? k).isSome = true ↔
        ∃ p s, t.subtree? p = some s ∧ s.info.isNamed = true ∧ s.info.kind = k) ∧
      0 ∉ t.summary.kinds.entries.map Prod.snd ∧
      t.summary.kinds.total = t.countNodes (·.isNamed) ∧
      t.summary.kinds.total ≤ t.summary.totalNodes ∧
      (∀ k, (t.summary.kinds.count? k).getD 0 =
        (if t.info.isNamed ∧ t.info.kind = k then 1 else 0) +
          (t.children.map fun c => (c.summary.kinds.count? k).getD 0).sum) ∧
      t.summary.topLevel = (t.children.filter (·.info.isNamed)).map fun c =>
        { kind := c.info.kind
          start := ⟨c.info.startPoint.row + 1, c.info.startPoint.column⟩
          stop := ⟨c.info.endPoint.row + 1, c.info.endPoint.column⟩ } := by
  have hstores := t.stores_summary
  refine ⟨summary_eq t, hstores, fun k => ?_, hstores.zero_not_mem, total_kinds_summary t, ?_,
    fun k => ?_, topLevel_summary t⟩
  · have hkey : (t.summary.kinds.count? k).isSome = true ↔
        t.countNodes (Node.isOfKind k) ≠ 0 := by
      rw [hstores k]
      split <;> simp_all
    rw [hkey, countNodes_ne_zero_iff]
    simp only [Node.isOfKind, Bool.and_eq_true, beq_iff_eq]
  · rw [total_kinds_summary, summary_eq]
    exact countNodes_le_size _ t
  · rw [hstores.getD, countNodes_eq]
    congr 1
    · simp only [Node.isOfKind, Bool.and_eq_true, beq_iff_eq]
    · refine congrArg List.sum (List.map_congr_left fun c _ => ?_)
      exact ((stores_summary c).getD k).symm

end Tree
end SyntaxInspector
