import SyntaxInspector.Tree.Basic

/-! # Walking a tree in preorder

A walk visits a node, then its subtrees from left to right.  It keeps the subtrees that are still to
come in a list of their own and needs no recursion, so deep trees are no harder than flat ones.  A
walk may be limited in depth: deeper nodes are passed over together with everything below them.

* `Walk` is a walk in progress, `Walk.start` its beginning, `Walk.next` one step of it;
* `Walk.toList` runs a walk to its end, and `Tree.walk` is the whole walk through a tree. -/

namespace SyntaxInspector

/-- A subtree together with the depth of its root. -/
abbrev Placed := Tree × Nat

/-- A walk in progress: the subtrees still to come, the next one first, and the depth limit. -/
structure Walk where
  pending : List Placed
  maxDepth : Option Nat
  deriving Repr

namespace Walk

/-- The walk that has not visited anything yet. -/
def start (t : Tree) (maxDepth : Option Nat) : Walk := ⟨[(t, 0)], maxDepth⟩

/-- The limit lets nodes of this depth be visited. -/
def admits (maxDepth : Option Nat) (depth : Nat) : Bool := maxDepth.all (depth ≤ ·)

/-- The next node to visit among pending subtrees, and the subtrees pending after the visit: the
children of the node stand in front of everything else. -/
def step (maxDepth : Option Nat) : List Placed → Option Placed × List Placed
  | [] => (none, [])
  | (t, depth) :: rest =>
    if admits maxDepth depth then
      (some (t, depth), t.children.map (·, depth + 1) ++ rest)
    else step maxDepth rest

/-- The next node of the walk and the walk after it; a walk at its end stays there. -/
def next (w : Walk) : Option Placed × Walk :=
  let (visited, pending) := step w.maxDepth w.pending
  (visited, { w with pending })

/-- The number of nodes in pending subtrees. -/
def pendingSize (ps : List Placed) : Nat := Tree.sizes (ps.map Prod.fst)

theorem pendingSize_step_lt {maxDepth : Option Nat} {ps rest : List Placed} {p : Placed}
    (h : step maxDepth ps = (some p, rest)) : pendingSize rest < pendingSize ps := by
  induction ps with
  | nil => simp [step] at h
  | cons q qs ih =>
    obtain ⟨t, depth⟩ := q
    unfold step at h
    split at h
    · cases h
      simp [pendingSize, Tree.sizes, Tree.sizes_append, Tree.size_eq t, Function.comp_def]
    · have := ih h
      simp [pendingSize, Tree.sizes] at this ⊢
      omega

/-- Every visit leaves fewer nodes to come. -/
theorem pendingSize_next_lt {w w' : Walk} {p : Placed} (h : w.next = (some p, w')) :
    pendingSize w'.pending < pendingSize w.pending := by
  simp only [next, Prod.mk.injEq] at h
  obtain ⟨hv, rfl⟩ := h
  exact pendingSize_step_lt (Prod.ext hv rfl)

/-- The nodes the walk has still to visit, in order. -/
def toList (w : Walk) : List Placed :=
  match _h : w.next with
  | (none, _) => []
  | (some p, w') => p :: w'.toList
termination_by pendingSize w.pending
decreasing_by exact pendingSize_next_lt _h

end Walk

/-- The nodes of the tree in preorder, each with its subtree and its depth, down to the limit. -/
def Tree.walk (t : Tree) (maxDepth : Option Nat) : List Placed := (Walk.start t maxDepth).toList

end SyntaxInspector
