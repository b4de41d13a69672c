import SyntaxInspector.Tree.Walk

/-! # Walks and preorder

What a walk visits, said by recursion on the tree instead of by steps.

* `Tree.preorder` lists the subtrees of a tree with their depths: the tree itself, then the
  preorder of each child in turn; `Tree.preorderTo` leaves out what is too deep.
* `Tree.subtree?` follows a position, a list of child numbers; `Tree.positions` lists the positions
  of a tree.  They ascend (`pairwise_positions`): a position comes before those below it, and all
  positions below one child come before those below the next.
* `Walk.Drains` says which nodes a walk gives when it is asked again and again, by `Walk.next`
  alone.  `Walk.remaining` predicts them: each step gives the head of the prediction and leaves the
  tail (`remaining_of_next_some`), so every walk ends and gives what was predicted
  (`drains_iff`). -/

namespace SyntaxInspector
namespace Tree

/-- Induction over trees: the statement may be assumed of the children. -/
theorem induct {motive : Tree → Prop}
    (node : ∀ n cs, (∀ t ∈ cs, motive t) → motive (node n cs)) : ∀ t, motive t
  | .node n cs => node n cs fun t _ => induct node t

/-! ### The preorder by recursion -/

mutual

/-- The subtrees of a tree whose root has depth `d`, each with its depth: first the tree, then the
subtrees of its children. -/
def preorder : Tree → Nat → List Placed
  | node n cs, d => (node n cs, d) :: preorders cs (d + 1)

/-- The subtrees of trees whose roots have depth `d`. -/
def preorders : List Tree → Nat → List Placed
  | [], _ => []
  | t :: ts, d => t.preorder d ++ preorders ts d

end

/-- The preorder without the nodes that are deeper than a limit. -/
def preorderTo (t : Tree) : Option Nat → List Placed
  | none => t.preorder 0
  | some k => (t.preorder 0).filter (·.2 ≤ k)

theorem preorders_eq (ts : List Tree) (d : Nat) : preorders ts d = ts.flatMap (·.preorder d) := by
  induction ts with
  | nil => rfl
  | cons t ts ih => rw [preorders, ih, List.flatMap_cons]

theorem preorder_eq (t : Tree) (d : Nat) :
    t.preorder d = (t, d) :: t.children.flatMap (·.preorder (d + 1)) := by
  cases t with
  | node n cs => rw [preorder, preorders_eq, children_node]

/-- Nothing in a preorder lies above its root. -/
theorem le_of_mem_preorder {t : Tree} {d : Nat} {q : Placed} (h : q ∈ t.preorder d) :
    d ≤ q.2 := by
  induction t using induct generalizing d with
  | node n cs ih =>
      rw [preorder_eq, List.mem_cons, List.mem_flatMap] at h
      rcases h with rfl | ⟨c, hc, hq⟩
      · exact Nat.le_refl d
      · have := ih c hc hq
        omega

/-! ### Positions -/

/-- The subtree at a position. -/
def subtree? (t : Tree) : List Nat → Option Tree
  | [] => some t
  | i :: p => match t.children[i]? with
    | none => none
    | some c => c.subtree? p

mutual

/-- The positions of a tree in preorder. -/
def positions : Tree → List (List Nat)
  | node _ cs => [] :: positionsFrom 0 cs

/-- The positions below a node in the children from the one with number `i` on. -/
def positionsFrom (i : Nat) : List Tree → List (List Nat)
  | [] => []
  | t :: ts => t.positions.map (i :: ·) ++ positionsFrom (i + 1) ts

end

theorem subtree?_cons {t c : Tree} {i : Nat} (p : List Nat) (h : t.children[i]? = some c) :
    t.subtree? (i :: p) = c.subtree? p := by
  simp [subtree?, h]

theorem mem_positionsFrom {i : Nat} {ts : List Tree} {p : List Nat} :
    p ∈ positionsFrom i ts ↔
      ∃ j q c, p = (i + j) :: q ∧ ts[j]? = some c ∧ q ∈ c.positions := by
  induction ts generalizing i with
  | nil => simp [positionsFrom]
  | cons t ts ih =>
      rw [positionsFrom, List.mem_append, List.mem_map, ih]
      constructor
      · rintro (⟨q, hq, rfl⟩ | ⟨j, q, c, rfl, hc, hq⟩)
        · exact ⟨0, q, t, rfl, rfl, hq⟩
        · exact ⟨j + 1, q, c, by rw [Nat.add_assoc, Nat.add_comm 1 j], hc, hq⟩
      · rintro ⟨_ | j, q, c, rfl, hc, hq⟩
        · rw [List.getElem?_cons_zero, Option.some.injEq] at hc
          exact .inl ⟨q, hc ▸ hq, rfl⟩
        · exact .inr ⟨j, q, c, by rw [Nat.add_assoc, Nat.add_comm 1 j], hc, hq⟩

/-- The listed positions are those that lead to a subtree. -/
theorem mem_positions {t : Tree} {p : List Nat} :
    p ∈ t.positions ↔ (t.subtree? p).isSome = true := by
  induction p generalizing t with
  | nil =>
      cases t with
      | node n cs => simp [positions, subtree?]
  | cons i p ih =>
      cases t with
      | node n cs =>
          rw [positions, List.mem_cons, mem_positionsFrom]
          cases hc : cs[i]? with
          | none => simp [subtree?, hc]
          | some c =>
              have hs : (node n cs).subtree? (i :: p) = c.subtree? p := subtree?_cons p hc
              rw [hs, ← ih]
              constructor
              · rintro (h | ⟨j, q, c', h, hc', hq⟩)
                · cases h
                · rw [Nat.zero_add, List.cons.injEq] at h
                  obtain ⟨rfl, rfl⟩ := h
                  rw [hc, Option.some.injEq] at hc'
                  rwa [hc']
              · exact fun hq => .inr ⟨i, p, c, by rw [Nat.zero_add], hc, hq⟩

mutual

theorem pairwise_positions : ∀ t : Tree, t.positions.Pairwise (· < ·)
  | node n cs => by
      rw [positions, List.pairwise_cons]
      refine ⟨fun p hp => ?_, pairwise_positionsFrom 0 cs⟩
      obtain ⟨j, q, c, rfl, -, -⟩ := mem_positionsFrom.mp hp
      exact List.nil_lt_cons _ _

theorem pairwise_positionsFrom : ∀ (i : Nat) (ts : List Tree),
    (positionsFrom i ts).Pairwise (· < ·)
  | _, [] => List.Pairwise.nil
  | i, t :: ts => by
      rw [positionsFrom, List.pairwise_append]
      refine ⟨?_, pairwise_positionsFrom (i + 1) ts, fun p hp r hr => ?_⟩
      · rw [List.pairwise_map]
        exact (pairwise_positions t).imp fun h => List.cons_lt_cons_iff.mpr (.inr ⟨rfl, h⟩)
      · obtain ⟨q, -, rfl⟩ := List.mem_map.mp hp
        obtain ⟨j, q', c, rfl, -, -⟩ := mem_positionsFrom.mp hr
        exact List.cons_lt_cons_iff.mpr (.inl (by omega))

end

/-- The positions down to a limit. -/
def positionsTo (t : Tree) (maxDepth : Option Nat) : List (List Nat) :=
  t.positions.filter fun p => Walk.admits maxDepth p.length

mutual

/-- The preorder is what the positions lead to, and the length of a position is its depth. -/
theorem map_preorder : ∀ (t : Tree) (d : Nat),
    (t.preorder d).map (fun q => (some q.1, q.2)) =
      t.positions.map fun p => (t.subtree? p, d + p.length)
  | node n cs, d => by
      have h := map_preorders cs (node n cs) 0 d rfl
      simp [preorder, positions, subtree?, h]

theorem map_preorders : ∀ (ts : List Tree) (t : Tree) (i d : Nat), t.children.drop i = ts →
    (preorders ts (d + 1)).map (fun q => (some q.1, q.2)) =
      (positionsFrom i ts).map fun p => (t.subtree? p, d + p.length)
  | [], _, _, _, _ => rfl
  | c :: cs, t, i, d, h => by
      have hc : t.children[i]? = some c := by
        rw [← Nat.add_zero i, ← List.getElem?_drop, h, List.getElem?_cons_zero]
      have hcs : t.children.drop (i + 1) = cs := by
        rw [← List.drop_drop, h, List.drop_one, List.tail_cons]
      have hd : ∀ p : List Nat, d + (p.length + 1) = d + 1 + p.length := by
        intro p
        omega
      rw [preorders, positionsFrom, List.map_append, List.map_append, map_preorder c (d + 1),
        map_preorders cs t (i + 1) d hcs, List.map_map]
      simp only [Function.comp_def, subtree?_cons _ hc, List.length_cons, hd]

end

end Tree

/-! ### Walks -/

namespace Walk

/-- The nodes that a walk is expected to visit: the preorders of the pending subtrees, without the
nodes that are too deep. -/
def remaining (w : Walk) : List Placed :=
  (w.pending.flatMap fun q => q.1.preorder q.2).filter fun q => admits w.maxDepth q.2

/-- What a walk gives, asked for the next node until there is none. -/
inductive Drains : Walk → List Placed → Prop
  | done {w w' : Walk} : w.next = (none, w') → Drains w []
  | visit {w w' : Walk} {q : Placed} {out : List Placed} :
      w.next = (some q, w') → Drains w' out → Drains w (q :: out)

/-- Below a node that is too deep, every node is too deep. -/
theorem filter_preorder_eq_nil {maxDepth : Option Nat} {t : Tree} {d : Nat}
    (h : admits maxDepth d = false) :
    (t.preorder d).filter (fun q => admits maxDepth q.2) = [] := by
  rw [List.filter_eq_nil_iff]
  intro q hq
  have hle := Tree.le_of_mem_preorder hq
  cases maxDepth with
  | none => simp [admits] at h
  | some k =>
      simp only [admits, Option.all_some, decide_eq_false_iff_not, decide_eq_true_eq] at h ⊢
      omega

theorem remaining_cons_of_not_admits {maxDepth : Option Nat} {d : Nat}
    (h : ¬ admits maxDepth d = true) (t : Tree) (ps : List Placed) :
    remaining ⟨(t, d) :: ps, maxDepth⟩ = remaining ⟨ps, maxDepth⟩ := by
  rw [Bool.not_eq_true] at h
  simp only [remaining]
  rw [List.flatMap_cons, List.filter_append, filter_preorder_eq_nil h, List.nil_append]

theorem remaining_cons_of_admits {maxDepth : Option Nat} {d : Nat}
    (h : admits maxDepth d = true) (t : Tree) (ps : List Placed) :
    remaining ⟨(t, d) :: ps, maxDepth⟩ =
      (t, d) :: remaining ⟨t.children.map (·, d + 1) ++ ps, maxDepth⟩ := by
  simp [remaining, Tree.preorder_eq t d, h, List.flatMap_map]

theorem remaining_of_step_none {maxDepth : Option Nat} {ps rest : List Placed}
    (h : step maxDepth ps = (none, rest)) : remaining ⟨ps, maxDepth⟩ = [] := by
  induction ps with
  | nil => rfl
  | cons q ps ih =>
      obtain ⟨t, d⟩ := q
      unfold step at h
      split at h
      · cases h
      · rw [remaining_cons_of_not_admits ‹_›]
        exact ih h

theorem remaining_of_step_some {maxDepth : Option Nat} {ps rest : List Placed} {q : Placed}
    (h : step maxDepth ps = (some q, rest)) :
    remaining ⟨ps, maxDepth⟩ = q :: remaining ⟨rest, maxDepth⟩ := by
  induction ps with
  | nil => simp [step] at h
  | cons r ps ih =>
      obtain ⟨t, d⟩ := r
      unfold step at h
      split at h
      · cases h
        exact remaining_cons_of_admits ‹_› t ps
      · rw [remaining_cons_of_not_admits ‹_›]
        exact ih h

theorem remaining_of_next_none {w w' : Walk} (h : w.next = (none, w')) : w.remaining = [] := by
  simp only [next, Prod.mk.injEq] at h
  exact remaining_of_step_none (Prod.ext h.1 rfl)

/-- A step of a walk visits the first node that was expected and expects the others. -/
theorem remaining_of_next_some {w w' : Walk} {q : Placed} (h : w.next = (some q, w')) :
    w.remaining = q :: w'.remaining := by
  simp only [next, Prod.mk.injEq] at h
  obtain ⟨hq, rfl⟩ := h
  exact remaining_of_step_some (Prod.ext hq rfl)

theorem Drains.eq_remaining {w : Walk} {out : List Placed} (h : w.Drains out) :
    out = w.remaining := by
  induction h with
  | done hn => rw [remaining_of_next_none hn]
  | visit hn _ ih => rw [remaining_of_next_some hn, ih]

/-- Every walk ends: the list of expected nodes gets shorter with each visit. -/
theorem drains_of_remaining {out : List Placed} {w : Walk} (h : w.remaining = out) :
    w.Drains out := by
  induction out generalizing w with
  | nil =>
      cases hn : w.next with
      | mk visited w' =>
          cases visited with
          | none => exact .done hn
          | some q => rw [remaining_of_next_some hn] at h; cases h
  | cons r out ih =>
      cases hn : w.next with
      | mk visited w' =>
          cases visited with
          | none => rw [remaining_of_next_none hn] at h; cases h
          | some q =>
              rw [remaining_of_next_some hn, List.cons.injEq] at h
              obtain ⟨rfl, h⟩ := h
              exact .visit hn (ih h)

theorem drains_iff {w : Walk} {out : List Placed} : w.Drains out ↔ out = w.remaining :=
  ⟨Drains.eq_remaining, fun h => drains_of_remaining h.symm⟩

theorem drains_toList (w : Walk) : w.Drains w.toList := by
  fun_induction toList w with
  | case1 w w' hn => exact .done hn
  | case2 w q w' hn ih => exact .visit hn ih

theorem toList_eq_remaining (w : Walk) : w.toList = w.remaining :=
  (drains_toList w).eq_remaining

end Walk

namespace Tree

theorem walk_eq_filter (t : Tree) (maxDepth : Option Nat) :
    t.walk maxDepth = (t.preorder 0).filter fun q => Walk.admits maxDepth q.2 := by
  rw [walk, Walk.toList_eq_remaining]
  simp [Walk.remaining, Walk.start]

theorem walk_eq_preorderTo (t : Tree) (maxDepth : Option Nat) :
    t.walk maxDepth = t.preorderTo maxDepth := by
  rw [walk_eq_filter]
  cases maxDepth with
  | none => simp [preorderTo, Walk.admits]
  | some k => simp [preorderTo, Walk.admits]

/-- A walk visits what its positions lead to. -/
theorem map_walk (t : Tree) (maxDepth : Option Nat) :
    (t.walk maxDepth).map (fun q => (some q.1, q.2)) =
      (t.positionsTo maxDepth).map fun p => (t.subtree? p, p.length) := by
  have h := congrArg (List.filter fun r => Walk.admits maxDepth r.2) (map_preorder t 0)
  rw [List.filter_map, List.filter_map] at h
  simpa only [walk_eq_filter, positionsTo, Function.comp_def, Nat.zero_add] using h

theorem pairwise_positionsTo (t : Tree) (maxDepth : Option Nat) :
    (t.positionsTo maxDepth).Pairwise (· < ·) :=
  (pairwise_positions t).filter _

theorem mem_positionsTo {t : Tree} {maxDepth : Option Nat} {p : List Nat} :
    p ∈ t.positionsTo maxDepth ↔
      (t.subtree? p).isSome = true ∧ Walk.admits maxDepth p.length = true := by
  rw [positionsTo, List.mem_filter, mem_positions]

/-- A walk visits a subtree with a depth if and only if a position of that length leads there. -/
theorem mem_walk {t : Tree} {maxDepth : Option Nat} {q : Placed} :
    q ∈ t.walk maxDepth ↔
      ∃ p ∈ t.positionsTo maxDepth, t.subtree? p = some q.1 ∧ p.length = q.2 := by
  have hinj : (some q.1, q.2) ∈ (t.walk maxDepth).map (fun r => (some r.1, r.2)) ↔
      q ∈ t.walk maxDepth := by
    rw [List.mem_map]
    constructor
    · rintro ⟨r, hr, he⟩
      rw [Prod.mk.injEq, Option.some.injEq] at he
      exact Prod.ext he.1 he.2 ▸ hr
    · exact fun hq => ⟨q, hq, rfl⟩
  rw [← hinj, map_walk, List.mem_map]
  simp only [Prod.mk.injEq]

theorem mem_walk_none {t : Tree} {q : Placed} :
    q ∈ t.walk none ↔ ∃ p, t.subtree? p = some q.1 ∧ p.length = q.2 := by
  rw [mem_walk]
  constructor
  · rintro ⟨p, -, h⟩
    exact ⟨p, h⟩
  · rintro ⟨p, hs, hd⟩
    exact ⟨p, mem_positionsTo.mpr ⟨by rw [hs]; rfl, rfl⟩, hs, hd⟩

/-- **A walk is the preorder**: asked again and again, it gives the preorder down to its limit and
then ends.  So it visits each position down to the limit once, in ascending order, and gives its
depth with it. -/
theorem drains_start_iff_eq_preorderTo (t : Tree) (maxDepth : Option Nat) :
    (∀ out, (Walk.start t maxDepth).Drains out ↔ out = t.preorderTo maxDepth) ∧
      t.walk maxDepth = t.preorderTo maxDepth ∧
      (t.walk maxDepth).map (fun q => (some q.1, q.2)) =
        (t.positionsTo maxDepth).map (fun p => (t.subtree? p, p.length)) ∧
      (t.positionsTo maxDepth).Pairwise (· < ·) ∧
      ∀ p, p ∈ t.positionsTo maxDepth ↔
        (t.subtree? p).isSome = true ∧ Walk.admits maxDepth p.length = true := by
  refine ⟨fun out => ?_, walk_eq_preorderTo t maxDepth, map_walk t maxDepth,
    pairwise_positionsTo t maxDepth, fun p => mem_positionsTo⟩
  rw [Walk.drains_iff, ← walk_eq_preorderTo, walk, Walk.toList_eq_remaining]

end Tree
end SyntaxInspector
