import Mathlib.Data.List.Basic
import SyntaxInspector.Proofs.Preorder

/-! # Walks that stop halfway

Where a walk stands after any number of calls, also when it is never run to its end.

* `Walk.calls` asks a walk for the next node a number of times.  What it gives is a beginning of the
  preorder, and nothing once that is exhausted (`calls_eq`).
* The nodes of a tree are told apart by their positions.  `Tree.positionsBelow` are the positions of
  a subtree; it consists of its root and the subtrees of the children (`positionsBelow_eq`).
* `Walk.Stands` relates a walk to the positions it has visited and to those of its pending
  subtrees.  Both kinds of step keep it: a pending subtree that is too deep is dropped
  (`Stands.drop`), another one makes way for the subtrees of its children (`Stands.visit`). -/

namespace SyntaxInspector
namespace Tree

/-! ### Positions below a position -/

/-- No position lies at or below both. -/
def Apart (p q : List Nat) : Prop := ∀ r, p <+: r → ¬ q <+: r

/-- Whatever lies at or below the first position comes before whatever lies at or below the
second. -/
def Precedes (p q : List Nat) : Prop := ∀ r s, p <+: r → q <+: s → r < s

theorem Precedes.apart {p q : List Nat} (h : Precedes p q) : Apart p q :=
  fun r hp hq => List.lt_irrefl r (h r r hp hq)

/-- What precedes a subtree is preceded by it in no part: the children of a position precede what
the position precedes. -/
theorem Precedes.child {p q : List Nat} (h : Precedes p q) (i : Nat) : Precedes (p ++ [i]) q :=
  fun r s hr hs => h r s ((List.prefix_append p [i]).trans hr) hs

/-- Children precede each other in the order of their numbers. -/
theorem precedes_children (p : List Nat) {i j : Nat} (h : i < j) :
    Precedes (p ++ [i]) (p ++ [j]) := by
  rintro r s ⟨r', rfl⟩ ⟨s', rfl⟩
  rw [List.append_assoc, List.append_assoc]
  exact List.append_left_lt (List.cons_lt_cons_iff.mpr (.inl h))

/-- The positions at or below a position, in preorder. -/
def positionsBelow (t : Tree) (p : List Nat) : List (List Nat) :=
  (t.subtree? p).elim [] fun s => s.positions.map (p ++ ·)

/-- The positions of the children of the node at a position. -/
def childPositions (t : Tree) (p : List Nat) : List (List Nat) :=
  (t.subtree? p).elim [] fun s => s.children.zipIdx.map fun x => p ++ [x.2]

theorem subtree?_append (t : Tree) (p q : List Nat) :
    t.subtree? (p ++ q) = (t.subtree? p).bind (·.subtree? q) := by
  induction p generalizing t with
  | nil => rfl
  | cons i p ih =>
      rw [List.cons_append, subtree?, subtree?]
      cases t.children[i]? with
      | none => rfl
      | some c => exact ih c

theorem subtree?_child {t s c : Tree} {p : List Nat} {i : Nat} (hs : t.subtree? p = some s)
    (hc : s.children[i]? = some c) : t.subtree? (p ++ [i]) = some c := by
  rw [subtree?_append, hs, Option.bind_some, subtree?_cons [] hc, subtree?]

theorem positionsFrom_eq (i : Nat) (ts : List Tree) :
    positionsFrom i ts = (ts.zipIdx i).flatMap fun x => x.1.positions.map (x.2 :: ·) := by
  induction ts generalizing i with
  | nil => rfl
  | cons t ts ih => rw [positionsFrom, ih, List.zipIdx_cons, List.flatMap_cons]

/-- What is found at a position, with its depth. -/
def found (t : Tree) (p : List Nat) : Option Tree × Nat := (t.subtree? p, p.length)

/-- The children are found at their positions. -/
theorem map_childPositions {t s : Tree} {p : List Nat} (h : t.subtree? p = some s) :
    (t.childPositions p).map t.found =
      s.children.map fun c => (some c, p.length + 1) := by
  have hnumbered : ∀ x ∈ s.children.zipIdx, t.subtree? (p ++ [x.2]) = some x.1 := fun x hx =>
    subtree?_child h (List.mem_zipIdx_iff_getElem?.mp hx)
  calc (t.childPositions p).map t.found
      = s.children.zipIdx.map fun x => (t.subtree? (p ++ [x.2]), (p ++ [x.2]).length) := by
        rw [childPositions, h, Option.elim_some, List.map_map]
        rfl
    _ = s.children.zipIdx.map ((fun c => (some c, p.length + 1)) ∘ Prod.fst) := by
        refine List.map_congr_left fun x hx => ?_
        rw [hnumbered x hx, List.length_append]
        rfl
    _ = s.children.map fun c => (some c, p.length + 1) := by
        rw [← List.map_map, List.zipIdx_map_fst]

/-- A subtree consists of its root and the subtrees of the children. -/
theorem positionsBelow_eq {t s : Tree} {p : List Nat} (h : t.subtree? p = some s) :
    t.positionsBelow p = p :: (t.childPositions p).flatMap t.positionsBelow := by
  have hchild : ∀ x ∈ s.children.zipIdx,
      t.positionsBelow (p ++ [x.2]) = x.1.positions.map (p ++ x.2 :: ·) := by
    intro x hx
    rw [positionsBelow, subtree?_child h (List.mem_zipIdx_iff_getElem?.mp hx), Option.elim_some]
    simp only [List.append_assoc, List.singleton_append]
  have hpositions : s.positions = [] :: positionsFrom 0 s.children := by
    cases s with
    | node n cs => rw [positions, children_node]
  have hbelow : (t.childPositions p).flatMap t.positionsBelow =
      s.children.zipIdx.flatMap fun x => x.1.positions.map (p ++ x.2 :: ·) := by
    rw [childPositions, h, Option.elim_some, List.flatMap_map]
    exact List.flatMap_congr hchild
  rw [hbelow, positionsBelow, h, Option.elim_some, hpositions, List.map_cons, List.append_nil,
    positionsFrom_eq, List.map_flatMap]
  simp only [List.map_map, Function.comp_def]

theorem exists_of_mem_childPositions {t : Tree} {p r : List Nat} (h : r ∈ t.childPositions p) :
    ∃ i, r = p ++ [i] := by
  rw [childPositions] at h
  cases hs : t.subtree? p with
  | none =>
      rw [hs] at h
      cases h
  | some s =>
      rw [hs, Option.elim_some, List.mem_map] at h
      obtain ⟨x, -, rfl⟩ := h
      exact ⟨x.2, rfl⟩

theorem pairwise_childPositions (t : Tree) (p : List Nat) :
    (t.childPositions p).Pairwise Precedes := by
  rw [childPositions]
  cases t.subtree? p with
  | none => exact List.Pairwise.nil
  | some s =>
      rw [Option.elim_some, List.pairwise_map]
      have hnumbers : (s.children.zipIdx.map Prod.snd).Pairwise (· < ·) := by
        rw [List.zipIdx_map_snd]
        exact List.pairwise_lt_range'
      exact (List.pairwise_map.mp hnumbers).imp fun hlt => precedes_children p hlt

theorem prefix_of_mem_positionsBelow {t : Tree} {p r : List Nat} (h : r ∈ t.positionsBelow p) :
    p <+: r := by
  rw [positionsBelow] at h
  cases hs : t.subtree? p with
  | none =>
      rw [hs] at h
      cases h
  | some s =>
      rw [hs, Option.elim_some, List.mem_map] at h
      obtain ⟨q, -, rfl⟩ := h
      exact List.prefix_append p q

theorem positionsBelow_nil (t : Tree) : t.positionsBelow [] = t.positions := List.map_id _

end Tree

namespace Walk

variable {t s : Tree} {d : Nat} {maxDepth : Option Nat} {ps rest : List Placed}
  {seen ahead : List (List Nat)} {w : Walk}

/-! ### Calls -/

/-- What the next calls give, `n` of them, and the walk they leave. -/
def calls : Nat → Walk → List (Option Placed) × Walk
  | 0, w => ([], w)
  | n + 1, w => (w.next.1 :: (calls n w.next.2).1, (calls n w.next.2).2)

theorem maxDepth_calls (n : Nat) (w : Walk) : (w.calls n).2.maxDepth = w.maxDepth := by
  induction n generalizing w with
  | zero => rfl
  | succ n ih => exact ih w.next.2

theorem rest_of_step_none (h : step maxDepth ps = (none, rest)) : rest = [] := by
  induction ps with
  | nil => exact (Prod.mk.inj h).2.symm
  | cons q ps ih =>
      rw [step] at h
      split at h
      · cases h
      · exact ih h

/-- A walk that gives nothing has nothing left. -/
theorem pending_of_next_none {w' : Walk} (h : w.next = (none, w')) : w'.pending = [] := by
  obtain ⟨hvisited, rfl⟩ := Prod.mk.inj h
  exact rest_of_step_none (Prod.ext hvisited rfl)

/-- The calls give what was expected, and nothing behind it. -/
theorem calls_eq (n : Nat) (w : Walk) :
    (w.calls n).1 =
        (w.remaining.take n).map some ++ List.replicate (n - w.remaining.length) none ∧
      (w.calls n).2.remaining = w.remaining.drop n := by
  induction n generalizing w with
  | zero => simp [calls]
  | succ n ih =>
      obtain ⟨hgiven, hleft⟩ := ih w.next.2
      rw [calls, hgiven, hleft]
      cases hnext : w.next with
      | mk visited w' =>
          cases visited with
          | none =>
              have hnil : w'.remaining = [] := by
                rw [remaining, pending_of_next_none hnext]
                rfl
              rw [remaining_of_next_none hnext, hnil]
              simp [List.replicate_succ]
          | some q =>
              rw [remaining_of_next_some hnext]
              simp

theorem filterMap_calls (n : Nat) (w : Walk) :
    (w.calls n).1.filterMap id = w.remaining.take n := by
  have hnone : (List.replicate (n - w.remaining.length) (none : Option Placed)).filterMap id = [] :=
    List.filterMap_replicate_of_none rfl
  rw [(calls_eq n w).1, List.filterMap_append, hnone, List.append_nil, List.filterMap_map]
  exact List.filterMap_some

theorem remaining_start (t : Tree) (maxDepth : Option Nat) :
    (start t maxDepth).remaining = t.preorderTo maxDepth := by
  rw [← toList_eq_remaining, ← Tree.walk, Tree.walk_eq_preorderTo]

/-- Nothing is given once there is nothing left. -/
theorem calls_of_next_none (h : w.next.1 = none) (n : Nat) :
    (w.next.2.calls n).1 = List.replicate n none := by
  have hnil : w.next.2.remaining = [] := by
    rw [remaining, pending_of_next_none (Prod.ext h rfl)]
    rfl
  rw [(calls_eq n w.next.2).1, hnil]
  simp

/-! ### Pending subtrees -/

theorem pendingSize_cons (q : Placed) (ps : List Placed) :
    pendingSize (q :: ps) = q.1.size + pendingSize ps := rfl

/-- Every pending subtree has a node of its own. -/
theorem length_le_pendingSize (ps : List Placed) : ps.length ≤ pendingSize ps := by
  induction ps with
  | nil => exact Nat.le_refl 0
  | cons q ps ih =>
      have hsize := Tree.size_eq q.1
      rw [pendingSize_cons, List.length_cons]
      omega

/-! ### Where a walk stands -/

/-- A subtree with its depth, as it is found at a position. -/
def place (q : Placed) : Option Tree × Nat := (some q.1, q.2)

/-- The walk has visited the positions `seen` of the tree, and its pending subtrees are those at the
positions `ahead`. -/
structure Stands (t : Tree) (seen ahead : List (List Nat)) (w : Walk) : Prop where
  pending : w.pending.map place = ahead.map t.found
  ordered : ahead.Pairwise Tree.Precedes
  descending : ahead.Pairwise fun p q => q.length ≤ p.length
  /-- With those to come, the visited positions are all that the limit admits. -/
  complete : seen ++ (ahead.flatMap t.positionsBelow).filter (fun p => admits w.maxDepth p.length) =
    t.positionsTo w.maxDepth
  count : seen.length + pendingSize w.pending ≤ t.size

theorem stands_start (t : Tree) (maxDepth : Option Nat) : Stands t [] [[]] (start t maxDepth) where
  pending := rfl
  ordered := List.pairwise_singleton _ _
  descending := List.pairwise_singleton _ _
  complete := by
    rw [List.nil_append, List.flatMap_singleton, Tree.positionsBelow_nil]
    rfl
  count := by simp [start, pendingSize, Tree.sizes]

theorem admits_of_le {d' : Nat} (h : admits maxDepth d' = true) (hle : d ≤ d') :
    admits maxDepth d = true := by
  cases maxDepth with
  | none => rfl
  | some k =>
      simp only [admits, Option.all_some, decide_eq_true_eq] at h ⊢
      omega

/-- The first pending subtree is at the first position ahead. -/
theorem Stands.head (h : Stands t seen ahead ⟨(s, d) :: ps, maxDepth⟩) :
    ∃ p rest, ahead = p :: rest ∧ t.subtree? p = some s ∧ p.length = d := by
  obtain ⟨p, rest, hahead, hp, -⟩ := List.map_eq_cons_iff.mp h.pending.symm
  have hp := Prod.mk.inj hp
  exact ⟨p, rest, hahead, hp.1, hp.2⟩

/-- A subtree that is too deep is dropped with all positions below it: none of them is admitted. -/
theorem Stands.drop {p : List Nat}
    (h : Stands t seen (p :: ahead) ⟨(s, d) :: ps, maxDepth⟩) (hd : ¬ admits maxDepth d = true) :
    Stands t seen ahead ⟨ps, maxDepth⟩ := by
  obtain ⟨hpending, hordered, hdescending, hcomplete, hcount⟩ := h
  rw [List.map_cons, List.map_cons, List.cons.injEq] at hpending
  have hdepth : p.length = d := congrArg Prod.snd hpending.1.symm
  have hbelow : (t.positionsBelow p).filter (fun r => admits maxDepth r.length) = [] := by
    rw [List.filter_eq_nil_iff]
    intro r hr hadmitted
    have hle : d ≤ r.length := hdepth ▸ (Tree.prefix_of_mem_positionsBelow hr).length_le
    exact hd (admits_of_le hadmitted hle)
  rw [List.flatMap_cons, List.filter_append, hbelow, List.nil_append] at hcomplete
  rw [pendingSize_cons] at hcount
  exact
    { pending := hpending.2
      ordered := hordered.of_cons
      descending := hdescending.of_cons
      complete := hcomplete
      count := by
        show seen.length + pendingSize ps ≤ t.size
        omega }

/-- A subtree that is visited makes way for the subtrees of its children. -/
theorem Stands.visit {p : List Nat}
    (h : Stands t seen (p :: ahead) ⟨(s, d) :: ps, maxDepth⟩) (hd : admits maxDepth d = true) :
    Stands t (seen ++ [p]) (t.childPositions p ++ ahead)
      ⟨s.children.map (·, d + 1) ++ ps, maxDepth⟩ := by
  obtain ⟨hpending, hordered, hdescending, hcomplete, hcount⟩ := h
  rw [List.map_cons, List.map_cons, List.cons.injEq] at hpending
  obtain ⟨hsubtree, hdepth⟩ := Prod.mk.inj hpending.1
  obtain ⟨hfirst, hordered⟩ := List.pairwise_cons.mp hordered
  obtain ⟨hdeepest, hdescending⟩ := List.pairwise_cons.mp hdescending
  have hbelow : t.positionsBelow p = p :: (t.childPositions p).flatMap t.positionsBelow :=
    Tree.positionsBelow_eq hsubtree.symm
  have hadmitted : admits maxDepth p.length = true := hdepth ▸ hd
  dsimp only at hcomplete
  rw [List.flatMap_cons, hbelow, List.cons_append, List.filter_cons, if_pos hadmitted] at hcomplete
  rw [pendingSize_cons, Tree.size_eq] at hcount
  dsimp only at hcount
  exact
    { pending := by
        have hchildren : (s.children.map (·, d + 1)).map place =
            (t.childPositions p).map t.found := by
          rw [Tree.map_childPositions hsubtree.symm, List.map_map, ← hdepth]
          rfl
        rw [List.map_append, List.map_append, hpending.2, hchildren]
      ordered := by
        refine List.pairwise_append.mpr ⟨t.pairwise_childPositions p, hordered, ?_⟩
        intro r hr q hq
        obtain ⟨i, rfl⟩ := Tree.exists_of_mem_childPositions hr
        exact (hfirst q hq).child i
      descending := by
        refine List.pairwise_append.mpr ⟨?_, hdescending, ?_⟩
        · refine (t.pairwise_childPositions p).imp_of_mem fun {r q} hr hq _ => ?_
          obtain ⟨i, rfl⟩ := Tree.exists_of_mem_childPositions hr
          obtain ⟨j, rfl⟩ := Tree.exists_of_mem_childPositions hq
          simp
        · intro r hr q hq
          obtain ⟨i, rfl⟩ := Tree.exists_of_mem_childPositions hr
          rw [List.length_append]
          exact Nat.le_add_right_of_le (hdeepest q hq)
      complete := by
        rw [List.flatMap_append, List.append_assoc, List.singleton_append]
        exact hcomplete
      count := by
        have hchildren : pendingSize (s.children.map (·, d + 1) ++ ps) =
            Tree.sizes s.children + pendingSize ps := by
          rw [pendingSize, List.map_append, Tree.sizes_append]
          simp [pendingSize, Function.comp_def]
        rw [List.length_append, List.length_singleton, hchildren]
        omega }

/-- A step visits at most one position, the first that the limit admits, and drops those before
it. -/
theorem Stands.step (h : Stands t seen ahead ⟨ps, maxDepth⟩) :
    ∃ visited rest, Stands t (seen ++ visited) rest ⟨(Walk.step maxDepth ps).2, maxDepth⟩ ∧
      (Walk.step maxDepth ps).1.toList.map place = visited.map t.found := by
  induction ps generalizing ahead with
  | nil => exact ⟨[], ahead, by rwa [List.append_nil], rfl⟩
  | cons q ps ih =>
      obtain ⟨s, d⟩ := q
      obtain ⟨p, rest, rfl, hs, hp⟩ := h.head
      rw [Walk.step]
      split
      · have hfound : place (s, d) = t.found p := by rw [place, Tree.found, hs, hp]
        exact ⟨[p], _, h.visit ‹_›, congrArg (fun x => [x]) hfound⟩
      · exact ih (h.drop ‹_›)

theorem Stands.next (h : Stands t seen ahead w) :
    ∃ visited rest, Stands t (seen ++ visited) rest w.next.2 ∧
      w.next.1.toList.map place = visited.map t.found :=
  Stands.step h

/-- So does any number of calls. -/
theorem Stands.calls (h : Stands t seen ahead w) (n : Nat) :
    ∃ visited rest, Stands t (seen ++ visited) rest (w.calls n).2 ∧
      ((w.calls n).1.filterMap id).map place = visited.map t.found := by
  induction n generalizing w seen ahead with
  | zero => exact ⟨[], ahead, by rwa [List.append_nil], rfl⟩
  | succ n ih =>
      obtain ⟨visited, rest, hnext, hvisited⟩ := h.next
      obtain ⟨visited', rest', hcalls, hvisited'⟩ := ih hnext
      refine ⟨visited ++ visited', rest', by rwa [← List.append_assoc], ?_⟩
      rw [List.map_append, ← hvisited, ← hvisited', ← List.map_append]
      rw [Walk.calls]
      cases w.next.1 <;> rfl

theorem Stands.pairwise_depth (h : Stands t seen ahead w) :
    w.pending.Pairwise fun q r => r.2 ≤ q.2 := by
  have hdepths : w.pending.map Prod.snd = ahead.map List.length := by
    have hsnd := congrArg (List.map Prod.snd) h.pending
    rwa [List.map_map, List.map_map] at hsnd
  have hahead : (ahead.map List.length).Pairwise (· ≥ ·) := List.pairwise_map.mpr h.descending
  rw [← hdepths] at hahead
  exact List.pairwise_map.mp hahead

/-- **A walk between two calls.**  After any number of calls, what they gave was found at the
positions `seen`, and the pending subtrees, the next one first, are those at the positions `ahead`:
they have no position in common and follow each other in the order of the preorder, and their depths
do not increase.  The visited positions and those below the positions ahead are together all that
the limit admits, in order; likewise, what was given and the preorders of the pending subtrees are
the preorder of the tree.  There are never more nodes visited and subtrees pending than the tree has
nodes.  A walk that gives nothing once gives nothing again. -/
theorem stands_between_calls (t : Tree) (maxDepth : Option Nat) (n : Nat) :
    let given := ((start t maxDepth).calls n).1
    let w := ((start t maxDepth).calls n).2
    let visited := given.filterMap id
    ∃ seen ahead : List (List Nat),
      visited.map (fun q => (some q.1, q.2)) = seen.map (fun p => (t.subtree? p, p.length)) ∧
      w.pending.map (fun q => (some q.1, q.2)) = ahead.map (fun p => (t.subtree? p, p.length)) ∧
      ahead.Pairwise Tree.Apart ∧ ahead.Pairwise Tree.Precedes ∧
      w.pending.Pairwise (fun q r => r.2 ≤ q.2) ∧
      seen ++ (ahead.flatMap t.positionsBelow).filter (fun p => admits maxDepth p.length) =
        t.positionsTo maxDepth ∧
      visited ++
          (w.pending.flatMap fun q => q.1.preorder q.2).filter (fun q => admits maxDepth q.2) =
        t.preorderTo maxDepth ∧
      visited.length + w.pending.length ≤ t.size ∧
      given = visited.map some ++ List.replicate (n - visited.length) none ∧
      (w.next.1 = none → ∀ k, (w.next.2.calls k).1 = List.replicate k none) := by
  intro given w visited
  obtain ⟨seen, ahead, hstands, hseen⟩ := (stands_start t maxDepth).calls n
  obtain ⟨hgiven, hleft⟩ := calls_eq n (start t maxDepth)
  have hlimit : w.maxDepth = maxDepth := maxDepth_calls n (start t maxDepth)
  have hvisited : visited = (start t maxDepth).remaining.take n :=
    filterMap_calls n (start t maxDepth)
  have hlengths : visited.length = seen.length := by
    have h := congrArg List.length hseen
    rwa [List.length_map, List.length_map] at h
  refine ⟨seen, ahead, hseen, hstands.pending, hstands.ordered.imp Tree.Precedes.apart,
    hstands.ordered, hstands.pairwise_depth, ?complete, ?preorder, ?count, ?given,
    calls_of_next_none⟩
  case complete =>
    have hcomplete := hstands.complete
    rwa [hlimit, List.nil_append] at hcomplete
  case preorder =>
    have hpending : (w.pending.flatMap fun q => q.1.preorder q.2).filter
        (fun q => admits maxDepth q.2) = (start t maxDepth).remaining.drop n := by
      rw [← hleft, remaining, maxDepth_calls]
      rfl
    rw [hvisited, hpending, List.take_append_drop, remaining_start]
  case count =>
    have hcount : seen.length + pendingSize w.pending ≤ t.size := hstands.count
    have hpending := length_le_pendingSize w.pending
    omega
  case given =>
    have hmin : n - visited.length = n - (start t maxDepth).remaining.length := by
      rw [hvisited, List.length_take]
      omega
    rw [hmin, hvisited]
    exact hgiven

end Walk
end SyntaxInspector
