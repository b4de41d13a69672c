import Mathlib.Data.List.Forall2
import SyntaxInspector.Proofs.ErrorNodes
import SyntaxInspector.Text.Utf8

/-! # Places of syntax errors

A parser promises of a tree that every node lies in its parent and behind the siblings before it.
Then the errors, which are collected in preorder, come in the order of their places in the text.

* `Tree.Nested` is what is promised of a tree, `ParsedSource.Promised` what is promised of a source;
* `Tree.Nested.mem_preorder` and `Tree.Nested.pairwise_preorder`: all nodes lie in the root, and in
  preorder they begin one behind the other;
* `Tree.errors_eq_filterMap` are the errors by the positions of their nodes;
* `ParsedSource.errors_in_order` is the result. -/

namespace SyntaxInspector

theorem SyntaxError.isSome_ofNode?_iff {n : Node} :
    (ofNode? n).isSome = true ↔ n.isError = true ∨ n.isMissing = true := by
  rw [Option.isSome_iff_ne_none, Ne, ofNode?_eq_none_iff, Classical.not_not]

namespace Tree

/-! ### Nested ranges -/

/-- The root does not end before it begins, and its children lie in it, one behind the other. -/
structure NestedRoot (t : Tree) : Prop where
  ordered : t.info.startByte ≤ t.info.endByte
  within : ∀ c ∈ t.children,
    t.info.startByte ≤ c.info.startByte ∧ c.info.endByte ≤ t.info.endByte
  apart : t.children.Pairwise fun c c' => c.info.endByte ≤ c'.info.startByte

instance (t : Tree) : Decidable t.NestedRoot :=
  decidable_of_iff
    (t.info.startByte ≤ t.info.endByte ∧
      (∀ c ∈ t.children, t.info.startByte ≤ c.info.startByte ∧ c.info.endByte ≤ t.info.endByte) ∧
      t.children.Pairwise fun c c' => c.info.endByte ≤ c'.info.startByte)
    ⟨fun ⟨ordered, within, apart⟩ => ⟨ordered, within, apart⟩,
      fun h => ⟨h.ordered, h.within, h.apart⟩⟩

/-- So it is everywhere in the tree. -/
def Nested (t : Tree) : Prop := ∀ p s, t.subtree? p = some s → s.NestedRoot

theorem nested_iff_preorder {t : Tree} : t.Nested ↔ ∀ q ∈ t.preorder 0, q.1.NestedRoot := by
  have hwalk : t.walk none = t.preorder 0 := walk_eq_preorderTo t none
  rw [← hwalk]
  constructor
  · intro h q hq
    obtain ⟨p, hs, -⟩ := mem_walk_none.mp hq
    exact h p q.1 hs
  · intro h p s hs
    exact h (s, p.length) (mem_walk_none.mpr ⟨p, hs, rfl⟩)

instance (t : Tree) : Decidable t.Nested := decidable_of_iff _ nested_iff_preorder.symm

variable {t c : Tree} {d : Nat} {q : Placed}

theorem Nested.root (h : t.Nested) : t.NestedRoot := h [] t rfl

theorem Nested.child (h : t.Nested) (hc : c ∈ t.children) : c.Nested := by
  obtain ⟨i, hi⟩ := List.mem_iff_getElem?.mp hc
  intro p s hs
  exact h (i :: p) s ((subtree?_cons p hi).trans hs)

/-- Every node lies in the root. -/
theorem Nested.mem_preorder (h : t.Nested) (hq : q ∈ t.preorder d) :
    t.info.startByte ≤ q.1.info.startByte ∧ q.1.info.startByte ≤ q.1.info.endByte ∧
      q.1.info.endByte ≤ t.info.endByte := by
  induction t using induct generalizing d with
  | node n cs ih =>
      rw [preorder_eq, List.mem_cons, List.mem_flatMap] at hq
      obtain rfl | ⟨c, hc, hq⟩ := hq
      · exact ⟨Nat.le_refl _, h.root.ordered, Nat.le_refl _⟩
      · obtain ⟨hstart, hordered, hend⟩ := ih c hc (h.child hc) hq
        obtain ⟨hstart', hend'⟩ := h.root.within c hc
        exact ⟨Nat.le_trans hstart' hstart, hordered, Nat.le_trans hend hend'⟩

/-- In preorder, no node begins before the nodes that come earlier. -/
theorem Nested.pairwise_preorder (h : t.Nested) :
    (t.preorder d).Pairwise fun q q' => q.1.info.startByte ≤ q'.1.info.startByte := by
  induction t using induct generalizing d with
  | node n cs ih =>
      have hroot : ∀ q ∈ preorder (node n cs) d, n.startByte ≤ q.1.info.startByte :=
        fun q hq => (h.mem_preorder hq).1
      rw [preorder_eq] at hroot ⊢
      rw [List.pairwise_cons, List.pairwise_flatMap]
      refine ⟨fun q hq => hroot q (List.mem_cons_of_mem _ hq), fun c hc => ih c hc (h.child hc), ?_⟩
      -- What lies in a child ends before the next child begins.
      refine h.root.apart.imp_of_mem ?_
      intro c c' hc hc' hapart q hq q' hq'
      obtain ⟨-, hordered, hend⟩ := (h.child hc).mem_preorder hq
      obtain ⟨hstart', -, -⟩ := (h.child hc').mem_preorder hq'
      omega

/-! ### Errors by their positions -/

/-- The error of the node at a position. -/
def errorAt? (t : Tree) (p : List Nat) : Option SyntaxError :=
  (t.subtree? p).bind fun s => SyntaxError.ofNode? s.info

theorem errors_eq_preorder (t : Tree) :
    t.errors = (t.preorder 0).filterMap fun q => SyntaxError.ofNode? q.1.info := by
  rw [errors, walk_eq_preorderTo]
  rfl

theorem errors_eq_filterMap (t : Tree) : t.errors = t.positions.filterMap t.errorAt? := by
  have hsubtrees : (t.preorder 0).map (fun q => some q.1) = t.positions.map t.subtree? := by
    have hplaced := congrArg (List.map Prod.fst) (map_preorder t 0)
    simpa [Function.comp_def] using hplaced
  have hmapped := congrArg
    (List.filterMap fun s? => s?.bind fun s => SyntaxError.ofNode? s.info) hsubtrees
  rw [List.filterMap_map, List.filterMap_map] at hmapped
  exact (errors_eq_preorder t).trans hmapped

/-- The positions of the nodes that stand for errors. -/
def errorPositions (t : Tree) : List (List Nat) := t.positions.filter fun p => (t.errorAt? p).isSome

theorem mem_errorPositions {p : List Nat} : p ∈ t.errorPositions ↔
    ∃ s, t.subtree? p = some s ∧ (s.info.isError = true ∨ s.info.isMissing = true) := by
  rw [errorPositions, List.mem_filter, mem_positions, errorAt?]
  cases hs : t.subtree? p with
  | none => simp
  | some s => simp [SyntaxError.isSome_ofNode?_iff]

end Tree

theorem forall₂_filter_filterMap {α β : Type} (f : α → Option β) (as : List α) :
    List.Forall₂ (fun a b => f a = some b) (as.filter fun a => (f a).isSome) (as.filterMap f) := by
  induction as with
  | nil => exact .nil
  | cons a as ih =>
      cases ha : f a with
      | none => simpa [ha] using ih
      | some b => simpa [ha] using ih

/-- The error says what is wrong with a node, and where: it covers the bytes of the node. -/
structure SyntaxError.Reports (e : SyntaxError) (n : Node) : Prop where
  start : e.span.offset = n.startByte
  stop : e.span.offset + e.span.length = n.endByte
  unexpected : n.isError = true → e = .unexpected e.span
  missing : n.isError = false → n.isMissing = true ∧ e = .missing n.kind e.span

theorem SyntaxError.reports_of_eq_some {n : Node} {e : SyntaxError} (h : ofNode? n = some e)
    (hordered : n.startByte ≤ n.endByte) : e.Reports n := by
  have hstop : n.startByte + (n.endByte - n.startByte) = n.endByte := Nat.add_sub_cancel' hordered
  unfold ofNode? at h
  cases herror : n.isError with
  | true =>
      rw [herror] at h
      cases h
      exact ⟨rfl, hstop, fun _ => rfl, fun h => absurd (herror.symm.trans h) nofun⟩
  | false =>
      cases hmissing : n.isMissing with
      | true =>
          rw [herror, hmissing] at h
          cases h
          exact ⟨rfl, hstop, fun h => absurd (herror.symm.trans h) nofun, fun _ => ⟨hmissing, rfl⟩⟩
      | false =>
          rw [herror, hmissing] at h
          cases h

namespace ParsedSource

variable {p : ParsedSource}

/-- What a parser promises of a source and its tree. -/
structure Promised (p : ParsedSource) : Prop where
  nested : p.root.Nested
  inSource : p.root.info.endByte ≤ (Text.encode p.source).length
  noticed : p.root.HasErrorNode → p.hasError = true

/-- Nothing is lost if the tree is not searched. -/
theorem errors_eq_root_errors (h : p.root.HasErrorNode → p.hasError = true) :
    p.errors = p.root.errors := by
  rw [errors]
  cases herror : p.hasError with
  | true => rfl
  | false =>
      rw [herror] at h
      exact (Tree.errors_eq_nil_iff.mpr fun hnode => Bool.false_ne_true (h hnode)).symm

/-- Every error is that of a node in the source. -/
theorem Promised.stop_le_length (h : p.Promised) {e : SyntaxError} (he : e ∈ p.root.errors) :
    e.span.offset + e.span.length ≤ (Text.encode p.source).length := by
  rw [Tree.errors_eq_preorder] at he
  obtain ⟨q, hq, he⟩ := List.mem_filterMap.mp he
  obtain ⟨-, hordered, hend⟩ := h.nested.mem_preorder hq
  have hstop := (SyntaxError.reports_of_eq_some he hordered).stop
  have hsource := h.inSource
  omega

theorem Promised.pairwise_errors (h : p.Promised) :
    p.root.errors.Pairwise fun e e' => e.span.offset ≤ e'.span.offset := by
  rw [Tree.errors_eq_preorder, List.pairwise_filterMap]
  refine h.nested.pairwise_preorder.imp_of_mem ?_
  intro q q' hq hq' hstart e he e' he'
  have hordered := (h.nested.mem_preorder hq).2.1
  have hordered' := (h.nested.mem_preorder hq').2.1
  rwa [(SyntaxError.reports_of_eq_some he hordered).start,
    (SyntaxError.reports_of_eq_some he' hordered').start]

/-- Each position of an error node has its error. -/
theorem Promised.forall₂_errors (h : p.Promised) :
    List.Forall₂ (fun q e => ∃ s, p.root.subtree? q = some s ∧ e.Reports s.info)
      p.root.errorPositions p.root.errors := by
  rw [Tree.errors_eq_filterMap]
  refine (forall₂_filter_filterMap p.root.errorAt? p.root.positions).imp fun q e he => ?_
  obtain ⟨s, hs, he⟩ := Option.bind_eq_some_iff.mp he
  exact ⟨s, hs, SyntaxError.reports_of_eq_some he (h.nested q s hs).ordered⟩

/-- **Errors come in document order.**  If the parser keeps its promises, there is an error for each
error node, in the order of their positions, nodes within error nodes included.  It says whether
text is unexpected or what is missing, and covers the bytes of the node.  No error begins before an
earlier one, none ends behind the source, and it makes no difference that the tree is searched only
if the parser says that something is wrong. -/
theorem errors_in_order (h : p.Promised) :
    (∃ places : List (List Nat), places.Pairwise (· < ·) ∧
      (∀ q, q ∈ places ↔ ∃ s, p.root.subtree? q = some s ∧
        (s.info.isError = true ∨ s.info.isMissing = true)) ∧
      List.Forall₂ (fun q e => ∃ s, p.root.subtree? q = some s ∧ e.Reports s.info)
        places p.errors) ∧
    p.errors.Pairwise (fun e e' => e.span.offset ≤ e'.span.offset) ∧
    (∀ e ∈ p.errors, e.span.offset + e.span.length ≤ (Text.encode p.source).length) ∧
    p.errors = p.root.errors := by
  have herrors := errors_eq_root_errors h.noticed
  rw [herrors]
  exact ⟨⟨p.root.errorPositions, (Tree.pairwise_positions p.root).filter _,
      fun q => Tree.mem_errorPositions, h.forall₂_errors⟩,
    h.pairwise_errors, fun e => h.stop_le_length, rfl⟩

/-- A call that is not closed, in an assignment without a right side. -/
def brokenCall : ParsedSource where
  root :=
    let node (kind : String) (start stop : Nat) : Node :=
      { kind, isNamed := true, isError := kind = "ERROR", isMissing := start = stop
        startByte := start, endByte := stop, startPoint := ⟨0, start⟩, endPoint := ⟨0, stop⟩ }
    .node (node "translation_unit" 0 7)
      [.node (node "ERROR" 0 4)
        [.node (node "identifier" 0 1) [], .node (node "ERROR" 1 3) [.node (node "(" 1 2) []]],
        .node (node "expression_statement" 4 7)
          [.node (node "identifier" 4 5) [], .node (node "=" 5 6) [],
            .node (node "identifier" 6 6) [], .node (node ";" 6 7) []]]
  hasError := true
  language := .c
  source := "f(( a=;"

/-- An error in an error, and a missing node without any text. -/
theorem errors_in_order_brokenCall :
    brokenCall.Promised ∧
      brokenCall.errors =
        [.unexpected ⟨0, 4⟩, .unexpected ⟨1, 2⟩, .missing "identifier" ⟨6, 0⟩] ∧
      brokenCall.errors.Pairwise fun e e' => e.span.offset ≤ e'.span.offset := by
  have hpromised : brokenCall.Promised := ⟨by decide, by decide, fun _ => rfl⟩
  obtain ⟨-, hpairwise, -, hall⟩ := errors_in_order hpromised
  refine ⟨hpromised, ?_, hpairwise⟩
  rw [hall, Tree.errors_eq_preorder]
  rfl

end ParsedSource
end SyntaxInspector
