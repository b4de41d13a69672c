import SyntaxInspector.Proofs.Preorder
import SyntaxInspector.Run

/-! # Error nodes and the check

What the check of a source decides by.

* `Tree.HasErrorNode` says that a node of the tree stands for an error; `errors_eq_nil_iff` finds it
  with the walk through the tree.
* The check passes a source if the parser reports nothing or the tree has no error node
  (`check_eq_ok_iff`).  This is what the parser reports unless it reports an error that has no node,
  as for a missing line break at the end of the text. -/

namespace SyntaxInspector

theorem SyntaxError.ofNode?_eq_none_iff {n : Node} :
    ofNode? n = none ↔ ¬ (n.isError = true ∨ n.isMissing = true) := by
  rw [ofNode?]
  cases n.isError <;> cases n.isMissing <;> simp

namespace Tree

/-- Some node of the tree stands for an error. -/
def HasErrorNode (t : Tree) : Prop :=
  ∃ p s, t.subtree? p = some s ∧ (s.info.isError = true ∨ s.info.isMissing = true)

theorem errors_eq_nil_iff {t : Tree} : t.errors = [] ↔ ¬ t.HasErrorNode := by
  rw [errors, List.filterMap_eq_nil_iff]
  constructor
  · rintro h ⟨p, s, hs, he⟩
    have hq : (s, p.length) ∈ t.walk none := mem_walk_none.mpr ⟨p, hs, rfl⟩
    exact SyntaxError.ofNode?_eq_none_iff.mp (h _ hq) he
  · intro h q hq
    obtain ⟨p, hs, -⟩ := mem_walk_none.mp hq
    exact SyntaxError.ofNode?_eq_none_iff.mpr fun he => h ⟨p, q.1, hs, he⟩

end Tree

theorem ParsedSource.errors_eq_nil_iff {p : ParsedSource} :
    p.errors = [] ↔ p.hasError = false ∨ ¬ p.root.HasErrorNode := by
  rw [errors]
  cases p.hasError with
  | false => simp
  | true => simp [Tree.errors_eq_nil_iff]

theorem check_eq_ok_iff {p : ParsedSource} {name : String} :
    check p name = .ok () ↔ p.hasError = false ∨ ¬ p.root.HasErrorNode := by
  rw [← ParsedSource.errors_eq_nil_iff, check, ← List.isEmpty_iff]
  cases p.errors.isEmpty <;> simp

/-- The text of a check is the report of success if the check passes, and its error if not. -/
theorem computeText_check {m : Type → Type} [Monad m] [LawfulMonad m] (host : Host m) {a : Args}
    (p : ParsedSource) (h : a.target = .check) :
    (computeText host a p).run = pure ((check p (a.inputPath.getD standardInputName)).map
      fun _ => "no syntax errors in " ++ a.inputPath.getD standardInputName) := by
  rw [computeText, h]
  cases hc : check p (a.inputPath.getD standardInputName) with
  | ok u => simp [computeText.liftExcept, hc, Except.map]
  | error e => simp [computeText.liftExcept, hc, Except.map]

/-- **What the check decides.**  It passes a source, and success is reported, exactly if the parser
reports no error or the tree has no error node.  So it agrees with the parser on every source but
those in which the parser reports an error that has no node. -/
theorem check_agrees_with_hasError_iff (p : ParsedSource) (name : String) :
    (check p name = .ok () ↔ p.hasError = false ∨ ¬ p.root.HasErrorNode) ∧
      ((check p name = .ok () ↔ p.hasError = false) ↔
        (p.hasError = true → p.root.HasErrorNode)) ∧
      ∀ (m : Type → Type) [Monad m] [LawfulMonad m] (host : Host m) (a : Args),
        a.target = .check →
        (computeText host a p).run = pure ((check p (a.inputPath.getD standardInputName)).map
          fun _ => "no syntax errors in " ++ a.inputPath.getD standardInputName) := by
  refine ⟨check_eq_ok_iff, ?_, fun m _ _ host a h => computeText_check host p h⟩
  rw [check_eq_ok_iff]
  constructor
  · intro h he
    refine Classical.byContradiction fun hn => ?_
    rw [h.mp (.inr hn)] at he
    cases he
  · intro h
    constructor
    · rintro (hf | hn)
      · exact hf
      · exact Bool.eq_false_iff.mpr fun he => hn (h he)
    · exact .inl

/-- An include directive at the very end of a text.  The line break it should end with is missing,
which the parser reports, but the tree has no node for a line break. -/
def endlessInclude : ParsedSource where
  root :=
    let node (kind : String) (isNamed : Bool) (start stop : Nat) : Node :=
      { kind, isNamed, isError := false, isMissing := false, startByte := start, endByte := stop
        startPoint := ⟨0, start⟩, endPoint := ⟨0, stop⟩ }
    .node (node "translation_unit" true 0 14)
      [.node (node "preproc_include" true 0 14)
        [.node (node "#include" false 0 8) [],
          .node { node "system_lib_string" true 9 14 with field := some "path" } []]]
  hasError := true
  language := .c
  source := "#include <a.h>"

/-- The check passes a source that the parser reports an error in. -/
theorem check_passes_endlessInclude :
    ¬ (check endlessInclude "m.c" = .ok () ↔ endlessInclude.hasError = false) := by
  have herrors : endlessInclude.root.errors = [] := by
    rw [Tree.errors, Tree.walk_eq_preorderTo]
    rfl
  have hcheck : check endlessInclude "m.c" = .ok () :=
    check_eq_ok_iff.mpr (.inr (Tree.errors_eq_nil_iff.mp herrors))
  intro h
  exact absurd (h.mp hcheck) (by decide)

end SyntaxInspector
