import Mathlib.Data.List.TakeWhile
import SyntaxInspector.Proofs.QuotedText

/-! # Reading outlines back

A reader for outlines, and the tree that it finds there.

* `Outline.readRow` reads a line from its right end: the preview, then the bytes, then what is left
  of the indentation and the kind with its mark.  Nothing in a kind can be taken for what follows it
  (`readRow_line`).
* `Outline.graft` puts the rows together from the last one on: a row takes the trees behind it that
  are one level deeper.  Only then is it known whether a star at the end of a row is the mark of a
  leaf or belongs to the kind (`foldr_graft_preorder`).
* So the outline determines the shape of a tree, and of every node the kind, the bytes and the
  preview (`Listing.read?_outline_and_eq_of_outline_eq`), if no kind has a line break or begins with
  a space. -/

namespace SyntaxInspector

open SyntaxInspector.Dot (Reader expect expect_append)

/-- What the entry of a node shows of it. -/
structure Shown where
  kind : String
  startByte : Nat
  endByte : Nat
  preview : String
  deriving DecidableEq, Repr

/-- What an outline shows of a tree. -/
inductive Listing where
  | node (root : Shown) (children : List Listing)
  deriving Repr

namespace Tree

/-- What is shown of the root. -/
def shown (source : String) (t : Tree) : Shown where
  kind := t.info.kind
  startByte := t.info.startByte
  endByte := t.info.endByte
  preview := String.ofList (Outline.preview source.toList t)

mutual

/-- What is shown of a tree. -/
def listing (source : String) : Tree → Listing
  | node n cs => .node ((node n cs).shown source) (listings source cs)

/-- What is shown of several trees. -/
def listings (source : String) : List Tree → List Listing
  | [] => []
  | t :: ts => t.listing source :: listings source ts

end

theorem listings_eq_map (source : String) (ts : List Tree) :
    listings source ts = ts.map (listing source) := by
  induction ts with
  | nil => rfl
  | cons t ts ih => rw [listings, ih, List.map_cons]

theorem listing_eq (source : String) (t : Tree) :
    t.listing source = .node (t.shown source) (t.children.map (listing source)) := by
  cases t with
  | node n cs => rw [listing, listings_eq_map, children_node]

/-- Trees that are shown alike have the same positions, and what is shown there is the same. -/
theorem subtree?_of_listing_eq {source₁ source₂ : String} (p : List Nat) {t₁ t₂ : Tree}
    (h : t₁.listing source₁ = t₂.listing source₂) :
    (t₁.subtree? p).map (shown source₁) = (t₂.subtree? p).map (shown source₂) := by
  induction p generalizing t₁ t₂ with
  | nil =>
      rw [listing_eq, listing_eq, Listing.node.injEq] at h
      exact congrArg some h.1
  | cons i p ih =>
      rw [listing_eq, listing_eq, Listing.node.injEq] at h
      have hi := congrArg (fun ls => ls[i]?) h.2
      simp only [List.getElem?_map] at hi
      cases h₁ : t₁.children[i]? with
      | none =>
          cases h₂ : t₂.children[i]? with
          | none => simp [subtree?, h₁, h₂]
          | some c₂ => simp [h₁, h₂] at hi
      | some c₁ =>
          cases h₂ : t₂.children[i]? with
          | none => simp [h₁, h₂] at hi
          | some c₂ =>
              rw [h₁, h₂, Option.map_some, Option.map_some, Option.some.injEq] at hi
              rw [subtree?_cons p h₁, subtree?_cons p h₂]
              exact ih hi

end Tree

namespace Outline

/-! ### Rows -/

/-- What a line says of a node. -/
structure Row where
  depth : Nat
  /-- The kind, with the mark of a leaf behind it. -/
  label : List Char
  startByte : Nat
  endByte : Nat
  preview : List Char
  deriving DecidableEq, Repr

/-- The row of a node. -/
def rowOf (source : List Char) (p : Placed) : Row where
  depth := p.2
  label := p.1.info.kind.toList ++ if p.1.isLeaf then ['*'] else []
  startByte := p.1.info.startByte
  endByte := p.1.info.endByte
  preview := preview source p.1

/-- Reads the digits in front of a place, backwards. -/
def readNumberBack : Reader Nat := fun cs =>
  let digits := cs.takeWhile Char.isDigit
  if digits = [] then none
  else some (Nat.ofDigitChars 10 digits.reverse 0, cs.dropWhile Char.isDigit)

/-- Reads a line from its right end. -/
def readRow (line : List Char) : Option Row := do
  let (_, cs) ← expect ['"'] line.reverse
  let (written, cs) ← Text.cutQuoted cs
  let preview ← Text.unescape? written
  let (_, cs) ← expect [' ', ']'] cs
  let (endByte, cs) ← readNumberBack cs
  let (_, cs) ← expect ['.', '.'] cs
  let (startByte, cs) ← readNumberBack cs
  let (_, cs) ← expect ['[', ' '] cs
  let front := cs.reverse
  let depth := (front.takeWhile (· == ' ')).length / 2
  return { depth, label := front.dropWhile (· == ' '), startByte, endByte, preview }

theorem readNumberBack_toDigits (n : Nat) {rest : List Char}
    (h : rest.takeWhile Char.isDigit = []) :
    readNumberBack ((Nat.toDigits 10 n).reverse ++ rest) = some (n, rest) := by
  have hd : ∀ c ∈ (Nat.toDigits 10 n).reverse, c.isDigit = true := fun c hc =>
    Nat.isDigit_of_mem_toDigits (by decide) (by decide) (List.mem_reverse.mp hc)
  have hdrop : rest.dropWhile Char.isDigit = rest :=
    List.dropWhile_eq_self_iff.mpr (List.takeWhile_eq_nil_iff.mp h)
  have hne : (Nat.toDigits 10 n).reverse ≠ [] := by
    rw [ne_eq, List.reverse_eq_nil_iff]
    exact Nat.toDigits_ne_nil
  simp only [readNumberBack, List.takeWhile_append_of_pos hd, List.dropWhile_append_of_pos hd, h,
    hdrop, List.append_nil, if_neg hne, List.reverse_reverse, Nat.ofDigitChars_ten_toDigits]

/-- The kind has no line break and does not begin with a space. -/
def IsPlainKind (kind : String) : Prop :=
  '\n' ∉ kind.toList ∧ kind.toList.head? ≠ some ' '

instance (kind : String) : Decidable (IsPlainKind kind) :=
  inferInstanceAs (Decidable (_ ∧ _))

/-- The line of a node, backwards. -/
theorem reverse_line (source : List Char) (p : Placed) :
    (line source p).toList.reverse =
      ['"'] ++ (((preview source p.1).flatMap Text.escape).reverse ++ '"' :: ([' ', ']'] ++
        ((Nat.toDigits 10 p.1.info.endByte).reverse ++ (['.', '.'] ++
          ((Nat.toDigits 10 p.1.info.startByte).reverse ++ (['[', ' '] ++
            (List.replicate (2 * p.2) ' ' ++ (rowOf source p).label).reverse)))))) := by
  have hmark : (if p.1.isLeaf then "*" else "").toList = if p.1.isLeaf then ['*'] else [] := by
    split <;> rfl
  simp [line, lineEnd, rowOf, hmark]

/-- The indentation ends where the label begins. -/
theorem takeWhile_space_label {source : List Char} {p : Placed} (h : IsPlainKind p.1.info.kind) :
    (rowOf source p).label.takeWhile (· == ' ') = [] := by
  have hkind := h.2
  cases hk : p.1.info.kind.toList with
  | nil =>
      rw [rowOf, hk]
      split <;> rfl
  | cons c cs =>
      rw [hk] at hkind
      have hc : ¬ (c == ' ') = true := by simpa using hkind
      rw [rowOf, hk, List.cons_append, List.takeWhile_cons, if_neg hc]

/-- The line of a node is read back, whatever stands in its kind. -/
theorem readRow_line {source : List Char} {p : Placed} (h : IsPlainKind p.1.info.kind) :
    readRow (line source p).toList = some (rowOf source p) := by
  have hspaces : ∀ c ∈ List.replicate (2 * p.2) ' ', (c == ' ') = true := fun c hc =>
    beq_iff_eq.mpr (List.eq_of_mem_replicate hc)
  have hlabel : (rowOf source p).label.takeWhile (· == ' ') = [] := takeWhile_space_label h
  have hdrop : (rowOf source p).label.dropWhile (· == ' ') = (rowOf source p).label :=
    List.dropWhile_eq_self_iff.mpr (List.takeWhile_eq_nil_iff.mp hlabel)
  have hdepth : 2 * p.2 / 2 = p.2 := by omega
  rw [readRow, reverse_line]
  simp only [expect_append, Option.bind_eq_bind, Option.bind_some]
  rw [Text.cutQuoted_reverse_append _ (by simp)]
  simp only [expect_append, Option.bind_some, Text.unescape?_flatMap_escape]
  rw [readNumberBack_toDigits _ rfl]
  simp only [expect_append, Option.bind_some]
  rw [readNumberBack_toDigits _ rfl]
  simp only [expect_append, Option.bind_some, List.reverse_reverse,
    List.takeWhile_append_of_pos hspaces, List.dropWhile_append_of_pos hspaces, hlabel, hdrop,
    List.append_nil, List.length_replicate, hdepth]
  rfl

/-! ### Rows and trees -/

/-- Puts a row in front of trees that wait, each with its depth: it takes those at the front that
are one level deeper.  If there are none, the row is that of a leaf, and the mark is taken off. -/
def graft (r : Row) (waiting : List (Nat × Listing)) : List (Nat × Listing) :=
  let below := (waiting.takeWhile (·.1 == r.depth + 1)).map Prod.snd
  let kind := if below.isEmpty then r.label.dropLast else r.label
  (r.depth, .node ⟨String.ofList kind, r.startByte, r.endByte, String.ofList r.preview⟩ below) ::
    waiting.dropWhile (·.1 == r.depth + 1)

/-- A row takes all trees of the level below it and no other. -/
theorem graft_rowOf (source : String) (t : Tree) {d : Nat} {waiting : List (Nat × Listing)}
    (h : ∀ q ∈ waiting, q.1 ≤ d) :
    graft (rowOf source.toList (t, d))
        ((t.children.map (Tree.listing source)).map (d + 1, ·) ++ waiting) =
      (d, t.listing source) :: waiting := by
  have hpos : ∀ q ∈ (t.children.map (Tree.listing source)).map (d + 1, ·),
      (q.1 == d + 1) = true := by
    intro q hq
    obtain ⟨l, -, rfl⟩ := List.mem_map.mp hq
    exact beq_self_eq_true _
  have htake : waiting.takeWhile (·.1 == d + 1) = [] := by
    cases waiting with
    | nil => rfl
    | cons q qs =>
        have hle := h q List.mem_cons_self
        have hne : ¬ (q.1 == d + 1) = true := by
          rw [beq_iff_eq]
          omega
        rw [List.takeWhile_cons, if_neg hne]
  have hdrop : waiting.dropWhile (·.1 == d + 1) = waiting :=
    List.dropWhile_eq_self_iff.mpr (List.takeWhile_eq_nil_iff.mp htake)
  have hbelow : ((t.children.map (Tree.listing source)).map (d + 1, ·)).map Prod.snd =
      t.children.map (Tree.listing source) := by
    rw [List.map_map]
    simp [Function.comp_def]
  have hkind : String.ofList (if (t.children.map (Tree.listing source)).isEmpty then
      (rowOf source.toList (t, d)).label.dropLast else (rowOf source.toList (t, d)).label) =
        t.info.kind := by
    rw [List.isEmpty_map, rowOf, Tree.isLeaf]
    cases t.children.isEmpty <;> simp
  have hdepth : (rowOf source.toList (t, d)).depth = d := rfl
  rw [graft, hdepth, List.takeWhile_append_of_pos hpos, List.dropWhile_append_of_pos hpos, htake,
    hdrop, List.append_nil, hbelow, Tree.listing_eq]
  simp only [hkind]
  rfl

mutual

/-- Grafted from the last row on, the rows of a tree become what is shown of it. -/
theorem foldr_graft_preorder (source : String) : ∀ (t : Tree) (d : Nat)
    (waiting : List (Nat × Listing)), (∀ q ∈ waiting, q.1 ≤ d) →
    ((t.preorder d).map (rowOf source.toList)).foldr graft waiting =
      (d, t.listing source) :: waiting
  | .node n cs, d, waiting, h => by
      have hcs := foldr_graft_preorders source cs (d + 1) waiting
        fun q hq => Nat.le_succ_of_le (h q hq)
      rw [Tree.preorder, List.map_cons, List.foldr_cons, hcs]
      exact graft_rowOf source (.node n cs) h

theorem foldr_graft_preorders (source : String) : ∀ (ts : List Tree) (d : Nat)
    (waiting : List (Nat × Listing)), (∀ q ∈ waiting, q.1 ≤ d) →
    ((Tree.preorders ts d).map (rowOf source.toList)).foldr graft waiting =
      (ts.map (Tree.listing source)).map (d, ·) ++ waiting
  | [], _, _, _ => rfl
  | t :: ts, d, waiting, h => by
      have hts : ∀ q ∈ (ts.map (Tree.listing source)).map (d, ·) ++ waiting, q.1 ≤ d := by
        intro q hq
        rcases List.mem_append.mp hq with hq | hq
        · obtain ⟨l, -, rfl⟩ := List.mem_map.mp hq
          exact Nat.le_refl d
        · exact h q hq
      rw [Tree.preorders, List.map_append, List.foldr_append,
        foldr_graft_preorders source ts d waiting h, foldr_graft_preorder source t d _ hts]
      rfl

end

theorem mapM_readRow_lines (source : List Char) {ps : List Placed}
    (h : ∀ p ∈ ps, IsPlainKind p.1.info.kind) :
    (ps.map fun p => (line source p).toList).mapM readRow = some (ps.map (rowOf source)) := by
  induction ps with
  | nil => rfl
  | cons p ps ih =>
      have hp : readRow (line source p).toList = some (rowOf source p) :=
        readRow_line (h p List.mem_cons_self)
      have hps := ih fun q hq => h q (List.mem_cons_of_mem p hq)
      rw [List.map_cons, List.mapM_cons, hp, hps]
      rfl

end Outline

/-- No kind in the tree has a line break or begins with a space. -/
def Tree.HasPlainKinds (t : Tree) : Prop :=
  ∀ q ∈ t.preorder 0, Outline.IsPlainKind q.1.info.kind

instance (t : Tree) : Decidable t.HasPlainKinds :=
  inferInstanceAs (Decidable (∀ q ∈ t.preorder 0, Outline.IsPlainKind q.1.info.kind))

namespace Listing

open Outline

/-- The tree that an outline shows. -/
def read? (text : String) : Option Listing := do
  let rows ← (text.toList.splitOn '\n').dropLast.mapM readRow
  match rows.foldr graft [] with
  | [(0, l)] => some l
  | _ => none

theorem read?_outline {t : Tree} (source : String) (h : t.HasPlainKinds) :
    read? (t.outline source none) = some (t.listing source) := by
  have hwalk : t.walk none = t.preorder 0 := Tree.walk_eq_preorderTo t none
  have hlines : (t.outline source none).toList.splitOn '\n' =
      (t.preorder 0).map (fun p => (line source.toList p).toList) ++ [[]] := by
    rw [← hwalk, Tree.splitOn_outline_eq_map_iff, hwalk]
    exact fun p hp => (h p hp).1
  have hgraft := foldr_graft_preorder source t 0 [] (by intro q hq; cases hq)
  rw [read?, hlines, List.dropLast_concat, mapM_readRow_lines source.toList h]
  simp only [Option.bind_eq_bind, Option.bind_some, hgraft]

/-- **An outline determines what it shows.**  Reading it from the right ends of its lines gives the
tree back, each node with its kind, its bytes and its preview.  So two trees with the same outline
have the same positions, and at each of them the kind, the bytes and the preview are the same. -/
theorem read?_outline_and_eq_of_outline_eq {t₁ t₂ : Tree} (source₁ source₂ : String)
    (h₁ : t₁.HasPlainKinds) (h₂ : t₂.HasPlainKinds) :
    read? (t₁.outline source₁ none) = some (t₁.listing source₁) ∧
      (t₁.outline source₁ none = t₂.outline source₂ none →
        t₁.listing source₁ = t₂.listing source₂ ∧
          ∀ p, (t₁.subtree? p).map (Tree.shown source₁) =
            (t₂.subtree? p).map (Tree.shown source₂)) := by
  have hread₁ := read?_outline source₁ h₁
  have hread₂ := read?_outline source₂ h₂
  refine ⟨hread₁, fun h => ?_⟩
  have hlisting : t₁.listing source₁ = t₂.listing source₂ := by
    rw [h, hread₂, Option.some.injEq] at hread₁
    exact hread₁.symm
  exact ⟨hlisting, fun p => Tree.subtree?_of_listing_eq p hlisting⟩

/-- A tree with kinds that end in a star, are empty, or look like the rest of a line. -/
def starred (isNamed : Bool) : Tree :=
  let node (kind : String) (start stop : Nat) : Node :=
    { kind, isNamed, isError := false, isMissing := false, startByte := start, endByte := stop
      startPoint := ⟨0, start⟩, endPoint := ⟨0, stop⟩ }
  .node (node "a*" 0 8)
    [.node (node "b* [0..8] \"c" 0 3) [],
      .node (node "" 4 8) [.node (node "*" 4 5) []]]

theorem outline_starred :
    (starred true).outline "say \"hi\"" none = (starred false).outline "say \"hi\"\n" none := by
  rw [Tree.outline, Tree.outline, Tree.walk_eq_preorderTo, Tree.walk_eq_preorderTo]
  decide +kernel

/-- The outlines of the tree with named and with anonymous nodes are the same, so the kinds are:
the stars that are marks are told from those that are not. -/
theorem read?_outline_starred :
    (starred true).HasPlainKinds ∧ (starred false).HasPlainKinds ∧
      (starred true).outline "say \"hi\"" none = (starred false).outline "say \"hi\"\n" none ∧
      read? ((starred true).outline "say \"hi\"" none) =
        some ((starred true).listing "say \"hi\"") ∧
      (starred true).listing "say \"hi\"" = (starred false).listing "say \"hi\"\n" ∧
      ∀ p, ((starred true).subtree? p).map (Tree.shown "say \"hi\"") =
        ((starred false).subtree? p).map (Tree.shown "say \"hi\"\n") := by
  have htrue : (starred true).HasPlainKinds := by decide
  have hfalse : (starred false).HasPlainKinds := by decide
  have h := read?_outline_and_eq_of_outline_eq "say \"hi\"" "say \"hi\"\n" htrue hfalse
  exact ⟨htrue, hfalse, outline_starred, h.1, h.2 outline_starred⟩

end Listing

end SyntaxInspector
