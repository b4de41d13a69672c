import Mathlib.Data.List.Nodup
import Mathlib.Data.List.Perm.Basic
import Mathlib.Data.Prod.Lex
import Mathlib.Data.String.Basic
import SyntaxInspector.Proofs.Statistics

/-! # The ranking of kinds

All kinds of a summary stand in one ranking: by the higher count, and with equal counts by the
smaller kind in the order of code points.  A distribution is a beginning of it.

* `RanksAbove` is the order of the ranking; on kinds it is that of `String` (`codePoints_lt_iff`).
  It is the lexicographic order of the ranks (`RanksAbove.iff_rank_lt`), and so is that of sorting
  (`ranksBefore_iff`).
* `Summary.ranking` is the ranking, and `eq_ranking` says that no other list of the entries is in
  order.
* `highest` is the highest count, and `snd_eq_highest_of_ranking` says that it comes first.
* `kinds_foldl_add` says what a pass does to the tally, node by node in an order that does not
  matter.
* `distribution_is_top_of_ranking` says what this means for distributions. -/

namespace SyntaxInspector

/-- The code points of a text. -/
def codePoints (s : String) : List Nat := s.toList.map Char.toNat

theorem codePoints_strictMono : StrictMono codePoints := by
  intro s t h
  have hchars : s.toList < t.toList := String.lt_iff_toList_lt.mp h
  exact List.map_lt (fun _ _ hcd => hcd) hchars

/-- Texts are in the order of their code points. -/
theorem codePoints_lt_iff {s t : String} : codePoints s < codePoints t ↔ s < t :=
  codePoints_strictMono.lt_iff_lt

/-- One entry stands above another: it has the higher count, or the same count and the smaller
kind. -/
def RanksAbove (a b : String × Nat) : Prop :=
  b.2 < a.2 ∨ a.2 = b.2 ∧ codePoints a.1 < codePoints b.1

/-- What entries are ranked by: entries with smaller ranks come first. -/
def rank (e : String × Nat) : ℕᵒᵈ ×ₗ String := toLex (OrderDual.toDual e.2, e.1)

namespace RanksAbove

variable {a b : String × Nat}

theorem iff_rank_lt : RanksAbove a b ↔ rank a < rank b := by
  rw [RanksAbove, codePoints_lt_iff, rank, rank, Prod.Lex.toLex_lt_toLex,
    OrderDual.toDual_lt_toDual, OrderDual.toDual_inj]

theorem asymm (hab : RanksAbove a b) : ¬ RanksAbove b a := by
  rw [iff_rank_lt] at hab ⊢
  exact lt_asymm hab

theorem count_le (h : RanksAbove a b) : b.2 ≤ a.2 := by
  rcases h with h | ⟨h, -⟩
  · exact Nat.le_of_lt h
  · exact Nat.le_of_eq h.symm

end RanksAbove

namespace Summary

variable {s : Summary} {a b e : String × Nat} {l : List (String × Nat)}

/-! ### The order of sorting -/

theorem ranksBefore_iff : ranksBefore a b = true ↔ rank a ≤ rank b := by
  rw [rank, rank, Prod.Lex.toLex_le_toLex, OrderDual.toDual_lt_toDual, OrderDual.toDual_inj]
  simp [ranksBefore]

theorem ranksBefore_trans (a b c : String × Nat) (hab : ranksBefore a b = true)
    (hbc : ranksBefore b c = true) : ranksBefore a c = true := by
  rw [ranksBefore_iff] at hab hbc ⊢
  exact hab.trans hbc

theorem ranksBefore_total (a b : String × Nat) : (ranksBefore a b || ranksBefore b a) = true := by
  rw [Bool.or_eq_true, ranksBefore_iff, ranksBefore_iff]
  exact le_total (rank a) (rank b)

/-- Of two kinds the one that is sorted first stands above the other. -/
theorem ranksAbove_of_ranksBefore (h : ranksBefore a b = true) (hne : a.1 ≠ b.1) :
    RanksAbove a b := by
  have hrank : rank a ≠ rank b := fun heq => hne (congrArg (fun r => (ofLex r).2) heq)
  exact RanksAbove.iff_rank_lt.mpr (lt_of_le_of_ne (ranksBefore_iff.mp h) hrank)

/-! ### The ranking -/

/-- All kinds with their counts, in the order of the ranking. -/
def ranking (s : Summary) : List (String × Nat) := s.kinds.entries.mergeSort ranksBefore

theorem ranking_perm (s : Summary) : s.ranking.Perm s.kinds.entries :=
  List.mergeSort_perm _ _

theorem mem_ranking : e ∈ s.ranking ↔ s.kinds.count? e.1 = some e.2 := by
  rw [s.ranking_perm.mem_iff, Tally.mem_entries_iff]

theorem nodup_kinds_ranking (s : Summary) : (s.ranking.map Prod.fst).Nodup := by
  have hentries : (s.kinds.entries.map Prod.fst).Nodup := by
    rw [List.Nodup, List.pairwise_map]
    exact s.kinds.ascending.imp fun h => ne_of_lt h
  exact (s.ranking_perm.map Prod.fst).nodup_iff.mpr hentries

theorem nodup_ranking (s : Summary) : s.ranking.Nodup :=
  List.Nodup.of_map Prod.fst s.nodup_kinds_ranking

theorem pairwise_ranking (s : Summary) : s.ranking.Pairwise RanksAbove := by
  have hsorted : s.ranking.Pairwise fun a b => ranksBefore a b = true :=
    List.pairwise_mergeSort ranksBefore_trans ranksBefore_total _
  have hkinds : s.ranking.Pairwise fun a b => a.1 ≠ b.1 :=
    List.pairwise_map.mp s.nodup_kinds_ranking
  exact (hsorted.and hkinds).imp fun h => ranksAbove_of_ranksBefore h.1 h.2

/-- No other list of the entries is in this order. -/
theorem eq_ranking (hnodup : l.Nodup) (hmem : ∀ e, e ∈ l ↔ s.kinds.count? e.1 = some e.2)
    (hsorted : l.Pairwise RanksAbove) : l = s.ranking := by
  have hperm : l.Perm s.ranking := by
    rw [List.perm_ext_iff_of_nodup hnodup s.nodup_ranking]
    intro e
    rw [hmem, mem_ranking]
  exact hperm.eq_of_pairwise (fun _ _ _ _ hab hba => absurd hba hab.asymm) hsorted
    s.pairwise_ranking

theorem ranking_congr {s' : Summary} (h : ∀ k, s'.kinds.count? k = s.kinds.count? k) :
    s'.ranking = s.ranking := by
  have hkinds : s'.kinds = s.kinds := Tally.eq_of_count? h
  rw [ranking, ranking, hkinds]

/-! ### The highest count -/

/-- The highest count of all kinds; 0 if there are none. -/
def highest (s : Summary) : Nat := (s.kinds.entries.map Prod.snd).foldr max 0

theorem highest_le_iff {n : Nat} : s.highest ≤ n ↔ ∀ e ∈ s.kinds.entries, e.2 ≤ n := by
  have hall : ∀ es : List (String × Nat),
      (es.map Prod.snd).foldr max 0 ≤ n ↔ ∀ e ∈ es, e.2 ≤ n := by
    intro es
    induction es with
    | nil => simp
    | cons e es ih =>
        rw [List.map_cons, List.foldr_cons, Nat.max_le, ih, List.forall_mem_cons]
  exact hall s.kinds.entries

theorem le_highest (h : e ∈ s.kinds.entries) : e.2 ≤ s.highest :=
  highest_le_iff.mp (le_refl s.highest) e h

/-- The ranking begins with the highest count. -/
theorem snd_eq_highest_of_ranking {rest : List (String × Nat)} (h : s.ranking = e :: rest) :
    e.2 = s.highest := by
  have hmem : e ∈ s.kinds.entries := s.ranking_perm.mem_iff.mp (by simp [h])
  have hle : s.highest ≤ e.2 := by
    rw [highest_le_iff]
    intro e' he'
    have hfirst : e' ∈ e :: rest := by
      rw [← h]
      exact s.ranking_perm.mem_iff.mpr he'
    rcases List.mem_cons.mp hfirst with rfl | hrest
    · exact le_refl e'.2
    · have hsorted := s.pairwise_ranking
      rw [h] at hsorted
      exact (List.rel_of_pairwise_cons hsorted hrest).count_le
  exact Nat.le_antisymm (le_highest hmem) hle

/-! ### Distributions -/

theorem distribution_eq_take (s : Summary) (n : Nat) : s.distribution n = s.ranking.take n := rfl

theorem mem_of_mem_distribution {n : Nat} (h : e ∈ s.distribution n) : e ∈ s.kinds.entries :=
  s.ranking_perm.mem_iff.mp (List.mem_of_mem_take h)

/-- What a distribution lists stands above what it leaves out. -/
theorem ranksAbove_of_not_mem_distribution {n : Nat} (ha : a ∈ s.distribution n)
    (hb : b ∈ s.kinds.entries) (hb' : b ∉ s.distribution n) : RanksAbove a b := by
  have hsplit : s.distribution n ++ s.ranking.drop n = s.ranking := List.take_append_drop n _
  have hmem : b ∈ s.distribution n ++ s.ranking.drop n := by
    rw [hsplit]
    exact s.ranking_perm.mem_iff.mpr hb
  have hdrop : b ∈ s.ranking.drop n := (List.mem_append.mp hmem).resolve_left hb'
  have hsorted := s.pairwise_ranking
  rw [← hsplit, List.pairwise_append] at hsorted
  exact hsorted.2.2 a ha b hdrop

/-! ### The order of counting -/

/-- What one more node of a walk does to the tally. -/
def countNamed (t : Tally) (p : Placed) : Tally :=
  if p.1.info.isNamed then t.bump p.1.info.kind else t

theorem bump_bump (t : Tally) (j k : String) : (t.bump j).bump k = (t.bump k).bump j := by
  refine Tally.eq_of_count? fun i => ?_
  simp only [Tally.bump, Tally.count?_alter]
  by_cases hjk : j = k
  · rw [hjk]
  · by_cases hij : i = j <;> by_cases hik : i = k <;> simp_all [eq_comm]

instance : RightCommutative countNamed where
  right_comm t p q := by
    unfold countNamed
    split <;> split
    · exact bump_bump t _ _
    all_goals rfl

theorem kinds_foldl_add (ps : List Placed) (s : Summary) :
    (ps.foldl add s).kinds = ps.foldl countNamed s.kinds := by
  induction ps generalizing s with
  | nil => rfl
  | cons p ps ih =>
      rw [List.foldl_cons, List.foldl_cons, ih, add_eq]
      rfl

/-- **A distribution is the top of the one ranking of all kinds.**  The ranking is the only list
that has every entry of the tally once and in order.  So a distribution lists entries of the tally
as they are and none twice, whatever it leaves out ranks below all that it lists, and a shorter one
is a beginning of a longer one.  It is told by the counts, and nodes may be counted in any order. -/
theorem distribution_is_top_of_ranking (s : Summary) :
    ∃ ranking : List (String × Nat),
      (∀ l : List (String × Nat),
        (l.Nodup ∧ (∀ kind count, (kind, count) ∈ l ↔ s.kinds.count? kind = some count) ∧
          l.Pairwise RanksAbove) ↔ l = ranking) ∧
      (∀ n, s.distribution n = ranking.take (min n s.kinds.entries.length)) ∧
      (∀ n, (s.distribution n).length = min n s.kinds.entries.length) ∧
      (∀ n, ((s.distribution n).map Prod.fst).Nodup ∧
        ∀ e ∈ s.distribution n, s.kinds.count? e.1 = some e.2) ∧
      (∀ n, ∀ a ∈ s.distribution n, ∀ b ∈ s.kinds.entries, b ∉ s.distribution n →
        RanksAbove a b) ∧
      (∀ m n, m ≤ n → s.distribution m <+: s.distribution n) ∧
      (∀ s' : Summary, (∀ k, s'.kinds.count? k = s.kinds.count? k) →
        ∀ n, s'.distribution n = s.distribution n) ∧
      (∀ ps qs : List Placed, ps.Perm qs →
        ∀ n, (ps.foldl add s).distribution n = (qs.foldl add s).distribution n) := by
  have hlength : s.ranking.length = s.kinds.entries.length := s.ranking_perm.length_eq
  refine ⟨s.ranking, fun l => ⟨?_, ?_⟩, fun n => ?_, fun n => ?_, fun n => ⟨?_, ?_⟩, ?_, ?_, ?_, ?_⟩
  · rintro ⟨hnodup, hmem, hsorted⟩
    exact eq_ranking hnodup (fun e => hmem e.1 e.2) hsorted
  · rintro rfl
    exact ⟨s.nodup_ranking, fun kind count => mem_ranking, s.pairwise_ranking⟩
  · rw [distribution_eq_take, ← hlength, ← List.take_eq_take_min]
  · rw [distribution_eq_take, List.length_take, hlength]
  · exact s.nodup_kinds_ranking.sublist ((List.take_sublist n _).map Prod.fst)
  · intro e he
    exact Tally.mem_entries_iff.mp (mem_of_mem_distribution he)
  · intro n a ha b hb hb'
    exact ranksAbove_of_not_mem_distribution ha hb hb'
  · intro m n hmn
    exact List.take_prefix_take_left hmn
  · intro s' hcounts n
    rw [distribution_eq_take, distribution_eq_take, ranking_congr hcounts]
  · intro ps qs hperm n
    have hkinds : (ps.foldl add s).kinds = (qs.foldl add s).kinds := by
      rw [kinds_foldl_add, kinds_foldl_add, hperm.foldl_eq]
    rw [distribution, distribution, hkinds]

end Summary
end SyntaxInspector
