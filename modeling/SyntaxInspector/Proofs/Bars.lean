import Mathlib.Data.Rat.Floor
import SyntaxInspector.Proofs.ReportLayout

/-! # The bars of a report

A bar is computed by a division in 64-bit words.  Where the counts are not too large the words
suffice, and a bar is the share of its count in the highest one, in parts of twenty and rounded up.

* `roundedShare` is this length, and `barLength_eq_roundedShare` says that bars have it.
* `exists_fault_iff` says when there is no report.
* `report_fails_iff_and_draws_bars` puts both together, and says that the summary of a tree never
  lacks a report because of its counts. -/

namespace SyntaxInspector.Summary

variable {s : Summary} {count highest n : Nat}

/-! ### Shares -/

/-- The share of a count in the highest one, in parts of twenty and rounded up. -/
def roundedShare (count highest : Nat) : Nat := ⌈(20 * count : ℚ) / highest⌉₊

theorem roundedShare_le_iff (h : 0 < highest) :
    roundedShare count highest ≤ n ↔ 20 * count ≤ n * highest := by
  have hpos : (0 : ℚ) < highest := by exact_mod_cast h
  rw [roundedShare, Nat.ceil_le, div_le_iff₀ hpos]
  norm_cast

theorem roundedShare_le (h : 0 < highest) (hcount : count ≤ highest) :
    roundedShare count highest ≤ 20 := by
  rw [roundedShare_le_iff h]
  omega

theorem roundedShare_self (h : 0 < highest) : roundedShare highest highest = 20 := by
  have hle : ∀ n, roundedShare highest highest ≤ n ↔ 20 ≤ n := by
    intro n
    rw [roundedShare_le_iff h]
    exact Nat.mul_le_mul_right_iff h
  exact Nat.le_antisymm ((hle 20).mpr (le_refl 20)) ((hle _).mp (le_refl _))

theorem roundedShare_pos (h : 0 < highest) (hcount : 0 < count) :
    0 < roundedShare count highest := by
  by_contra hzero
  have hle : roundedShare count highest ≤ 0 := by omega
  rw [roundedShare_le_iff h] at hle
  omega

theorem roundedShare_mono (h : 0 < highest) {count' : Nat} (hcount : count ≤ count') :
    roundedShare count highest ≤ roundedShare count' highest := by
  have hle := (roundedShare_le_iff h).mp (le_refl (roundedShare count' highest))
  rw [roundedShare_le_iff h]
  omega

/-! ### Words -/

/-- Twenty times a count of this size is a 64-bit word. -/
theorem mul_barWidth_lt (h : count ≤ (2 ^ 64 - 1) / 20) : count * barWidth < wordCount := by
  have hwords : wordCount = 2 ^ 64 := rfl
  have hbar : barWidth = 20 := rfl
  rw [hwords, hbar]
  omega

theorem barLength_le_iff (h : 0 < highest) (hword : count * barWidth < wordCount) :
    barLength count highest ≤ n ↔ 20 * count ≤ n * highest := by
  have hbar : barWidth = 20 := rfl
  rw [barLength, Nat.mod_eq_of_lt hword, Nat.div_le_iff_le_mul_add_pred h, hbar,
    Nat.mul_comm highest]
  omega

theorem barLength_eq_roundedShare (h : 0 < highest) (hword : count * barWidth < wordCount) :
    barLength count highest = roundedShare count highest :=
  eq_of_forall_ge_iff fun _ => (barLength_le_iff h hword).trans (roundedShare_le_iff h).symm

/-! ### Reports that fail -/

theorem highest_eq_zero_iff : s.highest = 0 ↔ ∀ e ∈ s.kinds.entries, e.2 = 0 := by
  rw [← Nat.le_zero, highest_le_iff]
  simp only [Nat.le_zero]

/-- There is no report if all kinds have the count 0 or a kind is too long for its column. -/
theorem exists_fault_iff : (∃ fault, s.report = .error fault) ↔
    (s.kinds.entries ≠ [] ∧ ∀ e ∈ s.kinds.entries, e.2 = 0) ∨
      (∃ n ∈ s.topLevel, maxColumnWidth < Text.byteLength n.kind.toList) ∨
      ∃ e ∈ s.shown, maxColumnWidth < Text.byteLength e.1.toList := by
  have hheader : Text.byteLength "Node Type".toList ≤ maxColumnWidth := by decide
  rw [exists_eq_error_iff, exists_report_iff, columnWidth_le_iff, columnWidth_le_iff,
    List.forall_mem_cons, List.forall_mem_map, List.forall_mem_map, ← highest_eq_zero_iff]
  simp only [hheader, true_and, not_and_or, not_or, not_forall, not_le, not_not, exists_prop]
  exact or_left_comm

/-- A report fails to divide only where all counts are 0. -/
theorem highest_eq_zero_of_divisionByZero (h : s.report = .error .divisionByZero) :
    s.kinds.entries ≠ [] ∧ s.highest = 0 := by
  have hcolumn : ∀ texts, fitColumn texts ≠ .error .divisionByZero := by
    intro texts
    unfold fitColumn
    split <;> simp
  rcases bind_eq_error_iff.mp h with htable | ⟨_, -, h⟩
  · by_cases hnodes : s.topLevel = []
    · rw [hnodes] at htable
      cases htable
    · rw [table_of_ne_nil hnodes, map_eq_error_iff] at htable
      exact absurd htable (hcolumn _)
  · rcases bind_eq_error_iff.mp h with hchart | ⟨_, -, h⟩
    · replace hchart : chart s.shown = .error .divisionByZero := hchart
      by_cases hentries : s.kinds.entries = []
      · rw [shown_eq_nil_iff.mpr hentries] at hchart
        cases hchart
      · refine ⟨hentries, ?_⟩
        by_contra hzero
        rw [chart_shown hentries, if_neg hzero, map_eq_error_iff] at hchart
        exact hcolumn _ hchart
    · cases h

/-! ### Reports with bars -/

/-- The text ends in a row for each kind that is shown, with the kind, its count, and a bar as long
as the share of the count. -/
def DrawsBars (s : Summary) (text : String) : Prop :=
  ∃ front rows, text = front ++ String.join rows ∧
    List.Forall₂ (fun e row => ∃ start column,
      Shows [(0, e.1), (start, toString e.2),
        (column, String.ofList (List.replicate (roundedShare e.2 s.highest) '#'))] row) s.shown rows

theorem drawsBars_of_report {text : String}
    (hword : ∀ e ∈ s.kinds.entries, e.2 * barWidth < wordCount) (h : s.report = .ok text) :
    s.DrawsBars text := by
  obtain ⟨table', chart', -, hchart, rfl⟩ := report_eq_ok_iff.mp h
  by_cases hentries : s.kinds.entries = []
  · refine ⟨s.totals ++ table' ++ chart', [], (String.append_empty).symm, ?_⟩
    rw [shown_eq_nil_iff.mpr hentries]
    exact .nil
  · rw [chart_shown hentries] at hchart
    by_cases hzero : s.highest = 0
    · rw [if_pos hzero] at hchart
      cases hchart
    · rw [if_neg hzero, map_eq_ok_iff] at hchart
      obtain ⟨width, hwidth, rfl⟩ := hchart
      obtain ⟨-, rfl⟩ := fitColumn_eq_ok_iff.mp hwidth
      refine ⟨_, _, (String.append_assoc).symm, ?_⟩
      rw [List.forall₂_map_right_iff, List.forall₂_same]
      intro e he
      have hmem := mem_of_mem_distribution he
      have hrow := shows_distributionRow (length_le_columnWidth (List.mem_map_of_mem he))
        (le_highest hmem)
      rw [barLength_eq_roundedShare (Nat.pos_of_ne_zero hzero) (hword e hmem)] at hrow
      exact ⟨_, _, hrow⟩

theorem pairwise_shares (h : 0 < s.highest) :
    (s.shown.map fun e => roundedShare e.2 s.highest).Pairwise (· ≥ ·) := by
  have hsorted : s.shown.Pairwise RanksAbove := s.pairwise_ranking.sublist (List.take_sublist _ _)
  rw [List.pairwise_map]
  exact hsorted.imp fun hab => roundedShare_mono h hab.count_le

/-! ### Summaries of trees -/

/-- A kind is counted at least once and at most as often as there are nodes. -/
theorem count_summary {t : Tree} {e : String × Nat} (h : e ∈ t.summary.kinds.entries) :
    e.2 ≠ 0 ∧ e.2 ≤ t.size := by
  have hcount := t.stores_summary e.1
  rw [Tally.mem_entries_iff.mp h] at hcount
  split at hcount
  · cases hcount
  · rename_i hne
    rw [Option.some.injEq] at hcount
    rw [hcount]
    exact ⟨hne, t.countNodes_le_size _⟩

/-- **When a report fails, and what its bars are.**  With counts of which twenty times are 64-bit
words, there is no report if and only if there are kinds and all have the count 0, or a kind is too
long for its column.  In a report the bar of every kind that is shown is the share of its count in
the highest count of all, in parts of twenty and rounded up; the first is 20 long and none longer,
every kind that occurs has one, and they do not grow down the list.

The summary of a tree with so many nodes never divides by 0, and its products are words. -/
theorem report_fails_iff_and_draws_bars (s : Summary)
    (hcounts : ∀ e ∈ s.kinds.entries, e.2 ≤ (2 ^ 64 - 1) / 20) :
    ((∃ fault, s.report = .error fault) ↔
        (s.kinds.entries ≠ [] ∧ ∀ e ∈ s.kinds.entries, e.2 = 0) ∨
          (∃ n ∈ s.topLevel, maxColumnWidth < Text.byteLength n.kind.toList) ∨
          ∃ e ∈ s.shown, maxColumnWidth < Text.byteLength e.1.toList) ∧
      (∀ e ∈ s.kinds.entries, e.2 * barWidth < wordCount) ∧
      (∀ text, s.report = .ok text →
        s.DrawsBars text ∧
        (∀ e ∈ s.shown.head?, roundedShare e.2 s.highest = 20) ∧
        (∀ e ∈ s.shown, roundedShare e.2 s.highest ≤ 20) ∧
        (∀ e ∈ s.shown, 1 ≤ e.2 → 1 ≤ roundedShare e.2 s.highest) ∧
        (s.shown.map fun e => roundedShare e.2 s.highest).Pairwise (· ≥ ·)) ∧
      ∀ t : Tree, t.size ≤ (2 ^ 64 - 1) / 20 →
        t.summary.report ≠ .error .divisionByZero ∧
          ∀ e ∈ t.summary.kinds.entries, e.2 * barWidth < wordCount := by
  have hword : ∀ e ∈ s.kinds.entries, e.2 * barWidth < wordCount :=
    fun e he => mul_barWidth_lt (hcounts e he)
  refine ⟨exists_fault_iff, hword, fun text htext => ?bars, fun t ht => ⟨fun hzero => ?_, ?_⟩⟩
  case bars =>
    refine ⟨drawsBars_of_report hword htext, ?_⟩
    by_cases hentries : s.kinds.entries = []
    · rw [shown_eq_nil_iff.mpr hentries]
      simp
    · have hpos : 0 < s.highest :=
        Nat.pos_of_ne_zero ((exists_report_iff.mp ⟨text, htext⟩).2.1.resolve_left hentries)
      refine ⟨fun e he => ?_, fun e he => ?_, fun e _ hone => ?_, pairwise_shares hpos⟩
      · obtain ⟨rest, hshown⟩ := List.head?_eq_some_iff.mp he
        rw [head_shown hshown]
        exact roundedShare_self hpos
      · exact roundedShare_le hpos (le_highest (mem_of_mem_distribution he))
      · exact roundedShare_pos hpos hone
  · obtain ⟨hentries, hhighest⟩ := highest_eq_zero_of_divisionByZero hzero
    obtain ⟨e, he⟩ := List.exists_mem_of_ne_nil _ hentries
    exact (count_summary he).1 (highest_eq_zero_iff.mp hhighest e he)
  · intro e he
    exact mul_barWidth_lt (Nat.le_trans (count_summary he).2 ht)

/-- Three kinds, the last one not counted at all. -/
def threeKinds : Summary where
  totalNodes := 10
  maxDepth := 2
  kinds := .ofList [("call", 7), ("comment", 2), ("string", 0)]
  topLevel := [⟨"call", ⟨1, 0⟩, ⟨1, 9⟩⟩]

theorem shown_threeKinds : threeKinds.shown = [("call", 7), ("comment", 2), ("string", 0)] := by
  have hentries : threeKinds.kinds.entries = [("call", 7), ("comment", 2), ("string", 0)] := rfl
  rw [shown, distribution_eq_take, ranking, hentries,
    List.mergeSort_of_pairwise (by simp [ranksBefore])]
  rfl

theorem report_threeKinds_draws_bars :
    (∀ e ∈ threeKinds.kinds.entries, e.2 ≤ (2 ^ 64 - 1) / 20) ∧
      ∃ text, threeKinds.report = .ok text ∧ threeKinds.DrawsBars text ∧
        threeKinds.shown.map (fun e => roundedShare e.2 threeKinds.highest) = [20, 6, 0] := by
  have hentries : threeKinds.kinds.entries = [("call", 7), ("comment", 2), ("string", 0)] := rfl
  have hcounts : ∀ e ∈ threeKinds.kinds.entries, e.2 ≤ (2 ^ 64 - 1) / 20 := by
    rw [hentries]
    simp
  obtain ⟨hfails, -, hbars, -⟩ := report_fails_iff_and_draws_bars threeKinds hcounts
  have hreport : ∃ text, threeKinds.report = .ok text := by
    have hno : ¬ ∃ fault, threeKinds.report = .error fault := by
      rw [hfails, shown_threeKinds, hentries]
      decide
    rwa [exists_eq_error_iff, not_not] at hno
  obtain ⟨text, htext⟩ := hreport
  have hshare : ∀ c, c * barWidth < wordCount → roundedShare c 7 = barLength c 7 :=
    fun c hc => (barLength_eq_roundedShare (by decide) hc).symm
  refine ⟨hcounts, text, htext, (hbars text htext).1, ?_⟩
  have hhighest : threeKinds.highest = 7 := rfl
  rw [shown_threeKinds, hhighest]
  simp only [List.map_cons, List.map_nil]
  rw [hshare 7 (by decide), hshare 2 (by decide), hshare 0 (by decide)]
  decide

/-- Too long a kind leaves a summary without a report, though a kind was counted. -/
theorem report_wide_fails :
    (∀ e ∈ wide.kinds.entries, e.2 ≤ (2 ^ 64 - 1) / 20) ∧
      ¬ ((∃ fault, wide.report = .error fault) ↔
        wide.kinds.entries ≠ [] ∧ ∀ e ∈ wide.kinds.entries, e.2 = 0) := by
  have hentries : wide.kinds.entries = [("module", 1)] := rfl
  have hfails : ∃ fault, wide.report = .error fault := by
    rw [exists_eq_error_iff, exists_report_iff, columnWidth_table]
    exact fun h => absurd h.1 (Nat.not_le_of_gt maxColumnWidth_lt_tableWidth_wide)
  rw [hentries]
  refine ⟨by simp, fun h => ?_⟩
  have hzero := (h.mp hfails).2 ("module", 1) (by simp)
  cases hzero

end SyntaxInspector.Summary
