import Mathlib.Data.List.Forall2
import SyntaxInspector.Proofs.Outcomes
import SyntaxInspector.Proofs.Ranking
import SyntaxInspector.Summary.Report

/-! # The layout of reports

The rows of a table are aligned: what stands in a column begins at the same character in every row,
though the width of the first column is counted in bytes.

* `ShowsFrom` says which texts a row shows and at which characters they begin; `shows_tableRow` and
  `shows_distributionRow` say so of the rows of a report.
* `exists_table_iff`, `exists_chart_iff` and `exists_report_iff` say when the parts of a report
  exist.
* `HasAlignedTable` and `HasAlignedChart` say that the columns of a part are aligned, and
  `report_columns_aligned` when they are.  A kind may be too long for a column, and then there is no
  table (`not_hasAlignedTable_wide`). -/

namespace SyntaxInspector

namespace Text

theorem spaces_append (m n : Nat) : spaces m ++ spaces n = spaces (m + n) := by
  rw [spaces, spaces, spaces, ← String.ofList_append, List.replicate_append_replicate]

/-- A column with a gap of two spaces behind it. -/
theorem padRight_gap (width : Nat) (s t : String) :
    padRight width s ++ ("  " ++ t) = s ++ (spaces (max width s.length + 2 - s.length) ++ t) := by
  have hgap : "  " = spaces 2 := rfl
  have hroom : max width s.length + 2 - s.length = width - s.length + 2 := by omega
  rw [padRight, hgap, hroom, ← spaces_append, String.append_assoc, String.append_assoc]

/-- Every character has a byte. -/
theorem length_le_byteLength : ∀ cs : List Char, cs.length ≤ byteLength cs
  | [] => Nat.zero_le _
  | c :: cs => by
      have hc := c.utf8Size_pos
      have hcs := length_le_byteLength cs
      simp only [List.length_cons, byteLength]
      omega

theorem byteLength_replicate (n : Nat) (c : Char) :
    byteLength (List.replicate n c) = n * c.utf8Size := by
  induction n with
  | zero => rw [List.replicate_zero, byteLength, Nat.zero_mul]
  | succ n ih => rw [List.replicate_succ, byteLength, ih, Nat.succ_mul, Nat.add_comm]

end Text

/-- A greater number has no fewer digits. -/
theorem length_toString_le {m n : Nat} (h : m ≤ n) :
    (toString m).length ≤ (toString n).length := by
  have hdigits : ∀ n m : Nat, m ≤ n →
      (Nat.toDigits 10 m).length ≤ (Nat.toDigits 10 n).length := by
    intro n
    induction n using Nat.strongRecOn with
    | ind n ih =>
        intro m hmn
        have hbase : 1 < 10 := by decide
        rw [@Nat.toDigits_eq_if 10 m hbase, @Nat.toDigits_eq_if 10 n hbase]
        split <;> split
        · exact le_refl _
        · rw [List.length_append]
          exact Nat.le_add_left _ _
        · omega
        · have hfront := ih (n / 10) (by omega) (m / 10) (by omega)
          rw [List.length_append, List.length_append]
          exact Nat.add_le_add_right hfront _
  have hlength : ∀ n : Nat, (toString n).length = (Nat.toDigits 10 n).length := by
    intro n
    rw [← String.length_toList]
    exact congrArg List.length Nat.toList_repr
  rw [hlength, hlength]
  exact hdigits n m h

/-! ### Rows -/

/-- From a character on a row shows these texts, each from a character of its own on, with nothing
but spaces in front of it; behind the last one is the line break. -/
def ShowsFrom : Nat → List (Nat × String) → String → Prop
  | _, [], row => row = "\n"
  | position, (start, text) :: cells, row =>
    position ≤ start ∧ ∃ rest, row = Text.spaces (start - position) ++ text ++ rest ∧
      ShowsFrom (start + text.length) cells rest

/-- The row shows these texts, each from its character on. -/
abbrev Shows (cells : List (Nat × String)) (row : String) : Prop := ShowsFrom 0 cells row

namespace Summary

variable {nodes : List TopLevel} {s : Summary} {texts : List String} {width : Nat}

theorem shows_tableRow {kind : String} (start stop : String) (h : kind.length ≤ width) :
    Shows [(0, kind), (width + 2, start), (width + 4 + max 14 start.length, stop)]
      (tableRow width kind start stop) := by
  have hkind : max width kind.length + 2 - kind.length = width + 2 - (0 + kind.length) := by omega
  have hstart : max 14 start.length + 2 - start.length =
      width + 4 + max 14 start.length - (width + 2 + start.length) := by omega
  refine ⟨Nat.zero_le _, _, ?_, by omega, _, rfl, by omega, _, rfl, rfl⟩
  have hspaces : Text.spaces (0 - 0) = "" := rfl
  simp only [tableRow, String.append_assoc, Text.padRight_gap]
  rw [hkind, hstart, hspaces, String.empty_append]

theorem shows_distributionRow {highest : Nat} {e : String × Nat} (h : e.1.length ≤ width)
    (hcount : e.2 ≤ highest) :
    Shows [(0, e.1),
        (width + 2 + ((toString highest).length - (toString e.2).length), toString e.2),
        (width + 2 + (toString highest).length + 2,
          String.ofList (List.replicate (barLength e.2 highest) '#'))]
      (distributionRow width highest e) := by
  have hdigits := length_toString_le hcount
  have hspaces : Text.spaces (0 - 0) = "" := rfl
  have hkind : width + 2 + ((toString highest).length - (toString e.2).length) -
      (0 + e.1.length) = max width e.1.length + 2 - e.1.length +
        ((toString highest).length - (toString e.2).length) := by omega
  have hgap : width + 2 + (toString highest).length + 2 -
      (width + 2 + ((toString highest).length - (toString e.2).length) +
        (toString e.2).length) = 2 := by omega
  refine ⟨Nat.zero_le _, _, ?_, by omega, _, rfl, by omega, _, rfl, rfl⟩
  simp only [distributionRow, Text.padLeft, String.append_assoc, Text.padRight_gap]
  rw [hkind, hgap, hspaces, String.empty_append, ← Text.spaces_append, String.append_assoc]
  rfl

/-- Two where the highest count is seven. -/
example : distributionRow 7 7 ("comment", 2) = "comment  2  ######\n" := by decide

/-! ### Columns -/

theorem columnWidth_cons (t : String) (texts : List String) :
    columnWidth (t :: texts) = max (Text.byteLength t.toList) (columnWidth texts) := by
  rw [columnWidth, columnWidth, List.map_cons, List.foldl_cons, Nat.max_comm, List.foldl_assoc]

theorem columnWidth_le_iff {n : Nat} :
    columnWidth texts ≤ n ↔ ∀ t ∈ texts, Text.byteLength t.toList ≤ n := by
  induction texts with
  | nil => simp [columnWidth]
  | cons t texts ih => rw [columnWidth_cons, Nat.max_le, ih, List.forall_mem_cons]

/-- A text has no more characters than the column of its bytes. -/
theorem length_le_columnWidth {t : String} (h : t ∈ texts) : t.length ≤ columnWidth texts := by
  have hbytes := columnWidth_le_iff.mp (le_refl (columnWidth texts)) t h
  have hchars := Text.length_le_byteLength t.toList
  rw [String.length_toList] at hchars
  omega

theorem fitColumn_eq_ok_iff : fitColumn texts = .ok width ↔
    columnWidth texts ≤ maxColumnWidth ∧ width = columnWidth texts := by
  unfold fitColumn
  split <;> simp_all [eq_comm]

/-! ### Parts of a report -/

theorem table_of_ne_nil (h : nodes ≠ []) : table nodes =
    (fitColumn ("Node Type" :: nodes.map TopLevel.kind)).map fun width =>
      tableRow width "Node Type" "Start Position" "End Position" ++
        String.join (nodes.map fun n => tableRow width n.kind n.start.describe n.stop.describe) := by
  have hempty : nodes.isEmpty = false := by simpa using h
  unfold table
  rw [hempty]
  rfl

theorem columnWidth_header : columnWidth ["Node Type"] = 9 := by decide

/-- There is a table unless the column of the kinds is too wide. -/
theorem exists_table_iff : (∃ text, table nodes = .ok text) ↔
    columnWidth ("Node Type" :: nodes.map TopLevel.kind) ≤ maxColumnWidth := by
  by_cases h : nodes = []
  · subst h
    have hfits : columnWidth ["Node Type"] ≤ maxColumnWidth := by
      rw [columnWidth_header]
      decide
    exact ⟨fun _ => hfits, fun _ => ⟨_, rfl⟩⟩
  · simp [table_of_ne_nil h, map_eq_ok_iff, fitColumn_eq_ok_iff]

/-- The kinds that a report shows, with their counts. -/
def shown (s : Summary) : List (String × Nat) := s.distribution distributionLimit

theorem shown_eq_nil_iff : s.shown = [] ↔ s.kinds.entries = [] := by
  have hlimit : distributionLimit ≠ 0 := by decide
  rw [shown, distribution_eq_take, List.take_eq_nil_iff, ← List.length_eq_zero_iff,
    s.ranking_perm.length_eq, List.length_eq_zero_iff]
  simp [hlimit]

/-- What is shown begins with the highest count. -/
theorem head_shown {e : String × Nat} {rest : List (String × Nat)} (h : s.shown = e :: rest) :
    e.2 = s.highest := by
  cases hranking : s.ranking with
  | nil => simp [shown, distribution_eq_take, hranking] at h
  | cons e' rest' =>
      have hhead : e' = e := by
        simp only [shown, distribution_eq_take, hranking, distributionLimit,
          List.take_succ_cons, List.cons.injEq] at h
        exact h.1
      rw [← hhead]
      exact snd_eq_highest_of_ranking hranking

/-- Where kinds are shown the chart measures its bars by the highest count. -/
theorem chart_shown (h : s.kinds.entries ≠ []) : chart s.shown =
    if s.highest = 0 then .error .divisionByZero
    else (fitColumn (s.shown.map Prod.fst)).map fun width =>
      "\nNode Type Distribution\n" ++
        String.join (s.shown.map (distributionRow width s.highest)) := by
  cases hshown : s.shown with
  | nil => exact absurd (shown_eq_nil_iff.mp hshown) h
  | cons e rest =>
      obtain ⟨kind, count⟩ := e
      have hcount : count = s.highest := head_shown hshown
      rw [← hcount]
      cases count with
      | zero => rfl
      | succ n => rfl

/-- There is a chart unless no bar has a length or the column of the kinds is too wide. -/
theorem exists_chart_iff : (∃ text, chart s.shown = .ok text) ↔
    (s.kinds.entries = [] ∨ s.highest ≠ 0) ∧
      columnWidth (s.shown.map Prod.fst) ≤ maxColumnWidth := by
  by_cases h : s.kinds.entries = []
  · have hshown := shown_eq_nil_iff.mpr h
    rw [hshown]
    exact ⟨fun _ => ⟨.inl h, Nat.zero_le _⟩, fun _ => ⟨_, rfl⟩⟩
  · rw [chart_shown h]
    by_cases hzero : s.highest = 0
    · simp [h, hzero]
    · simp [h, hzero, map_eq_ok_iff, fitColumn_eq_ok_iff]

theorem report_eq_ok_iff {text : String} : s.report = .ok text ↔
    ∃ table' chart', table s.topLevel = .ok table' ∧ chart s.shown = .ok chart' ∧
      text = s.totals ++ table' ++ chart' := by
  constructor
  · intro h
    obtain ⟨table', htable, h⟩ := bind_eq_ok_iff.mp h
    obtain ⟨chart', hchart, h⟩ := bind_eq_ok_iff.mp h
    exact ⟨table', chart', htable, hchart, (Except.ok.inj h).symm⟩
  · rintro ⟨table', chart', htable, hchart, rfl⟩
    exact bind_eq_ok_iff.mpr ⟨table', htable, bind_eq_ok_iff.mpr ⟨chart', hchart, rfl⟩⟩

theorem exists_report_iff : (∃ text, s.report = .ok text) ↔
    columnWidth ("Node Type" :: s.topLevel.map TopLevel.kind) ≤ maxColumnWidth ∧
      (s.kinds.entries = [] ∨ s.highest ≠ 0) ∧
        columnWidth (s.shown.map Prod.fst) ≤ maxColumnWidth := by
  rw [← exists_table_iff, ← exists_chart_iff]
  simp only [report_eq_ok_iff]
  constructor
  · rintro ⟨_, table', chart', htable, hchart, -⟩
    exact ⟨⟨table', htable⟩, ⟨chart', hchart⟩⟩
  · rintro ⟨⟨table', htable⟩, ⟨chart', hchart⟩⟩
    exact ⟨_, table', chart', htable, hchart, rfl⟩

/-! ### Alignment -/

/-- The width of the column of kinds in the table. -/
def tableWidth (s : Summary) : Nat := max 9 (columnWidth (s.topLevel.map TopLevel.kind))

/-- The width of the column of kinds in the chart. -/
def chartWidth (s : Summary) : Nat := columnWidth (s.shown.map Prod.fst)

/-- There is a table, and in its header and in its rows the start positions begin at one character;
so do the end positions where the start positions are no longer than 14 characters. -/
def HasAlignedTable (s : Summary) : Prop :=
  ∃ header rows, table s.topLevel = .ok (header ++ String.join rows) ∧
    Shows [(0, "Node Type"), (s.tableWidth + 2, "Start Position"),
      (s.tableWidth + 18, "End Position")] header ∧
    List.Forall₂ (fun n row => ∃ stop,
      Shows [(0, n.kind), (s.tableWidth + 2, n.start.describe), (stop, n.stop.describe)] row ∧
        (n.start.describe.length ≤ 14 → stop = s.tableWidth + 18)) s.topLevel rows

/-- There is a chart, and in its rows the counts end and the bars begin at one character each; no
count has more digits than the highest. -/
def HasAlignedChart (s : Summary) : Prop :=
  ∃ rows, chart s.shown = .ok ("\nNode Type Distribution\n" ++ String.join rows) ∧
    List.Forall₂ (fun e row => (toString e.2).length ≤ (toString s.highest).length ∧
      ∃ start length,
        start + (toString e.2).length = s.chartWidth + 2 + (toString s.highest).length ∧
        Shows [(0, e.1), (start, toString e.2),
          (s.chartWidth + 2 + (toString s.highest).length + 2,
            String.ofList (List.replicate length '#'))] row) s.shown rows

theorem columnWidth_table (s : Summary) :
    columnWidth ("Node Type" :: s.topLevel.map TopLevel.kind) = s.tableWidth := by
  have hheader : Text.byteLength "Node Type".toList = 9 := by decide
  rw [columnWidth_cons, hheader, tableWidth]

theorem hasAlignedTable_of_le (h : s.topLevel ≠ []) (hwidth : s.tableWidth ≤ maxColumnWidth) :
    s.HasAlignedTable := by
  have htable := table_of_ne_nil h
  rw [fitColumn_eq_ok_iff.mpr ⟨by rwa [columnWidth_table], (columnWidth_table s).symm⟩] at htable
  have hheader : "Node Type".length ≤ s.tableWidth := Nat.le_max_left 9 _
  refine ⟨_, _, htable, shows_tableRow "Start Position" "End Position" hheader, ?_⟩
  rw [List.forall₂_map_right_iff, List.forall₂_same]
  intro n hn
  have hkind : n.kind.length ≤ s.tableWidth :=
    Nat.le_trans (length_le_columnWidth (List.mem_map_of_mem hn)) (Nat.le_max_right 9 _)
  refine ⟨_, shows_tableRow n.start.describe n.stop.describe hkind, ?_⟩
  omega

theorem hasAlignedChart_of_le (h : s.highest ≠ 0) (hwidth : s.chartWidth ≤ maxColumnWidth) :
    s.HasAlignedChart := by
  have hentries : s.kinds.entries ≠ [] := by
    intro hnil
    exact h (by rw [highest, hnil, List.map_nil, List.foldr_nil])
  have hchart := chart_shown hentries
  rw [if_neg h, fitColumn_eq_ok_iff.mpr ⟨hwidth, rfl⟩] at hchart
  refine ⟨_, hchart, ?_⟩
  rw [List.forall₂_map_right_iff, List.forall₂_same]
  intro e he
  have hcount : e.2 ≤ s.highest := le_highest (mem_of_mem_distribution he)
  have hdigits := length_toString_le hcount
  have hkind : e.1.length ≤ s.chartWidth := length_le_columnWidth (List.mem_map_of_mem he)
  exact ⟨hdigits, _, _, by omega, shows_distributionRow hkind hcount⟩

/-- **The columns of a report are aligned.**  With children of the root there is a table if and
only if the column of kinds is not too wide, and then its columns are aligned; with a highest count
other than 0 so it is with the chart.  A report consists of the totals, the table and the chart. -/
theorem report_columns_aligned (s : Summary) :
    (s.topLevel ≠ [] → (s.HasAlignedTable ↔ s.tableWidth ≤ maxColumnWidth)) ∧
      (s.highest ≠ 0 → (s.HasAlignedChart ↔ s.chartWidth ≤ maxColumnWidth)) ∧
      ∀ text, s.report = .ok text ↔ ∃ table' chart', table s.topLevel = .ok table' ∧
        chart s.shown = .ok chart' ∧ text = s.totals ++ table' ++ chart' := by
  refine ⟨fun h => ⟨?_, hasAlignedTable_of_le h⟩, fun h => ⟨?_, hasAlignedChart_of_le h⟩,
    fun text => report_eq_ok_iff⟩
  · rintro ⟨_, _, htable, -⟩
    rw [← columnWidth_table]
    exact exists_table_iff.mp ⟨_, htable⟩
  · rintro ⟨_, hchart, -⟩
    exact (exists_chart_iff.mp ⟨_, hchart⟩).2

/-! ### A kind too long for a column -/

/-- A kind of one byte more than a column can have. -/
def longKind : String := String.ofList (List.replicate (maxColumnWidth + 1) 'a')

/-- A summary that names a child of the root of such a kind. -/
def wide : Summary where
  totalNodes := 2
  maxDepth := 1
  kinds := .ofList [("module", 1)]
  topLevel := [⟨longKind, ⟨1, 0⟩, ⟨1, 5⟩⟩]

theorem maxColumnWidth_lt_tableWidth_wide : maxColumnWidth < wide.tableWidth := by
  have hbytes : Text.byteLength longKind.toList = maxColumnWidth + 1 := by
    have hbyte : 'a'.utf8Size = 1 := by decide
    rw [longKind, String.toList_ofList, Text.byteLength_replicate, hbyte, Nat.mul_one]
  have hkind := columnWidth_le_iff.mp (le_refl (columnWidth (wide.topLevel.map TopLevel.kind)))
    longKind (List.mem_singleton_self longKind)
  have hwidth : columnWidth (wide.topLevel.map TopLevel.kind) ≤ wide.tableWidth :=
    Nat.le_max_right 9 _
  omega

/-- The columns of this summary cannot be aligned, for there are none. -/
theorem not_hasAlignedTable_wide :
    wide.topLevel ≠ [] ∧ ¬ wide.HasAlignedTable ∧ ¬ ∃ text, wide.report = .ok text := by
  have hwide := maxColumnWidth_lt_tableWidth_wide
  refine ⟨List.cons_ne_nil _ _, ?_, ?_⟩
  · rintro ⟨_, _, htable, -⟩
    have hfits := exists_table_iff.mp ⟨_, htable⟩
    rw [columnWidth_table] at hfits
    omega
  · intro hreport
    have hfits := (exists_report_iff.mp hreport).1
    rw [columnWidth_table] at hfits
    omega

end Summary
end SyntaxInspector
