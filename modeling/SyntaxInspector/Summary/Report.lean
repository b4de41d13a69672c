import SyntaxInspector.Summary.Basic
import SyntaxInspector.Text.ByteRange
import SyntaxInspector.Text.Column

/-! # Reports

A report shows a summary as text: the totals, a table of the named children of the root, and the
most frequent kinds with bars whose length is in proportion to the highest count.

Columns are as wide as their longest text has bytes, and texts are padded counting characters.  The
width of a column is a 16-bit word, and a bar length is computed in 64-bit words.

* `Summary.report` is the report; it does not exist if every kind has the count 0
  (`ReportError.divisionByZero`), since then no bar has a length, or if a column is too wide
  (`ReportError.columnTooWide`). -/

namespace SyntaxInspector

/-- Why a summary has no report. -/
inductive ReportError where
  /-- A bar is measured by the highest count, and that is 0. -/
  | divisionByZero
  /-- The width of a column is no 16-bit word. -/
  | columnTooWide
  deriving DecidableEq, Repr

/-- What is wrong. -/
def ReportError.message : ReportError → String
  | .divisionByZero => "attempt to divide by zero"
  | .columnTooWide => "Formatting argument out of range"

/-- A position as it is shown. -/
def Position.describe (p : Position) : String := toString p.line ++ ":" ++ toString p.column

namespace Summary

/-- How many kinds the report shows. -/
def distributionLimit : Nat := 10

/-- The length of the longest bar. -/
def barWidth : Nat := 20

/-- The number of 64-bit words. -/
def wordCount : Nat := UInt64.size

/-- The length of the bar of a count: its share of the highest count in parts of the longest bar,
rounded up. -/
def barLength (count highest : Nat) : Nat :=
  (count * barWidth % wordCount + (highest - 1)) / highest

/-- The number of bytes of the longest text. -/
def columnWidth (texts : List String) : Nat :=
  (texts.map fun s => Text.byteLength s.toList).foldl max 0

/-- The width of the widest column there can be. -/
def maxColumnWidth : Nat := UInt16.size - 1

/-- The width of the column that holds these texts, if there can be such a column. -/
def fitColumn (texts : List String) : Except ReportError Nat :=
  if columnWidth texts ≤ maxColumnWidth then .ok (columnWidth texts) else .error .columnTooWide

/-- A row of the table. -/
def tableRow (width : Nat) (kind start stop : String) : String :=
  Text.padRight width kind ++ "  " ++ Text.padRight 14 start ++ "  " ++ stop ++ "\n"

/-- The table of the named children of the root. -/
def table (nodes : List TopLevel) : Except ReportError String :=
  if nodes.isEmpty then .ok "No top-level nodes found.\n"
  else do
    let width ← fitColumn ("Node Type" :: nodes.map TopLevel.kind)
    return tableRow width "Node Type" "Start Position" "End Position" ++
      String.join (nodes.map fun n => tableRow width n.kind n.start.describe n.stop.describe)

/-- A row of the distribution. -/
def distributionRow (width highest : Nat) (e : String × Nat) : String :=
  Text.padRight width e.1 ++ "  " ++
    Text.padLeft (toString highest).length (toString e.2) ++ "  " ++
    String.ofList (List.replicate (barLength e.2 highest) '#') ++ "\n"

/-- The most frequent kinds with their bars, headed by a blank line; nothing if there are none. -/
def chart (entries : List (String × Nat)) : Except ReportError String :=
  match entries with
  | [] => .ok ""
  | (_, 0) :: _ => .error .divisionByZero
  | (_, highest) :: _ => do
    let width ← fitColumn (entries.map Prod.fst)
    return "\nNode Type Distribution\n" ++ String.join (entries.map (distributionRow width highest))

/-- The lines above the table. -/
def totals (s : Summary) : String :=
  "Total Nodes: " ++ toString s.totalNodes ++ "\nTree Depth: " ++ toString s.maxDepth ++
    "\nTop-level Nodes: " ++ toString s.topLevel.length ++ "\n\nTop-Level AST Nodes\n"

/-- The report. -/
def report (s : Summary) : Except ReportError String := do
  let table ← table s.topLevel
  let chart ← chart (s.distribution distributionLimit)
  return s.totals ++ table ++ chart

end Summary
end SyntaxInspector
