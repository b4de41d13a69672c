import SyntaxInspector.Proofs.JsonLayout
import SyntaxInspector.Proofs.JsonShapes
import SyntaxInspector.Proofs.Tallies
import SyntaxInspector.Run

/-! # Reading a summary back

A summary that is written as JSON can be read back by the names of its members, so nothing of it is
lost.

* `Json.value?` is the value of a text that is JSON; `Draft.member?` and its companions take a value
  apart.
* `Summary.ofJson?` reads a summary from a value, `Summary.read?` from a text.
* `Summary.ofJson?_draft` says that what is written of a summary is read as this summary, and
  `Summary.read?_pretty_and_pretty_eq_iff` puts it together with the text. -/

namespace SyntaxInspector

namespace Json

/-! ### Taking values apart -/

/-- The value of a text that is JSON. -/
def value? (text : String) : Option Draft :=
  let document := read text
  if document.trailing || document.value.skim.isSome then none else some document.value

theorem value?_eq_some_iff {text : String} {d : Draft} : value? text = some d ↔ IsJson text d := by
  rw [isJson_iff, value?]
  obtain ⟨value, trailing⟩ := read text
  cases trailing with
  | true => simp
  | false =>
      cases hskim : value.skim with
      | none =>
          simp only [Option.isSome_none, Bool.or_false, Bool.false_eq_true, if_false,
            Option.some.injEq, Document.mk.injEq, and_true]
          exact ⟨fun h => ⟨h, h ▸ hskim⟩, fun h => h.1⟩
      | some fault =>
          simp only [Option.isSome_some, Bool.or_true, if_true, reduceCtorEq, Document.mk.injEq,
            and_true, false_iff, not_and]
          rintro rfl hnone
          rw [hskim] at hnone
          cases hnone

namespace Draft

/-- The value of the only member with a key. -/
def member? (key : String) : Draft → Option Draft
  | .object members _ =>
    match valuesOf key members with
    | [d] => some d
    | _ => none
  | _ => none

/-- A number without sign, fraction and exponent. -/
def number? : Draft → Option Nat
  | .number n => n.toNat?
  | _ => none

/-- The characters of a quoted text. -/
def text? : Draft → Option String
  | .text s => s
  | _ => none

/-- The items of an array. -/
def items? : Draft → Option (List Draft)
  | .array items _ => some items
  | _ => none

/-- The members of an object. -/
def members? : Draft → Option (List (Option String × Draft))
  | .object members _ => some members
  | _ => none

end Draft
end Json

open Json

theorem mapM_map_eq_some {α β γ : Type} {f : α → β} {g : β → Option γ} {h : α → γ}
    (hg : ∀ a, g (f a) = some (h a)) (as : List α) : (as.map f).mapM g = some (as.map h) := by
  induction as with
  | nil => rfl
  | cons a as ih =>
      rw [List.map_cons, List.mapM_cons, hg, ih]
      rfl

/-! ### Reading summaries -/

/-- A position, by its line and column. -/
def Position.ofJson? (d : Draft) : Option Position := do
  let line ← (← d.member? "line").number?
  let column ← (← d.member? "column").number?
  return { line, column }

/-- A child of the root, by its kind and the two positions. -/
def TopLevel.ofJson? (d : Draft) : Option TopLevel := do
  let kind ← (← d.member? "kind").text?
  let start ← Position.ofJson? (← d.member? "start")
  let stop ← Position.ofJson? (← d.member? "end")
  return { kind, start, stop }

/-- A count of a kind: the kind is the key of a member. -/
def Tally.entryOfJson? (m : Option String × Draft) : Option (String × Nat) := do
  let kind ← m.1
  let count ← m.2.number?
  return (kind, count)

/-- A tally, by its members. -/
def Tally.ofJson? (d : Draft) : Option Tally := do
  let entries ← (← d.members?).mapM entryOfJson?
  return ofList entries

/-- A summary, by its four members. -/
def Summary.ofJson? (d : Draft) : Option Summary := do
  let totalNodes ← (← d.member? "total_nodes").number?
  let maxDepth ← (← d.member? "max_depth").number?
  let kinds ← Tally.ofJson? (← d.member? "node_types")
  let topLevel ← (← (← d.member? "top_level_nodes").items?).mapM TopLevel.ofJson?
  return { totalNodes, maxDepth, kinds, topLevel }

/-- The summary in a text that is JSON. -/
def Summary.read? (text : String) : Option Summary := (Json.value? text).bind ofJson?

/-! ### Reading what is written -/

namespace Summary

theorem number?_draft (n : Nat) : (Json.number n).draft.number? = some n :=
  toNat?_numeralOf n

theorem ofJson?_positionJson (p : Position) :
    Position.ofJson? (positionJson p).draft = some p := by
  have hline : (positionJson p).draft.member? "line" = some (Json.number p.line).draft := by
    simp [positionJson, draft, draftMembers, Draft.member?, valuesOf]
  have hcolumn : (positionJson p).draft.member? "column" = some (Json.number p.column).draft := by
    simp [positionJson, draft, draftMembers, Draft.member?, valuesOf]
  simp [Position.ofJson?, hline, hcolumn, number?_draft]

theorem ofJson?_topLevelJson (n : TopLevel) :
    TopLevel.ofJson? (topLevelJson n).draft = some n := by
  have hkind : (topLevelJson n).draft.member? "kind" = some (Json.text n.kind).draft := by
    simp [topLevelJson, draft, draftMembers, Draft.member?, valuesOf]
  have hstart : (topLevelJson n).draft.member? "start" = some (positionJson n.start).draft := by
    simp [topLevelJson, draft, draftMembers, Draft.member?, valuesOf]
  have hstop : (topLevelJson n).draft.member? "end" = some (positionJson n.stop).draft := by
    simp [topLevelJson, draft, draftMembers, Draft.member?, valuesOf]
  have htext : (Json.text n.kind).draft.text? = some n.kind := rfl
  simp [TopLevel.ofJson?, hkind, hstart, hstop, htext, ofJson?_positionJson]

/-- The kinds as a value. -/
def kindsJson (t : Tally) : Json := .record (t.entries.map fun e => (e.1, .number e.2))

theorem ofJson?_kindsJson (t : Tally) : Tally.ofJson? (kindsJson t).draft = some t := by
  have hmembers : (kindsJson t).draft.members? =
      some (t.entries.map fun e => (some e.1, (Json.number e.2).draft)) := by
    simp [kindsJson, draft, draftMembers_eq_map, Draft.members?]
  have hentry : ∀ e : String × Nat,
      Tally.entryOfJson? (some e.1, (Json.number e.2).draft) = some e := fun e => by
    simp [Tally.entryOfJson?, number?_draft]
  simp [Tally.ofJson?, hmembers, mapM_map_eq_some hentry, Tally.ofList_entries]

/-- What is written of a summary is read as the summary. -/
theorem ofJson?_draft (s : Summary) : ofJson? s.toJson.draft = some s := by
  have htotal : s.toJson.draft.member? "total_nodes" = some (Json.number s.totalNodes).draft := by
    simp [toJson, draft, draftMembers, Draft.member?, valuesOf]
  have hdepth : s.toJson.draft.member? "max_depth" = some (Json.number s.maxDepth).draft := by
    simp [toJson, draft, draftMembers, Draft.member?, valuesOf]
  have hkinds : s.toJson.draft.member? "node_types" = some (kindsJson s.kinds).draft := by
    simp [toJson, kindsJson, draft, draftMembers, Draft.member?, valuesOf]
  have hnodes : s.toJson.draft.member? "top_level_nodes" =
      some (Json.list (s.topLevel.map topLevelJson)).draft := by
    simp [toJson, draft, draftMembers, Draft.member?, valuesOf]
  have hitems : (Json.list (s.topLevel.map topLevelJson)).draft.items? =
      some (s.topLevel.map fun n => (topLevelJson n).draft) := by
    simp [draft, draftItems_eq_map, Draft.items?, Function.comp_def]
  simp [ofJson?, htotal, hdepth, hkinds, hnodes, hitems, number?_draft, ofJson?_kindsJson,
    mapM_map_eq_some ofJson?_topLevelJson]

theorem read?_pretty (s : Summary) : read? s.toJson.pretty = some s := by
  rw [read?, value?_eq_some_iff.mpr (isJson_pretty s.toJson), Option.bind_some, ofJson?_draft]

/-- The text of a summary is JSON, and reading it by its members gives the summary back, whatever
the kinds and numbers are.  So two summaries have the same text only if they are the same.  This is
the text that the summary of a source is shown as. -/
theorem read?_pretty_and_pretty_eq_iff :
    (∀ s : Summary, (∃ d, IsJson s.toJson.pretty d) ∧
      (∀ d, IsJson s.toJson.pretty d → ofJson? d = some s) ∧ read? s.toJson.pretty = some s) ∧
    (∀ s s' : Summary, s.toJson.pretty = s'.toJson.pretty ↔ s = s') ∧
    ∀ p : ParsedSource, ∃ text, summaryText p .json = .ok text ∧
      text = p.root.summary.toJson.pretty ∧ read? text = some p.root.summary := by
  refine ⟨fun s => ⟨⟨_, isJson_pretty s.toJson⟩, fun d hd => ?member, read?_pretty s⟩,
    fun s s' => ⟨fun h => ?same, fun h => by rw [h]⟩,
    fun p => ⟨_, rfl, rfl, read?_pretty p.root.summary⟩⟩
  case member => rw [hd.unique (isJson_pretty s.toJson), ofJson?_draft]
  case same =>
    have hs := read?_pretty s
    rw [h, read?_pretty] at hs
    exact (Option.some.inj hs).symm

/-- A kind may be anything. -/
example :
    (toJson ⟨1, 0, .ofList [("\"\n", 1)], []⟩).pretty =
      "\x7b\n  \"total_nodes\": 1,\n  \"max_depth\": 0,\n  \"node_types\": \x7b\n" ++
        "    \"\\\"\\n\": 1\n  \x7d,\n  \"top_level_nodes\": []\n\x7d" := by
  decide +kernel

end Summary
end SyntaxInspector
