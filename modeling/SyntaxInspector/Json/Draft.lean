import SyntaxInspector.Json.Number

/-! # JSON as far as it can be read

A text that should be JSON may break off or go wrong anywhere, and what is wrong with it depends on
who reads it: a value that nobody asks for is only skimmed, a value that is asked for has to make
sense.  So reading a text never fails.  It yields a `Draft`: the value up to the first place where
the text stops being JSON, and what happened there.

* `Draft` is the value, `Break` and `Ending` say how it breaks off;
* `Fault` is what a reader reports;
* `Draft.skim` is the first fault of a value that is not asked for, `Draft.mistyped` the fault of a
  value that is asked for as something else. -/

namespace SyntaxInspector.Json

/-- What is wrong with a text: it ends too early, it is not JSON, or it is JSON of another shape
than the one asked for. -/
inductive Fault where
  | cutShort
  | malformed
  | mistyped
  deriving DecidableEq, Repr

/-- How a value stops being JSON. -/
inductive Break where
  /-- The text ends. -/
  | textEnds
  /-- A character cannot stand where it stands. -/
  | malformed
  /-- The text ends inside a numeral that needs another digit. -/
  | numeralEnds
  /-- The text ends inside a quoted text; `spoiled` if an unpaired surrogate stands before. -/
  | quoteEnds (spoiled : Bool)
  deriving DecidableEq, Repr

/-- The fault of a break in a value that is not asked for. -/
def Break.skimmed : Break → Fault
  | .textEnds | .quoteEnds _ => .cutShort
  | .malformed | .numeralEnds => .malformed

/-- The fault of a break in a value that is asked for. -/
def Break.kept : Break → Fault
  | .textEnds | .numeralEnds => .cutShort
  | .malformed => .malformed
  | .quoteEnds spoiled => if spoiled then .malformed else .cutShort

/-- How the items of an array or the members of an object end. -/
inductive Ending where
  | closed
  | broken (b : Break)
  /-- The text ends right after a comma. -/
  | comma
  deriving DecidableEq, Repr

/-- A JSON value as far as it can be read.  A quoted text with an unpaired surrogate has no
characters (`none`).  If an item or member is unfinished, it is the last one and the ending after
it does not matter. -/
inductive Draft where
  | null
  | bool (b : Bool)
  | number (n : Numeral)
  | text (s : Option String)
  | array (items : List Draft) (ending : Ending)
  | object (members : List (Option String × Draft)) (ending : Ending)
  | broken (b : Break)
  deriving Repr

/-- A whole text: its value, and whether anything but spacing follows. -/
structure Document where
  value : Draft
  trailing : Bool
  deriving Repr

namespace Ending

/-- The fault of an ending nobody asks about. -/
def skimmed : Ending → Option Fault
  | .closed => none
  | .broken b => some b.skimmed
  | .comma => some .cutShort

/-- An array or object that is read to its end has to be closed. -/
def close : Ending → Except Fault Unit
  | .closed => .ok ()
  | .broken b => .error b.kept
  | .comma => .error .cutShort

/-- An array with a fixed number of items has to be closed behind the last one; a comma there is
malformed whatever follows it. -/
def closeFixed : Ending → Except Fault Unit
  | .closed => .ok ()
  | .broken b => .error b.kept
  | .comma => .error .malformed

end Ending

namespace Draft

mutual

/-- The first fault of a value that is not asked for: it has to be JSON, but its texts and numbers
need not denote anything. -/
def skim : Draft → Option Fault
  | null | bool _ | number _ | text _ => none
  | array items ending => (skimItems items).or ending.skimmed
  | object members ending => (skimMembers members).or ending.skimmed
  | broken b => some b.skimmed

/-- The first fault among items that are not asked for. -/
def skimItems : List Draft → Option Fault
  | [] => none
  | d :: ds => (skim d).or (skimItems ds)

/-- The first fault among members that are not asked for. -/
def skimMembers : List (Option String × Draft) → Option Fault
  | [] => none
  | (_, d) :: ms => (skim d).or (skimMembers ms)

end

/-- The fault of a value that is asked for as something else.  A scalar is read to its end first,
an array or object is refused at its opening bracket. -/
def mistyped : Draft → Fault
  | number n => if n.exceedsDouble then .malformed else .mistyped
  | text none => .malformed
  | broken b => b.kept
  | _ => .mistyped

end Draft
end SyntaxInspector.Json
