import SyntaxInspector.Json.Reader

/-! # Reading values of a known shape

A `Decoder` asks a draft for a value of some shape.  It goes through the draft from left to right
and reports the first fault it meets, so a value of the wrong shape is reported even if the text
breaks off later.

Records are asked for field by field.  A record may be written as an object, where members nobody
asks for are skimmed and a field may be given once only, or as an array of its fields in order.

* `decodeText`, `decodeOptional`, `decodeList` ask for scalars and lists;
* `RecordField` says how a field is asked for and what its absence means;
* `decodeRecord₁` and `decodeRecord₂` ask for records of one and two fields;
* `Document.decode` asks a whole text. -/

namespace SyntaxInspector.Json

/-- A way to ask a draft for a value. -/
abbrev Decoder (α : Type) := Draft → Except Fault α

/-- A quoted text. -/
def decodeText : Decoder String
  | .text (some s) => .ok s
  | d => .error d.mistyped

/-- A value that may be `null`. -/
def decodeOptional {α : Type} (decode : Decoder α) : Decoder (Option α)
  | .null => .ok none
  | d => (decode d).map some

/-- An array of any number of values. -/
def decodeList {α : Type} (decode : Decoder α) : Decoder (List α)
  | .array items ending => do
    let values ← items.mapM decode
    ending.close
    return values
  | d => .error d.mistyped

/-- A field of a record: its name, how its value is asked for, what it is if an object lacks it,
and what it is if an array ends before it.  Where that is `none`, the absence is a fault. -/
structure RecordField (α : Type) where
  name : String
  decode : Decoder α
  absent : Option α
  short : Option α

namespace RecordField

/-- A field that has to be there. -/
def required {α : Type} (name : String) (decode : Decoder α) : RecordField α :=
  ⟨name, decode, none, none⟩

/-- A field that may be `null`, or left out of an object. -/
def optional {α : Type} (name : String) (decode : Decoder α) : RecordField (Option α) :=
  ⟨name, decodeOptional decode, some none, none⟩

/-- A field that is an empty list if it is left out. -/
def listed {α : Type} (name : String) (decode : Decoder α) : RecordField (List α) :=
  ⟨name, decodeList decode, some [], some []⟩

/-- The value of the field for a member of its name, which may come once only. -/
def fill {α : Type} (f : RecordField α) (earlier : Option α) (d : Draft) :
    Except Fault (Option α) :=
  if earlier.isSome then .error .mistyped else (f.decode d).map some

/-- The value of the field once all members have been read. -/
def settle {α : Type} (f : RecordField α) (found : Option α) : Except Fault α :=
  match found.or f.absent with
  | some a => .ok a
  | none => .error .mistyped

/-- The value of the field as the next item of an array, and the items after it. -/
def next {α : Type} (f : RecordField α) (ending : Ending) :
    List Draft → Except Fault (α × List Draft)
  | d :: ds => (f.decode d).map (·, ds)
  | [] => do
    ending.close
    match f.short with
    | some a => return (a, [])
    | none => throw .mistyped

end RecordField

/-- Behind the last field an array has to be closed. -/
def closeRecord (ending : Ending) : List Draft → Except Fault Unit
  | [] => ending.closeFixed
  | _ :: _ => .error .malformed

/-- A member nobody asks for has to be JSON. -/
def skimMember (d : Draft) : Except Fault Unit :=
  match d.skim with
  | none => .ok ()
  | some fault => .error fault

/-- The field of a record of one field, looked for among members. -/
def findField₁ {α : Type} (f : RecordField α) :
    Option α → List (Option String × Draft) → Except Fault (Option α)
  | a, [] => .ok a
  | _, (none, _) :: _ => .error .malformed
  | a, (some key, d) :: ms => do
    if key = f.name then findField₁ f (← f.fill a d) ms
    else do
      skimMember d
      findField₁ f a ms

/-- A record of one field. -/
def decodeRecord₁ {α : Type} (f : RecordField α) : Decoder α
  | .object members ending => do
    let a ← findField₁ f none members
    ending.close
    f.settle a
  | .array items ending => do
    let (a, rest) ← f.next ending items
    closeRecord ending rest
    return a
  | d => .error d.mistyped

/-- The fields of a record of two fields, looked for among members. -/
def findField₂ {α β : Type} (f : RecordField α) (g : RecordField β) :
    Option α → Option β → List (Option String × Draft) → Except Fault (Option α × Option β)
  | a, b, [] => .ok (a, b)
  | _, _, (none, _) :: _ => .error .malformed
  | a, b, (some key, d) :: ms => do
    if key = f.name then findField₂ f g (← f.fill a d) b ms
    else if key = g.name then findField₂ f g a (← g.fill b d) ms
    else do
      skimMember d
      findField₂ f g a b ms

/-- A record of two fields. -/
def decodeRecord₂ {α β : Type} (f : RecordField α) (g : RecordField β) : Decoder (α × β)
  | .object members ending => do
    let (a, b) ← findField₂ f g none none members
    ending.close
    return (← f.settle a, ← g.settle b)
  | .array items ending => do
    let (a, rest) ← f.next ending items
    let (b, rest) ← g.next ending rest
    closeRecord ending rest
    return (a, b)
  | d => .error d.mistyped

/-- Asks a whole text for a value; behind the value only spacing may follow. -/
def Document.decode {α : Type} (decode : Decoder α) (d : Document) : Except Fault α := do
  let a ← decode d.value
  if d.trailing then throw .malformed else return a

end SyntaxInspector.Json
