/-! # Byte ranges of a text

Positions in source code are counted in bytes of its UTF-8 form.  A byte offset names a place
between two characters only if some prefix of the text has exactly that many bytes.

* `index? n cs` is the number of characters in the first `n` bytes of `cs`, if `n` is such a place;
* `slice? cs start stop` is the part of `cs` between two such places. -/

namespace SyntaxInspector.Text

/-- How many bytes the UTF-8 form of the characters has. -/
def byteLength : List Char → Nat
  | [] => 0
  | c :: cs => c.utf8Size + byteLength cs

@[simp] theorem byteLength_append (xs ys : List Char) :
    byteLength (xs ++ ys) = byteLength xs + byteLength ys := by
  induction xs with
  | nil => simp [byteLength]
  | cons c cs ih => simp [byteLength, ih, Nat.add_assoc]

/-- The number of characters in the first `offset` bytes, unless the offset lies inside a
character or behind the end. -/
def index? : (offset : Nat) → List Char → Option Nat
  | 0, _ => some 0
  | _ + 1, [] => none
  | offset + 1, c :: cs =>
    if c.utf8Size ≤ offset + 1 then (index? (offset + 1 - c.utf8Size) cs).map (· + 1) else none

/-- An offset with an index is the byte length of that many characters. -/
theorem byteLength_take_index {offset k : Nat} {cs : List Char}
    (h : index? offset cs = some k) : byteLength (cs.take k) = offset := by
  fun_induction index? offset cs generalizing k with
  | case1 =>
    cases h
    simp [byteLength]
  | case2 => simp at h
  | case3 offset c cs hc ih =>
    obtain ⟨j, hj, rfl⟩ := Option.map_eq_some_iff.1 h
    simp only [List.take_succ_cons, byteLength, ih hj]
    omega
  | case4 => simp at h

/-- The characters from byte `start` up to byte `stop`.  A range that runs backwards, leaves the
text or cuts a character in two has no slice. -/
def slice? (cs : List Char) (start stop : Nat) : Option (List Char) :=
  if start ≤ stop then do
    let i ← index? start cs
    let j ← index? stop cs
    return (cs.take j).drop i
  else none

end SyntaxInspector.Text
