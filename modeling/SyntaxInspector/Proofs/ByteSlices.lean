import SyntaxInspector.Text.ByteRange
import SyntaxInspector.Text.Utf8

/-! # Slices in bytes

What `slice?` cuts out of a text, said in the bytes of the text alone.

* `IsBoundary` is a place between two characters, recognised by the byte that stands there;
  the places that `index?` counts are exactly these (`isSome_index?_iff`).
* `IsRange` is a stretch of bytes between two such places.  These and no others have a slice
  (`isSome_slice?_iff`), and the bytes of the slice are those of the stretch
  (`bytesOf_of_slice?`). -/

namespace SyntaxInspector.Text

/-- The UTF-8 bytes of characters. -/
def bytesOf (cs : List Char) : List UInt8 := cs.flatMap String.utf8EncodeChar

theorem encode_eq_bytesOf (s : String) : encode s = bytesOf s.toList := rfl

@[simp] theorem bytesOf_append (xs ys : List Char) :
    bytesOf (xs ++ ys) = bytesOf xs ++ bytesOf ys := List.flatMap_append

theorem bytesOf_cons (c : Char) (cs : List Char) :
    bytesOf (c :: cs) = String.utf8EncodeChar c ++ bytesOf cs := List.flatMap_cons

@[simp] theorem length_bytesOf (cs : List Char) : (bytesOf cs).length = byteLength cs := by
  induction cs with
  | nil => rfl
  | cons c cs ih =>
      rw [bytesOf_cons, List.length_append, String.length_utf8EncodeChar, ih, byteLength]

/-! ### Places between characters -/

/-- The end of the bytes, or a place where a character begins. -/
def IsBoundary (bytes : List UInt8) (offset : Nat) : Prop :=
  offset = bytes.length ∨ ∃ h : offset < bytes.length, bytes[offset].IsUTF8FirstByte

instance (bytes : List UInt8) (offset : Nat) : Decidable (IsBoundary bytes offset) :=
  inferInstanceAs (Decidable (_ ∨ _))

theorem IsBoundary.le_length {bytes : List UInt8} {offset : Nat} (h : IsBoundary bytes offset) :
    offset ≤ bytes.length := by
  rcases h with rfl | ⟨hlt, -⟩
  · exact Nat.le_refl _
  · exact Nat.le_of_lt hlt

/-- Behind characters of the text there is a place between characters. -/
theorem isBoundary_byteLength (front rest : List Char) :
    IsBoundary (bytesOf (front ++ rest)) (byteLength front) := by
  cases rest with
  | nil => exact .inl (by simp)
  | cons c rest =>
      have hpos := c.utf8Size_pos
      have hlt : byteLength front < (bytesOf (front ++ c :: rest)).length := by
        simp only [length_bytesOf, byteLength_append, byteLength]
        omega
      have hchar : 0 < (String.utf8EncodeChar c).length := by
        rwa [String.length_utf8EncodeChar]
      have hbyte : (bytesOf (front ++ c :: rest))[byteLength front] =
          (String.utf8EncodeChar c)[0] := by
        simp [bytesOf_cons, hpos]
      refine .inr ⟨hlt, ?_⟩
      rw [hbyte, UInt8.isUTF8FirstByte_getElem_utf8EncodeChar]

/-- No place is inside a character. -/
theorem not_isBoundary_of_lt {c : Char} {offset : Nat} (cs : List Char) (h : 0 < offset)
    (h' : offset < c.utf8Size) : ¬ IsBoundary (bytesOf (c :: cs)) offset := by
  rintro (heq | ⟨hlt, hfirst⟩)
  · rw [length_bytesOf, byteLength] at heq
    omega
  · have hchar : offset < (String.utf8EncodeChar c).length := by
      rwa [String.length_utf8EncodeChar]
    have hbyte : (bytesOf (c :: cs))[offset] = (String.utf8EncodeChar c)[offset] :=
      List.getElem_append_left hchar
    rw [hbyte, UInt8.isUTF8FirstByte_getElem_utf8EncodeChar] at hfirst
    omega

/-- The places behind the first character are those of the other characters. -/
theorem isBoundary_of_cons {c : Char} {cs : List Char} {offset : Nat} (h : c.utf8Size ≤ offset)
    (hb : IsBoundary (bytesOf (c :: cs)) offset) :
    IsBoundary (bytesOf cs) (offset - c.utf8Size) := by
  rcases hb with heq | ⟨hlt, hfirst⟩
  · left
    rw [length_bytesOf, byteLength] at heq
    rw [length_bytesOf]
    omega
  · have hlt' : offset - c.utf8Size < (bytesOf cs).length := by
      rw [length_bytesOf, byteLength] at hlt
      rw [length_bytesOf]
      omega
    have hbyte : (bytesOf (c :: cs))[offset] = (bytesOf cs)[offset - c.utf8Size] := by
      have hle : (String.utf8EncodeChar c).length ≤ offset := by
        rwa [String.length_utf8EncodeChar]
      simp only [bytesOf_cons, List.getElem_append_right hle, String.length_utf8EncodeChar]
    exact .inr ⟨hlt', hbyte ▸ hfirst⟩

/-- A place between characters has whole characters in front of it. -/
theorem exists_append_of_isBoundary {cs : List Char} {offset : Nat}
    (h : IsBoundary (bytesOf cs) offset) :
    ∃ front rest, cs = front ++ rest ∧ byteLength front = offset := by
  induction cs generalizing offset with
  | nil =>
      have hzero : offset = 0 := Nat.le_zero.mp h.le_length
      exact ⟨[], [], rfl, hzero.symm⟩
  | cons c cs ih =>
      rcases Nat.eq_zero_or_pos offset with rfl | hpos
      · exact ⟨[], c :: cs, rfl, rfl⟩
      · have hle : c.utf8Size ≤ offset :=
          Nat.le_of_not_lt fun hlt => not_isBoundary_of_lt cs hpos hlt h
        obtain ⟨front, rest, rfl, hfront⟩ := ih (isBoundary_of_cons hle h)
        refine ⟨c :: front, rest, rfl, ?_⟩
        rw [byteLength, hfront]
        omega

/-! ### Indices -/

/-- The index of the place behind some characters is their number. -/
theorem index?_byteLength (front rest : List Char) :
    index? (byteLength front) (front ++ rest) = some front.length := by
  induction front with
  | nil => rw [byteLength, index?, List.length_nil]
  | cons c front ih =>
      obtain ⟨n, hn⟩ : ∃ n, byteLength (c :: front) = n + 1 :=
        Nat.exists_eq_succ_of_ne_zero (by
          have hpos := c.utf8Size_pos
          rw [byteLength]
          omega)
      have hle : c.utf8Size ≤ n + 1 := by
        rw [← hn, byteLength]
        exact Nat.le_add_right _ _
      have hsub : n + 1 - c.utf8Size = byteLength front := by
        rw [← hn, byteLength, Nat.add_sub_cancel_left]
      rw [hn, List.cons_append, index?, if_pos hle, hsub, ih, Option.map_some, List.length_cons]

/-- The places with an index are the places between characters. -/
theorem isSome_index?_iff {cs : List Char} {offset : Nat} :
    (index? offset cs).isSome ↔ IsBoundary (bytesOf cs) offset := by
  constructor
  · intro h
    obtain ⟨k, hk⟩ := Option.isSome_iff_exists.mp h
    have hb := isBoundary_byteLength (cs.take k) (cs.drop k)
    rwa [List.take_append_drop, byteLength_take_index hk] at hb
  · intro h
    obtain ⟨front, rest, rfl, rfl⟩ := exists_append_of_isBoundary h
    rw [index?_byteLength, Option.isSome_some]

/-- A place further on does not have a smaller index. -/
theorem index_le_of_le {cs : List Char} {start stop i j : Nat} (hi : index? start cs = some i)
    (hj : index? stop cs = some j) (h : start ≤ stop) : i ≤ j := by
  refine Nat.le_of_not_lt fun hji => ?_
  -- Otherwise there are no bytes between the two places, so they are one place.
  have hsplit : cs.take i = cs.take j ++ (cs.take i).drop j := by
    have hmin : cs.take j = (cs.take i).take j := by
      rw [List.take_take, Nat.min_eq_left (Nat.le_of_lt hji)]
    rw [hmin, List.take_append_drop]
  have hstart := byteLength_take_index hi
  rw [hsplit, byteLength_append, byteLength_take_index hj] at hstart
  have hsame : start = stop := by omega
  rw [hsame, hj] at hi
  exact absurd (Option.some.inj hi) (Nat.ne_of_lt hji)

/-! ### Stretches of bytes -/

/-- A stretch of bytes that runs forwards, within the bytes, from one place between characters to
another. -/
structure IsRange (bytes : List UInt8) (start stop : Nat) : Prop where
  start_le : start ≤ stop
  stop_le : stop ≤ bytes.length
  start_boundary : IsBoundary bytes start
  stop_boundary : IsBoundary bytes stop

theorem isSome_slice?_of_le {start stop : Nat} (cs : List Char) (h : start ≤ stop) :
    (slice? cs start stop).isSome ↔ (index? start cs).isSome ∧ (index? stop cs).isSome := by
  rw [slice?, if_pos h]
  cases index? start cs <;> cases index? stop cs <;> simp

/-- The stretches that have a slice. -/
theorem isSome_slice?_iff {cs : List Char} {start stop : Nat} :
    (slice? cs start stop).isSome ↔ IsRange (bytesOf cs) start stop := by
  by_cases hle : start ≤ stop
  · rw [isSome_slice?_of_le cs hle, isSome_index?_iff, isSome_index?_iff]
    exact ⟨fun h => ⟨hle, h.2.le_length, h.1, h.2⟩, fun h => ⟨h.start_boundary, h.stop_boundary⟩⟩
  · rw [slice?, if_neg hle]
    exact ⟨nofun, fun h => absurd h.start_le hle⟩

-- The last character has two bytes, so only the second stretch ends behind it.
example : slice? ['a', 'é'] 0 2 = none ∧ slice? ['a', 'é'] 0 3 = some ['a', 'é'] := by decide

/-- The slices are the parts of a text: a part has a stretch of bytes of its own. -/
theorem slice?_eq_some_iff {cs xs : List Char} {start stop : Nat} :
    slice? cs start stop = some xs ↔
      ∃ front rest, cs = front ++ xs ++ rest ∧ byteLength front = start ∧
        byteLength (front ++ xs) = stop := by
  constructor
  · intro h
    rw [slice?] at h
    split at h
    · rename_i hle
      obtain ⟨i, hi, h⟩ := Option.bind_eq_some_iff.mp h
      obtain ⟨j, hj, h⟩ := Option.bind_eq_some_iff.mp h
      cases h
      have hstart := byteLength_take_index hi
      have hstop := byteLength_take_index hj
      have htake : cs.take i ++ (cs.take j).drop i = cs.take j := by
        have hmin : cs.take i = (cs.take j).take i := by
          rw [List.take_take, Nat.min_eq_left (index_le_of_le hi hj hle)]
        rw [hmin, List.take_append_drop]
      refine ⟨cs.take i, cs.drop j, ?_, hstart, ?_⟩
      · rw [htake, List.take_append_drop]
      · rw [htake, hstop]
    · cases h
  · rintro ⟨front, rest, rfl, rfl, rfl⟩
    have hstart : index? (byteLength front) (front ++ xs ++ rest) = some front.length := by
      rw [List.append_assoc, index?_byteLength]
    have hle : byteLength front ≤ byteLength (front ++ xs) := by
      rw [byteLength_append]
      exact Nat.le_add_right _ _
    rw [slice?, if_pos hle, hstart, index?_byteLength]
    simp only [Option.bind_eq_bind, Option.bind_some, List.take_left, List.drop_left]
    rfl

/-- The bytes of a slice are those of the stretch. -/
theorem bytesOf_of_slice? {cs xs : List Char} {start stop : Nat}
    (h : slice? cs start stop = some xs) : bytesOf xs = (bytesOf cs).extract start stop := by
  obtain ⟨front, rest, rfl, rfl, rfl⟩ := slice?_eq_some_iff.mp h
  have hlength : byteLength (front ++ xs) - byteLength front = (bytesOf xs).length := by
    rw [byteLength_append, length_bytesOf, Nat.add_sub_cancel_left]
  rw [List.extract_eq_take_drop, hlength, bytesOf_append, bytesOf_append, List.append_assoc,
    List.drop_left' (length_bytesOf front), List.take_left]

/-- The first characters of a slice are the slice of a stretch that ends earlier. -/
theorem slice?_of_append_cons {cs xs ys : List Char} {c : Char} {start stop : Nat}
    (h : slice? cs start stop = some (xs ++ c :: ys)) :
    ∃ cut < stop, slice? cs start cut = some xs := by
  obtain ⟨front, rest, rfl, rfl, rfl⟩ := slice?_eq_some_iff.mp h
  refine ⟨byteLength (front ++ xs), ?_, ?_⟩
  · have hpos := c.utf8Size_pos
    simp only [byteLength_append, byteLength]
    omega
  · refine slice?_eq_some_iff.mpr ⟨front, c :: ys ++ rest, ?_, rfl, rfl⟩
    simp only [List.append_assoc]

end SyntaxInspector.Text
