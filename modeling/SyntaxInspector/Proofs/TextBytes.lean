import Mathlib.Data.List.Basic
import SyntaxInspector.Text.Utf8

/-! # The bytes of a text are read back

What `encode` writes is UTF-8, and what is read from it is the text.

* `firstByte_lead` is the lead byte of each length, and `scan_last` and `scan_more` read one
  continuation byte;
* `scan_encodeChar` reads the bytes of a character whatever follows them;
* `decodeLossy_encode` is the result. -/

namespace SyntaxInspector.Text

/-! ### Bytes -/

theorem toNat_ofNat_of_lt {n : Nat} (h : n < 256) : (UInt8.ofNat n).toNat = n := by
  rw [UInt8.toNat_ofNat']
  exact Nat.mod_eq_of_lt h

/-- The lead byte of two bytes. -/
theorem firstByte_two {b : UInt8} (h : 0xC2 ≤ b.toNat) (h' : b.toNat ≤ 0xDF) :
    firstByte b = .starts ⟨1, 0x80, 0xBF, b.toNat - 0xC0⟩ := by
  unfold firstByte
  have hmany : ¬b.toNat ≤ 0x7F := by omega
  simp [hmany, h, h']

/-- The lead byte of three bytes, with the interval of the byte after it. -/
theorem firstByte_three {b : UInt8} (h : 0xE0 ≤ b.toNat) (h' : b.toNat ≤ 0xEF) :
    ∃ low high, firstByte b = .starts ⟨2, low, high, b.toNat - 0xE0⟩ ∧
      low = (if b.toNat = 0xE0 then 0xA0 else 0x80) ∧
      high = (if b.toNat = 0xED then 0x9F else 0xBF) := by
  unfold firstByte
  have hmany : ¬b.toNat ≤ 0x7F := by omega
  have htwo : ¬b.toNat ≤ 0xDF := by omega
  by_cases hfirst : b.toNat = 0xE0
  · simp [hfirst]
  · by_cases hsurrogates : b.toNat = 0xED
    · simp [hsurrogates]
    · have hlow : 0xE1 ≤ b.toNat := by omega
      simp [hmany, htwo, hfirst, hsurrogates, hlow, h']

/-- The lead byte of four bytes, with the interval of the byte after it. -/
theorem firstByte_four {b : UInt8} (h : 0xF0 ≤ b.toNat) (h' : b.toNat ≤ 0xF4) :
    ∃ low high, firstByte b = .starts ⟨3, low, high, b.toNat - 0xF0⟩ ∧
      low = (if b.toNat = 0xF0 then 0x90 else 0x80) ∧
      high = (if b.toNat = 0xF4 then 0x8F else 0xBF) := by
  unfold firstByte
  by_cases hfirst : b.toNat = 0xF0
  · simp [hfirst]
  · by_cases hlast : b.toNat = 0xF4
    · simp [hlast]
    · have hmany : ¬b.toNat ≤ 0x7F := by omega
      have htwo : ¬b.toNat ≤ 0xDF := by omega
      have hthree : ¬b.toNat ≤ 0xEF := by omega
      have hzero : ¬b.toNat = 0xE0 := by omega
      have hsurrogates : ¬b.toNat = 0xED := by omega
      have hlow : 0xF1 ≤ b.toNat := by omega
      have hhigh : b.toNat ≤ 0xF3 := by omega
      simp [hmany, htwo, hthree, hzero, hsurrogates, hfirst, hlast, hlow, hhigh]

theorem scan_starts {b : UInt8} {s : Started} (h : firstByte b = .starts s) (bs : List UInt8) :
    scan none (b :: bs) = scan (some s) bs := by
  rw [scan, h]

/-- The last byte of a character. -/
theorem scan_last {b : UInt8} {low high bits : Nat} (h : low ≤ b.toNat) (h' : b.toNat ≤ high)
    (bs : List UInt8) : scan (some ⟨1, low, high, bits⟩) (b :: bs) =
      some (Char.ofNat (bits * 64 + b.toNat % 64)) :: scan none bs := by
  simp [scan, h, h']

/-- A byte inside a character. -/
theorem scan_more {b : UInt8} {owed low high bits : Nat} (h : low ≤ b.toNat)
    (h' : b.toNat ≤ high) (bs : List UInt8) :
    scan (some ⟨owed + 2, low, high, bits⟩) (b :: bs) =
      scan (some ⟨owed + 1, 0x80, 0xBF, bits * 64 + b.toNat % 64⟩) bs := by
  simp [scan, h, h']

/-! ### Characters -/

/-- The bytes of a code point below 0x80. -/
theorem scan_one {n : Nat} (h : n ≤ 0x7F) (bs : List UInt8) :
    scan none (UInt8.ofNat n :: bs) = some (Char.ofNat n) :: scan none bs := by
  have hlead : (UInt8.ofNat n).toNat = n := toNat_ofNat_of_lt (by omega)
  rw [scan, firstByte, hlead, if_pos h]

/-- The bytes of a code point below 0x800. -/
theorem scan_two {n : Nat} (h : 0x7F < n) (h' : n ≤ 0x7FF) (bs : List UInt8) :
    scan none (UInt8.ofNat (n / 64 % 32 + 192) :: UInt8.ofNat (n % 64 + 128) :: bs) =
      some (Char.ofNat n) :: scan none bs := by
  have hlead : (UInt8.ofNat (n / 64 % 32 + 192)).toNat = n / 64 + 192 := by
    rw [toNat_ofNat_of_lt (by omega)]
    omega
  have hlast : (UInt8.ofNat (n % 64 + 128)).toNat = n % 64 + 128 := toNat_ofNat_of_lt (by omega)
  have hbits : (n / 64 + 192 - 0xC0) * 64 + (n % 64 + 128) % 64 = n := by omega
  have hfirst := firstByte_two (b := UInt8.ofNat (n / 64 % 32 + 192)) (by omega) (by omega)
  rw [scan_starts hfirst, scan_last (by omega) (by omega), hlead, hlast, hbits]

/-- The bytes of a code point below 0x10000 that is no surrogate. -/
theorem scan_three {n : Nat} (h : 0x7FF < n) (h' : n ≤ 0xFFFF) (hn : n < 0xD800 ∨ 0xDFFF < n)
    (bs : List UInt8) :
    scan none (UInt8.ofNat (n / 4096 % 16 + 224) :: UInt8.ofNat (n / 64 % 64 + 128) ::
      UInt8.ofNat (n % 64 + 128) :: bs) = some (Char.ofNat n) :: scan none bs := by
  have hlead : (UInt8.ofNat (n / 4096 % 16 + 224)).toNat = n / 4096 + 224 := by
    rw [toNat_ofNat_of_lt (by omega)]
    omega
  have hnext : (UInt8.ofNat (n / 64 % 64 + 128)).toNat = n / 64 % 64 + 128 :=
    toNat_ofNat_of_lt (by omega)
  have hlast : (UInt8.ofNat (n % 64 + 128)).toNat = n % 64 + 128 := toNat_ofNat_of_lt (by omega)
  obtain ⟨low, high, hfirst, hlow, hhigh⟩ :=
    firstByte_three (b := UInt8.ofNat (n / 4096 % 16 + 224)) (by omega) (by omega)
  rw [hlead] at hlow hhigh
  -- A code point of at least 0x800 and no surrogate: so the second byte lies in its interval.
  have hge : low ≤ n / 64 % 64 + 128 := by split at hlow <;> omega
  have hle : n / 64 % 64 + 128 ≤ high := by split at hhigh <;> omega
  have hbits : ((n / 4096 + 224 - 0xE0) * 64 + (n / 64 % 64 + 128) % 64) * 64 +
      (n % 64 + 128) % 64 = n := by omega
  rw [scan_starts hfirst, scan_more (by omega) (by omega), scan_last (by omega) (by omega), hlead,
    hnext, hlast, hbits]

/-- The bytes of a code point from 0x10000 on. -/
theorem scan_four {n : Nat} (h : 0xFFFF < n) (h' : n < 0x110000) (bs : List UInt8) :
    scan none (UInt8.ofNat (n / 262144 % 8 + 240) :: UInt8.ofNat (n / 4096 % 64 + 128) ::
      UInt8.ofNat (n / 64 % 64 + 128) :: UInt8.ofNat (n % 64 + 128) :: bs) =
      some (Char.ofNat n) :: scan none bs := by
  have hlead : (UInt8.ofNat (n / 262144 % 8 + 240)).toNat = n / 262144 + 240 := by
    rw [toNat_ofNat_of_lt (by omega)]
    omega
  have hsecond : (UInt8.ofNat (n / 4096 % 64 + 128)).toNat = n / 4096 % 64 + 128 :=
    toNat_ofNat_of_lt (by omega)
  have hthird : (UInt8.ofNat (n / 64 % 64 + 128)).toNat = n / 64 % 64 + 128 :=
    toNat_ofNat_of_lt (by omega)
  have hlast : (UInt8.ofNat (n % 64 + 128)).toNat = n % 64 + 128 := toNat_ofNat_of_lt (by omega)
  obtain ⟨low, high, hfirst, hlow, hhigh⟩ :=
    firstByte_four (b := UInt8.ofNat (n / 262144 % 8 + 240)) (by omega) (by omega)
  rw [hlead] at hlow hhigh
  -- A code point of at least 0x10000 and in the last plane: so the second byte is in its interval.
  have hge : low ≤ n / 4096 % 64 + 128 := by split at hlow <;> omega
  have hle : n / 4096 % 64 + 128 ≤ high := by split at hhigh <;> omega
  have hbits : (((n / 262144 + 240 - 0xF0) * 64 + (n / 4096 % 64 + 128) % 64) * 64 +
      (n / 64 % 64 + 128) % 64) * 64 + (n % 64 + 128) % 64 = n := by omega
  rw [scan_starts hfirst, scan_more (by omega) (by omega), scan_more (by omega) (by omega),
    scan_last (by omega) (by omega), hlead, hsecond, hthird, hlast, hbits]

theorem scan_encodeChar (c : Char) (bs : List UInt8) :
    scan none (String.utf8EncodeChar c ++ bs) = some c :: scan none bs := by
  have hvalid : c.val.toNat < 0xD800 ∨ 0xDFFF < c.val.toNat ∧ c.val.toNat < 0x110000 := c.valid
  have hchar : Char.ofNat c.val.toNat = c := Char.ofNat_toNat c
  rw [String.utf8EncodeChar]
  split
  · rename_i hone
    rw [List.singleton_append, scan_one hone, hchar]
  · split
    · rename_i hone htwo
      exact (scan_two (by omega) htwo bs).trans (by rw [hchar])
    · split
      · rename_i htwo hthree
        exact (scan_three (by omega) hthree (by omega) bs).trans (by rw [hchar])
      · rename_i hthree
        exact (scan_four (by omega) (by omega) bs).trans (by rw [hchar])

/-! ### Texts -/

theorem scan_encode (s : String) : scan none (encode s) = s.toList.map some := by
  unfold encode
  induction s.toList with
  | nil => rfl
  | cons c cs ih => rw [List.flatMap_cons, scan_encodeChar, ih, List.map_cons]

/-- Reading the bytes of a text gives the text. -/
theorem decodeLossy_encode (s : String) : decodeLossy (encode s) = s := by
  have hgetD : s.toList.map ((·.getD (Char.ofNat 0xFFFD)) ∘ some) = s.toList := List.map_id _
  rw [decodeLossy, scan_encode, List.map_map, hgetD, String.ofList_toList]

end SyntaxInspector.Text
