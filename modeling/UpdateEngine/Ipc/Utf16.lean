import UpdateEngine.Ipc.Parcel

/-!
# UTF-16

A conversion of the strings of a parcel: a character outside the basic plane is a pair of surrogates.
-/

namespace UpdateEngine.Ipc.Utf16

/-- The units of a character. -/
def encodeChar (c : Char) : String16 :=
  if c.toNat < 0x10000 then [UInt16.ofNat c.toNat]
  else [UInt16.ofNat (0xD800 + (c.toNat - 0x10000) / 0x400), UInt16.ofNat (0xDC00 + (c.toNat - 0x10000) % 0x400)]

/-- The characters of a row of units. -/
def decodeChars : String16 → List Char
  | [] => []
  | [u] => [Char.ofNat u.toNat]
  | u :: v :: l =>
    if 0xD800 ≤ u.toNat ∧ u.toNat < 0xDC00 then
      Char.ofNat (0x10000 + (u.toNat - 0xD800) * 0x400 + (v.toNat - 0xDC00)) :: decodeChars l
    else Char.ofNat u.toNat :: decodeChars (v :: l)

/-- A unit that is no high surrogate is a character of its own. -/
theorem decodeChars_cons {u : UInt16} (h : ¬ (0xD800 ≤ u.toNat ∧ u.toNat < 0xDC00)) (l : String16) :
    decodeChars (u :: l) = Char.ofNat u.toNat :: decodeChars l := by
  cases l with
  | nil => rfl
  | cons v l => rw [decodeChars, if_neg h]

/-- A character is decoded as it was encoded. -/
theorem decodeChars_encodeChar (c : Char) (l : String16) : decodeChars (encodeChar c ++ l) = c :: decodeChars l := by
  have hsize : UInt16.size = 65536 := rfl
  have hvalid : c.toNat < 0xD800 ∨ 0xDFFF < c.toNat ∧ c.toNat < 0x110000 := c.valid
  unfold encodeChar
  split
  · have hunit : (UInt16.ofNat c.toNat).toNat = c.toNat := UInt16.toNat_ofNat_of_lt (by omega)
    rw [List.singleton_append, decodeChars_cons (by omega), hunit, Char.ofNat_toNat]
  · have hhigh : (UInt16.ofNat (0xD800 + (c.toNat - 0x10000) / 0x400)).toNat = 0xD800 + (c.toNat - 0x10000) / 0x400 :=
      UInt16.toNat_ofNat_of_lt (by omega)
    have hlow : (UInt16.ofNat (0xDC00 + (c.toNat - 0x10000) % 0x400)).toNat = 0xDC00 + (c.toNat - 0x10000) % 0x400 :=
      UInt16.toNat_ofNat_of_lt (by omega)
    have hsum : 0x10000 + (0xD800 + (c.toNat - 0x10000) / 0x400 - 0xD800) * 0x400 +
        (0xDC00 + (c.toNat - 0x10000) % 0x400 - 0xDC00) = c.toNat := by omega
    rw [List.cons_append, List.singleton_append, decodeChars, hhigh, hlow, if_pos (by omega), hsum, Char.ofNat_toNat]

end Utf16

/-- The conversion to and from UTF-16. -/
def utf16 : Conversion where
  str8ToStr16 s := s.toList.flatMap Utf16.encodeChar
  str16ToStr8 l := String.ofList (Utf16.decodeChars l)

/-- A string is read as it was written. -/
theorem utf16_inverts : utf16.Inverts := by
  intro s
  have hlist : ∀ l : List Char, Utf16.decodeChars (l.flatMap Utf16.encodeChar) = l := by
    intro l
    induction l with
    | nil => rfl
    | cons c l ih => rw [List.flatMap_cons, Utf16.decodeChars_encodeChar, ih]
  have hback : Utf16.decodeChars (s.toList.flatMap Utf16.encodeChar) = s.toList := hlist s.toList
  simp [utf16, hback]

end UpdateEngine.Ipc
