import UpdateEngine.Firmware.Description

/-!
# Texts

A number that is printed is read as it was, and so is a text that is saved.
-/

namespace UpdateEngine.TextAux

/-- The bytes that a loop over an array has not listed yet. -/
theorem toList_loop (bytes : ByteArray) (i : Nat) (listed : List UInt8) :
    ByteArray.toList.loop bytes i listed = listed.reverse ++ bytes.data.toList.drop i := by
  fun_induction ByteArray.toList.loop bytes i listed with
  | case1 i listed hlt ih =>
    have hi : i < bytes.data.toList.length := by simpa using hlt
    have hget : bytes.get! i = bytes.data.toList[i] := by simp [ByteArray.get!, getElem!_pos, hlt]
    rw [ih, List.reverse_cons, List.append_assoc, List.singleton_append, hget, List.getElem_cons_drop]
  | case2 i listed hge =>
    rw [List.drop_of_length_le (by simpa using hge), List.append_nil]

/-- A text is read as it was saved. -/
theorem textOf_toUTF8 (text : String) : textOf text.toUTF8.toList = text := by
  have hbytes : (⟨text.toUTF8.toList.toArray⟩ : ByteArray) = text.toUTF8 := by
    rw [ByteArray.toList, toList_loop]
    simp
  unfold textOf
  rw [hbytes]
  simp only [String.fromUTF8?, String.toUTF8_eq_toByteArray, dif_pos text.isValidUTF8, Option.getD_some]
  rfl

/-- The digits of a number, read on from a number that was read before. -/
theorem readDigits_toDigits (l : List Char) (hl : ∀ c ∈ l, c.isDigit = true) (acc : Nat) :
    readDigits l (some acc) = some (Nat.ofDigitChars 10 l acc) := by
  induction l generalizing acc with
  | nil => rfl
  | cons c l ih =>
    rw [readDigits, if_pos (hl c (List.mem_cons_self ..)), Nat.ofDigitChars_cons]
    exact ih (fun c' hc' => hl c' (List.mem_cons_of_mem _ hc')) _

/-- A number is read as it was printed. -/
theorem readDigits_repr (m : Nat) : readDigits (Nat.toDigits 10 m) none = some m := by
  have hdigits : ∀ c ∈ Nat.toDigits 10 m, c.isDigit = true := fun c hc => Nat.isDigit_of_mem_toDigits (by omega) (by omega) hc
  cases hl : Nat.toDigits 10 m with
  | nil => exact absurd hl Nat.toDigits_ne_nil
  | cons c l =>
    rw [hl] at hdigits
    rw [readDigits, if_pos (hdigits c (List.mem_cons_self ..))]
    rw [readDigits_toDigits l fun c' hc' => hdigits c' (List.mem_cons_of_mem _ hc')]
    have hvalue : Nat.ofDigitChars 10 (Nat.toDigits 10 m) 0 = m := Nat.ofDigitChars_toDigits (by omega) (by omega)
    rw [hl, Nat.ofDigitChars_cons] at hvalue
    exact congrArg some hvalue

/-- A digit is no blank and no sign. -/
theorem digit_plain {c : Char} (h : c.isDigit = true) : c.isWhitespace = false ∧ c ≠ '-' ∧ c ≠ '+' ∧ c ≠ '|' := by
  have hother : ∀ d : Char, d.isDigit = false → c ≠ d := by
    rintro d hd rfl
    rw [h] at hd
    exact Bool.noConfusion hd
  refine ⟨?_, hother '-' (by decide), hother '+' (by decide), hother '|' (by decide)⟩
  unfold Char.isWhitespace
  simp only [Bool.or_eq_false_iff, decide_eq_false_iff_not]
  exact ⟨⟨⟨hother ' ' (by decide), hother '\t' (by decide)⟩, hother '\r' (by decide)⟩, hother '\n' (by decide)⟩

theorem digit_of_mem {m : Nat} {c : Char} (h : c ∈ Nat.toDigits 10 m) : c.isDigit = true :=
  Nat.isDigit_of_mem_toDigits (by omega) (by omega) h

/-- What a text that is a number reads as. -/
theorem readInt_repr (m : Nat) : readInt m.repr = some (m : Int) ∧ readInt ("-" ++ m.repr) = some (-(m : Int)) := by
  have hvalue := readDigits_repr m
  have hdigits : ∀ c ∈ Nat.toDigits 10 m, c.isDigit = true := fun c hc => digit_of_mem hc
  constructor
  · unfold readInt
    rw [Nat.toList_repr]
    cases hl : Nat.toDigits 10 m with
    | nil => exact absurd hl Nat.toDigits_ne_nil
    | cons c l =>
      rw [hl] at hdigits hvalue
      obtain ⟨hblank, hminus, hplus, -⟩ := digit_plain (hdigits c (List.mem_cons_self ..))
      rw [List.dropWhile_cons_of_neg (by simp [hblank])]
      split
      · rename_i h
        exact absurd (List.cons.inj h).1 hminus
      · rename_i h
        exact absurd (List.cons.inj h).1 hplus
      · rw [hvalue]
        rfl
  · unfold readInt
    rw [String.toList_append, Nat.toList_repr, show "-".toList = ['-'] from rfl, List.singleton_append,
      List.dropWhile_cons_of_neg (by decide)]
    split
    · rename_i h
      rw [← (List.cons.inj h).2, hvalue]
      rfl
    · rename_i h
      exact absurd (List.cons.inj h).1 (by decide)
    · rename_i h _
      exact absurd rfl (h _)

/-- A number is read as it was printed. -/
theorem atoi_toString (z : Int) : atoi (toString z) = z := by
  unfold atoi
  rw [Int.toString_eq_repr, Int.repr_eq_if]
  split
  · rw [(readInt_repr _).1, Option.getD_some]
    omega
  · rw [(readInt_repr _).2, Option.getD_some]
    omega

/-- No separator is printed with a number. -/
theorem separator_not_mem (z : Int) : '|' ∉ (toString z).toList := by
  rw [Int.toString_eq_repr, Int.repr_eq_if]
  split
  · intro h
    rw [Nat.toList_repr] at h
    exact (digit_plain (digit_of_mem h)).2.2.2 rfl
  · intro h
    rw [String.toList_append, Nat.toList_repr] at h
    rcases List.mem_append.mp h with h | h
    · exact absurd h (by decide)
    · exact (digit_plain (digit_of_mem h)).2.2.2 rfl

end UpdateEngine.TextAux
