import Mathlib.Data.List.Lex
import Mathlib.Data.Prod.Lex

/-!
# Comparisons

A comparison as a program writes it, one field after the other, each both ways. It is that of a linear order of keys (`Compares`) when
each of its fields is, and the order of the whole is that of the keys in turn.
-/

namespace Comparison

variable {α κ κ' : Type}

/-- Compare both ways, and go on with another comparison where neither value is less. -/
def thenBy (less less' : α → α → Bool) (a b : α) : Bool :=
  if less a b then true else if less b a then false else less' a b

/-- The end of the fields: no value is less. -/
def never (_ _ : α) : Bool := false

/-- A value is less than another one when its key is. -/
def Compares [LinearOrder κ] (less : α → α → Bool) (key : α → κ) : Prop := ∀ a b, less a b = true ↔ key a < key b

variable [LinearOrder κ] [LinearOrder κ'] {less less' : α → α → Bool} {key : α → κ} {key' : α → κ'} {a b c : α}

theorem Compares.eq_false (h : Compares less key) (a b : α) : less a b = false ↔ key b ≤ key a := by
  rw [← Bool.not_eq_true, h, not_lt]

theorem Compares.irrefl (h : Compares less key) (a : α) : less a a = false := (h.eq_false a a).mpr (le_refl _)

theorem Compares.trans (h : Compares less key) (hab : less a b = true) (hbc : less b c = true) : less a c = true := by
  rw [h] at hab hbc ⊢
  exact lt_trans hab hbc

/-- Values of which neither is less have the same key. -/
theorem Compares.key_eq (h : Compares less key) (hab : less a b = false) (hba : less b a = false) : key a = key b :=
  le_antisymm ((h.eq_false b a).mp hba) ((h.eq_false a b).mp hab)

/-- Two fields in turn are compared as the pairs of their keys. -/
theorem Compares.thenBy (h : Compares less key) (h' : Compares less' key') :
    Compares (thenBy less less') fun a => toLex (key a, key' a) := by
  intro a b
  simp only [Comparison.thenBy, Prod.Lex.toLex_lt_toLex]
  rcases lt_trichotomy (key a) (key b) with hlt | heq | hgt
  · simp [(h a b).mpr hlt, hlt]
  · simp [(h.eq_false a b).mpr heq.ge, (h.eq_false b a).mpr heq.le, heq, h' a b]
  · simp [(h.eq_false a b).mpr hgt.le, (h b a).mpr hgt, not_lt_of_gt hgt, hgt.ne']

/-- The last field is compared as it is. -/
theorem Compares.thenBy_never (h : Compares less key) : Compares (Comparison.thenBy less never) key := by
  intro a b
  rw [← h a b, Comparison.thenBy, never]
  cases less a b <;> simp

/-- A part of a value is compared as that of the value. -/
theorem Compares.comp {β : Type} (h : Compares less key) (part : β → α) :
    Compares (fun a b => less (part a) (part b)) fun a => key (part a) :=
  fun a b => h (part a) (part b)

/-- Rows of values: value by value, and a row before its continuations. -/
def row (less : α → α → Bool) : List α → List α → Bool
  | _, [] => false
  | [], _ :: _ => true
  | a :: l, b :: l' => if less a b then true else if less b a then false else row less l l'

/-- Rows are compared as the rows of the keys. -/
theorem Compares.row (h : Compares less key) : Compares (row less) (List.map key) := by
  intro l l'
  induction l generalizing l' with
  | nil =>
    cases l' with
    | nil => simp [Comparison.row]
    | cons b l' => simp [Comparison.row]
  | cons a l ih =>
    cases l' with
    | nil => simp [Comparison.row]
    | cons b l' =>
      rw [Comparison.row, List.map_cons, List.map_cons, List.cons_lt_cons_iff]
      rcases lt_trichotomy (key a) (key b) with hlt | heq | hgt
      · simp [(h a b).mpr hlt, hlt]
      · simp [(h.eq_false a b).mpr heq.ge, (h.eq_false b a).mpr heq.le, heq, ih]
      · simp [(h.eq_false a b).mpr hgt.le, (h b a).mpr hgt, not_lt_of_gt hgt, hgt.ne']

end Comparison
