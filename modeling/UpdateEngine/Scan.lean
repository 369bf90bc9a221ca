import Mathlib.Data.List.Infix

/-!
# Searching in a list

A search starts at a position and gives the first one from there on that passes a test. What it gives is said once
(`first_eq_some_iff`, `first_eq_none_iff`); the search for an element and the search for an occurrence of another list are two
tests. A search backward gives the last position that passes one (`last_eq_some_iff`). Two ways to read a list are defined without a search: cut at the leftmost occurrences of a pattern that do not overlap
(`Cut`), and as the runs of elements that pass a test (`IsRun`).
-/

namespace Scan

/-- The first position from `pos` on and before `stop` that passes a test. -/
def first (test : Nat → Bool) (pos stop : Nat) : Option Nat := (List.range' pos (stop - pos)).find? test

section First

variable {test : Nat → Bool} {pos stop i : Nat}

theorem first_eq_some_iff :
    first test pos stop = some i ↔ pos ≤ i ∧ i < stop ∧ test i = true ∧ ∀ j, pos ≤ j → j < i → test j = false := by
  simp only [first, List.find?_range'_eq_some, List.mem_range'_1, Bool.not_eq_eq_eq_not, Bool.not_true]
  constructor
  · intro ⟨htest, ⟨hle, hlt⟩, hfirst⟩
    exact ⟨hle, by omega, htest, hfirst⟩
  · intro ⟨hle, hlt, htest, hfirst⟩
    exact ⟨htest, ⟨hle, by omega⟩, hfirst⟩

theorem first_eq_none_iff : first test pos stop = none ↔ ∀ j, pos ≤ j → j < stop → test j = false := by
  simp only [first, List.find?_range'_eq_none, Bool.not_eq_eq_eq_not, Bool.not_true]
  constructor
  · intro h j hle hlt
    exact h j hle (by omega)
  · intro h j hle hlt
    exact h j hle (by omega)

end First

/-- The last position before `stop` that passes a test. -/
def last (test : Nat → Bool) : Nat → Option Nat
  | 0 => none
  | stop + 1 => if test stop then some stop else last test stop

section Last

variable {test : Nat → Bool} {stop i : Nat}

theorem last_eq_some_iff : last test stop = some i ↔ i < stop ∧ test i = true ∧ ∀ j, i < j → j < stop → test j = false := by
  induction stop with
  | zero => simp [last]
  | succ stop ih =>
    unfold last
    split
    · rename_i htest
      constructor
      · intro h
        cases h
        exact ⟨Nat.lt_succ_self _, htest, fun j hj hjs => by omega⟩
      · intro ⟨hi, _, hlast⟩
        rcases Nat.lt_succ_iff_lt_or_eq.mp hi with hlt | rfl
        · rw [hlast stop hlt (Nat.lt_succ_self stop)] at htest
          cases htest
        · rfl
    · rename_i htest
      rw [ih]
      constructor
      · intro ⟨hi, hti, hlast⟩
        refine ⟨Nat.lt_succ_of_lt hi, hti, fun j hj hjs => ?_⟩
        rcases Nat.lt_succ_iff_lt_or_eq.mp hjs with hlt | rfl
        · exact hlast j hj hlt
        · simpa using htest
      · intro ⟨hi, hti, hlast⟩
        have hne : i ≠ stop := by
          rintro rfl
          exact htest hti
        exact ⟨by omega, hti, fun j hj hjs => hlast j hj (Nat.lt_succ_of_lt hjs)⟩

end Last

variable {α : Type}

/-- The first element from a position on that passes a test. -/
def findElem (p : α → Bool) (l : List α) (pos : Nat) : Option Nat := first (fun i => l[i]?.any p) pos l.length

section Elem

variable {p : α → Bool} {l : List α} {pos i : Nat}

theorem findElem_eq_some_iff :
    findElem p l pos = some i ↔ pos ≤ i ∧ i < l.length ∧ l[i]?.any p = true ∧ ∀ j, pos ≤ j → j < i → l[j]?.any p = false :=
  first_eq_some_iff

theorem findElem_eq_none_iff : findElem p l pos = none ↔ ∀ j, pos ≤ j → l[j]?.any p = false := by
  rw [findElem, first_eq_none_iff]
  constructor
  · intro h j hle
    rcases Nat.lt_or_ge j l.length with hlt | hge
    · exact h j hle hlt
    · rw [List.getElem?_eq_none hge]
      rfl
  · intro h j hle _
    exact h j hle

/-- Inside a list an element either passes a test or passes the opposite one. -/
theorem any_not_of_lt (h : i < l.length) : l[i]?.any (fun a => !p a) = !l[i]?.any p := by
  simp [List.getElem?_eq_getElem h]

/-- The last element that passes a test. -/
def findLastElem (p : α → Bool) (l : List α) : Option Nat := last (fun i => l[i]?.any p) l.length

theorem findLastElem_eq_some_iff :
    findLastElem p l = some i ↔ i < l.length ∧ l[i]?.any p = true ∧ ∀ j, i < j → j < l.length → l[j]?.any p = false :=
  last_eq_some_iff

/-- The last element that passes a test, in a list that is cut there. -/
theorem findLastElem_append_cons {a : α} {l' : List α} (ha : p a = true) (hl' : ∀ b ∈ l', p b = false) :
    findLastElem p (l ++ a :: l') = some l.length := by
  rw [findLastElem_eq_some_iff]
  refine ⟨by simp, by simp [ha], fun j hj hjl => ?_⟩
  obtain ⟨d, rfl⟩ := Nat.exists_eq_add_of_lt hj
  have hd : d < l'.length := by
    simp only [List.length_append, List.length_cons] at hjl
    omega
  have hget : (l ++ a :: l')[l.length + d + 1]? = some l'[d] := by
    rw [Nat.add_assoc, List.getElem?_append_right (Nat.le_add_right _ _), Nat.add_sub_cancel_left, List.getElem?_cons_succ,
      List.getElem?_eq_getElem hd]
  rw [hget]
  exact hl' _ (List.getElem_mem hd)

end Elem

section Pattern

variable [DecidableEq α]

/-- Where a list occurs for the first time from a position on. -/
def findPattern (sub l : List α) (pos : Nat) : Option Nat := first (fun i => sub.isPrefixOf (l.drop i)) pos (l.length + 1)

theorem findPattern_eq_some_iff {sub l : List α} {pos i : Nat} :
    findPattern sub l pos = some i ↔
      pos ≤ i ∧ i ≤ l.length ∧ sub <+: l.drop i ∧ ∀ j, pos ≤ j → j < i → ¬ sub <+: l.drop j := by
  simp [findPattern, first_eq_some_iff, Nat.lt_succ_iff, ← Bool.not_eq_true]

theorem findPattern_eq_none_iff {sub l : List α} {pos : Nat} :
    findPattern sub l pos = none ↔ ∀ j, pos ≤ j → j ≤ l.length → ¬ sub <+: l.drop j := by
  simp [findPattern, first_eq_none_iff, Nat.lt_succ_iff, ← Bool.not_eq_true]

/-- What stands before the position of a search plays no part in it. -/
theorem findPattern_append (sub pre l : List α) :
    findPattern sub (pre ++ l) pre.length = (findPattern sub l 0).map (pre.length + ·) := by
  cases hf : findPattern sub l 0 with
  | none =>
    simp only [findPattern_eq_none_iff, Option.map_none] at hf ⊢
    intro j hle hlt
    rw [List.length_append] at hlt
    rw [List.drop_append, List.drop_of_length_le hle, List.nil_append]
    exact hf (j - pre.length) (Nat.zero_le _) (by omega)
  | some i =>
    simp only [findPattern_eq_some_iff, Option.map_some] at hf ⊢
    obtain ⟨-, hlt, hsub, hfirst⟩ := hf
    refine ⟨Nat.le_add_right _ _, by simpa using hlt, by rwa [← List.drop_drop, List.drop_left], ?_⟩
    intro j hle hj
    rw [List.drop_append, List.drop_of_length_le hle, List.nil_append]
    exact hfirst (j - pre.length) (Nat.zero_le _) (by omega)

end Pattern

/-! ## Cutting at the leftmost occurrences -/

/-- A list in pieces: the gaps that are each followed by a pattern, and what follows the last pattern. -/
structure Cut (α : Type) where
  gaps : List (List α)
  rest : List α

/-- The pieces with a pattern between them. -/
def Cut.join (sub : List α) (c : Cut α) : List α := c.gaps.foldr (fun gap l => gap ++ sub ++ l) c.rest

/-- The cut is the one at the leftmost occurrences that do not overlap: in a gap and the pattern after it the pattern starts nowhere
before the end of the gap, and in the last piece it does not occur. -/
def Cut.Leftmost (sub : List α) (c : Cut α) : Prop :=
  (∀ gap ∈ c.gaps, ∀ i < gap.length, ¬ sub <+: (gap ++ sub).drop i) ∧ ¬ sub <:+: c.rest

namespace Cut

@[simp] theorem join_nil (sub rest : List α) : join sub ⟨[], rest⟩ = rest := rfl

@[simp] theorem join_cons (sub gap : List α) (gaps : List (List α)) (rest : List α) :
    join sub ⟨gap :: gaps, rest⟩ = gap ++ sub ++ join sub ⟨gaps, rest⟩ := rfl

theorem leftmost_cons {sub gap rest : List α} {gaps : List (List α)} :
    Leftmost sub ⟨gap :: gaps, rest⟩ ↔ (∀ i < gap.length, ¬ sub <+: (gap ++ sub).drop i) ∧ Leftmost sub ⟨gaps, rest⟩ := by
  simp [Leftmost, and_assoc]

/-- Where the pattern starts before the end of a gap, it is over before the end of the pattern that follows the gap. -/
theorem prefix_drop_append_iff {sub gap l : List α} {i : Nat} (hi : i < gap.length) :
    sub <+: (gap ++ sub ++ l).drop i ↔ sub <+: (gap ++ sub).drop i := by
  have hlen : sub.length ≤ ((gap ++ sub).drop i).length := by simp; omega
  rw [List.drop_append_of_le_length (by simp; omega)]
  exact ⟨fun h => List.prefix_of_prefix_length_le h (List.prefix_append _ _) hlen,
    fun h => h.trans (List.prefix_append _ _)⟩

variable [DecidableEq α]

/-- A search finds the end of the first gap. -/
theorem findPattern_join_cons {sub gap rest : List α} {gaps : List (List α)} (h : Leftmost sub ⟨gap :: gaps, rest⟩) :
    findPattern sub (join sub ⟨gap :: gaps, rest⟩) 0 = some gap.length := by
  rw [findPattern_eq_some_iff, join_cons]
  refine ⟨Nat.zero_le _, by simp, by simp, ?_⟩
  intro j _ hj
  rw [prefix_drop_append_iff hj]
  exact (leftmost_cons.mp h).1 j hj

theorem findPattern_rest {sub rest : List α} (h : ¬ sub <:+: rest) : findPattern sub rest 0 = none := by
  rw [findPattern_eq_none_iff]
  intro j _ _ hsub
  exact h (hsub.isInfix.trans (List.drop_suffix j rest).isInfix)

/-- Every list has a cut at the leftmost occurrences. -/
theorem exists_leftmost {sub : List α} (hsub : sub ≠ []) (l : List α) : ∃ c : Cut α, c.join sub = l ∧ c.Leftmost sub := by
  generalize hn : l.length = n
  induction n using Nat.strongRecOn generalizing l with
  | ind n ih =>
    cases hf : findPattern sub l 0 with
    | none =>
      refine ⟨⟨[], l⟩, rfl, by simp, ?_⟩
      rintro ⟨s, t, rfl⟩
      exact findPattern_eq_none_iff.mp hf s.length (Nat.zero_le _) (by simp) (by simp)
    | some i =>
      obtain ⟨-, hi, ⟨t, ht⟩, hfirst⟩ := findPattern_eq_some_iff.mp hf
      have hl : l = l.take i ++ sub ++ t := by rw [List.append_assoc, ht, List.take_append_drop]
      have hpos : 0 < sub.length := List.length_pos_iff.mpr hsub
      have hlen : (l.take i).length = i := by rw [List.length_take, Nat.min_eq_left hi]
      have hshort : t.length < n := by
        have := congrArg List.length hl
        simp only [List.length_append] at this
        omega
      obtain ⟨c, rfl, hc⟩ := ih t.length hshort t rfl
      refine ⟨⟨l.take i :: c.gaps, c.rest⟩, hl.symm, leftmost_cons.mpr ⟨?_, hc⟩⟩
      intro j hj hp
      refine hfirst j (Nat.zero_le _) (by omega) ?_
      rw [hl]
      exact (prefix_drop_append_iff hj).mpr hp

/-- A list has one cut at the leftmost occurrences. -/
theorem Leftmost.unique {sub : List α} {c c' : Cut α} (h : c.Leftmost sub) (h' : c'.Leftmost sub)
    (heq : c.join sub = c'.join sub) : c = c' := by
  obtain ⟨gaps, rest⟩ := c
  obtain ⟨gaps', rest'⟩ := c'
  induction gaps generalizing gaps' with
  | nil =>
    cases gaps' with
    | nil => simpa using heq
    | cons gap' gaps' =>
      have hnone := findPattern_rest h.2
      rw [join_nil] at heq
      rw [heq, findPattern_join_cons h'] at hnone
      cases hnone
  | cons gap gaps ih =>
    cases gaps' with
    | nil =>
      have hnone := findPattern_rest h'.2
      rw [join_nil] at heq
      rw [← heq, findPattern_join_cons h] at hnone
      cases hnone
    | cons gap' gaps' =>
      have hlen : gap.length = gap'.length := by
        have hfound := findPattern_join_cons h
        rw [heq, findPattern_join_cons h'] at hfound
        exact (Option.some.inj hfound).symm
      rw [join_cons, join_cons, List.append_assoc, List.append_assoc] at heq
      obtain ⟨rfl, hrest⟩ := List.append_inj heq hlen
      have := ih (leftmost_cons.mp h).2 gaps' (leftmost_cons.mp h').2 (List.append_cancel_left hrest)
      simp_all

end Cut

/-! ## Runs -/

/-- The positions from `i` up to `j` are a run of the elements that pass a test: not empty, all of them pass, and it ends on both
sides at an element that does not pass or at an end of the list. -/
structure IsRun (p : α → Bool) (l : List α) (i j : Nat) : Prop where
  lt : i < j
  le : j ≤ l.length
  inside : ∀ m, i ≤ m → m < j → l[m]?.any p = true
  before : ∀ m, m + 1 = i → l[m]?.any p = false
  after : l[j]?.any p = false

section Runs

variable {p : α → Bool} {l : List α} {i j i' j' : Nat}

/-- Two runs are the same or one is over before the other begins. -/
theorem IsRun.lt_or_eq (h : IsRun p l i j) (h' : IsRun p l i' j') (hle : i ≤ i') : j < i' ∨ i = i' ∧ j = j' := by
  rcases Nat.lt_or_ge j i' with hlt | hge
  · exact Or.inl hlt
  · have hi : i = i' := by
      by_contra hne
      have hin := h.inside (i' - 1) (by have := h.lt; have := h'.lt; omega) (by omega)
      rw [h'.before (i' - 1) (by omega)] at hin
      cases hin
    subst hi
    refine Or.inr ⟨rfl, ?_⟩
    by_contra hne
    rcases Nat.lt_or_ge j j' with hlt | hge'
    · have hin := h'.inside j (Nat.le_of_lt h.lt) hlt
      rw [h.after] at hin
      cases hin
    · have hin := h.inside j' (Nat.le_of_lt h'.lt) (by omega)
      rw [h'.after] at hin
      cases hin

/-- The first element that is no delimiter begins a run, and the run ends at the first delimiter after it, or at the end of the
list. -/
theorem isRun_of_find {delim : α → Bool} {pos start : Nat} (hstart : findElem (fun a => !delim a) l pos = some start)
    (hpos : 0 < pos → l[pos]?.any (fun a => !delim a) = false) :
    IsRun (fun a => !delim a) l start ((findElem delim l start).getD l.length) := by
  obtain ⟨hle, hlt, htest, hfirst⟩ := findElem_eq_some_iff.mp hstart
  have hbefore : ∀ m, m + 1 = start → l[m]?.any (fun a => !delim a) = false := by
    intro m hm
    rcases Nat.lt_or_ge m pos with hbelow | hfrom
    · obtain rfl : start = pos := by omega
      rw [hpos (by omega)] at htest
      cases htest
    · exact hfirst m hfrom (by omega)
  have hinside : ∀ m, m < l.length → l[m]?.any delim = false → l[m]?.any (fun a => !delim a) = true := by
    intro m hm hd
    rw [any_not_of_lt hm, hd, Bool.not_false]
  cases hf : findElem delim l start with
  | none =>
    refine ⟨hlt, Nat.le_refl _, ?_, hbefore, by simp⟩
    intro m hm hml
    exact hinside m hml (findElem_eq_none_iff.mp hf m hm)
  | some i =>
    obtain ⟨hi, hil, hdelim, hrun⟩ := findElem_eq_some_iff.mp hf
    have hafter : l[i]?.any (fun a => !delim a) = false := by rw [any_not_of_lt hil, hdelim, Bool.not_true]
    have hne : start ≠ i := by
      rintro rfl
      rw [htest] at hafter
      cases hafter
    refine ⟨by simp; omega, Nat.le_of_lt hil, ?_, hbefore, hafter⟩
    intro m hm hmi
    exact hinside m (Nat.lt_trans hmi hil) (hrun m hm hmi)

end Runs

end Scan
