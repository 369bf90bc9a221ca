import UpdateEngine.Comparison
import UpdateEngine.SortedMap

/-!
# Maps in the order of a comparison

A map whose operations see its keys through a comparison only: keys of which neither is less are taken for the same. Where the
comparison is that of an order, these are the operations of a map sorted by it (`SortedMap`), each touches the entry of its own key only
(`Touches`), and so any row of operations leaves each key mapped to what those on that key have left (`find_foldl`).
-/

namespace ComparedMap

open Comparison SortedMap

variable {κ ν : Type}

/-- Look a key up: the first entry that is not less, unless the key is less than that. -/
def find (less : κ → κ → Bool) (k : κ) : List (κ × ν) → Option ν
  | [] => none
  | e :: m => if less e.1 k then find less k m else if less k e.1 then none else some e.2

/-- Add an entry in front of the first one that is not less, unless that has the same key. -/
def insert (less : κ → κ → Bool) (k : κ) (v : ν) : List (κ × ν) → List (κ × ν)
  | [] => [(k, v)]
  | e :: m => if less e.1 k then e :: insert less k v m else if less k e.1 then (k, v) :: e :: m else e :: m

/-- Map a key to a value; an entry with the same key keeps its own. -/
def assign (less : κ → κ → Bool) (k : κ) (v : ν) : List (κ × ν) → List (κ × ν)
  | [] => [(k, v)]
  | e :: m => if less e.1 k then e :: assign less k v m else if less k e.1 then (k, v) :: e :: m else (e.1, v) :: m

/-- Take out the entries with the same key. -/
def erase (less : κ → κ → Bool) (k : κ) (m : List (κ × ν)) : List (κ × ν) := m.filter fun e => less e.1 k || less k e.1

/-! ## The operations of a sorted map -/

section Sorted

variable [LinearOrder κ] {less : κ → κ → Bool} {k : κ} {v : ν} {m : List (κ × ν)}

theorem find_eq (h : Compares less id) (hm : Sorted m) : find less k m = SortedMap.find m k := by
  induction hm with
  | nil => rfl
  | @cons e m hlt hm ih =>
    rw [find, find_cons, ih]
    rcases lt_trichotomy e.1 k with hl | heq | hg
    · rw [if_pos ((h _ _).mpr hl), if_neg (ne_of_lt hl)]
    · simp [heq, h.irrefl k]
    · have hnone : SortedMap.find m k = none := by
        rw [← Option.not_isSome_iff_eq_none, find_isSome_iff]
        rintro ⟨e', he', rfl⟩
        exact lt_asymm hg (hlt e' he')
      simp [(h.eq_false e.1 k).mpr hg.le, (h k e.1).mpr hg, hg.ne', hnone]

theorem insert_eq (h : Compares less id) (k : κ) (v : ν) (m : List (κ × ν)) : insert less k v m = emplace k v m := by
  induction m with
  | nil => rfl
  | cons e m ih =>
    rw [insert, emplace, ih]
    rcases lt_trichotomy e.1 k with hl | heq | hg
    · simp [(h e.1 k).mpr hl, hl.ne', not_lt_of_gt hl]
    · simp [← heq, h.irrefl e.1]
    · simp [(h.eq_false e.1 k).mpr hg.le, (h k e.1).mpr hg, hg.ne, hg]

theorem assign_eq (h : Compares less id) (k : κ) (v : ν) (m : List (κ × ν)) : assign less k v m = SortedMap.assign k v m := by
  induction m with
  | nil => rfl
  | cons e m ih =>
    rw [assign, SortedMap.assign, ih]
    rcases lt_trichotomy e.1 k with hl | heq | hg
    · simp [(h e.1 k).mpr hl, hl.ne', not_lt_of_gt hl]
    · simp [heq, h.irrefl k]
    · simp [(h.eq_false e.1 k).mpr hg.le, (h k e.1).mpr hg, hg.ne, hg]

theorem erase_eq (h : Compares less id) (k : κ) (m : List (κ × ν)) : erase less k m = SortedMap.erase k m := by
  refine List.filter_congr fun e _ => ?_
  rw [Bool.eq_iff_iff, Bool.or_eq_true, h, h, decide_eq_true_eq]
  exact ne_iff_lt_or_gt.symm

end Sorted

/-! ## What an operation touches -/

section Touches

variable [LinearOrder κ] {less : κ → κ → Bool} {m m' : List (κ × ν)} {k : κ} {v : Option ν}

/-- The map is sorted, what it has for one key is `v`, and for the other keys what it had before. -/
def Touches (less : κ → κ → Bool) (m m' : List (κ × ν)) (k : κ) (v : Option ν) : Prop :=
  Sorted m' ∧ ∀ k', find less k' m' = if k = k' then v else find less k' m

theorem insert_touches (h : Compares less id) (hm : Sorted m) (k : κ) (v : ν) :
    Touches less m (insert less k v m) k ((find less k m).or (some v)) := by
  rw [insert_eq h]
  refine ⟨sorted_emplace hm, fun k' => ?_⟩
  rw [find_eq h (sorted_emplace hm), find_emplace hm, find_eq h hm, find_eq h hm]
  by_cases hk : k = k' <;> simp [hk]

theorem assign_touches (h : Compares less id) (hm : Sorted m) (k : κ) (v : ν) :
    Touches less m (assign less k v m) k (some v) := by
  rw [assign_eq h]
  refine ⟨sorted_assign hm, fun k' => ?_⟩
  rw [find_eq h (sorted_assign hm), find_assign, find_eq h hm]

theorem erase_touches (h : Compares less id) (hm : Sorted m) (k : κ) : Touches less m (erase less k m) k none := by
  rw [erase_eq h]
  refine ⟨sorted_erase hm, fun k' => ?_⟩
  rw [find_eq h (sorted_erase hm), find_erase, find_eq h hm]

/-- A map that is left alone. -/
theorem touches_self (hm : Sorted m) (hv : find less k m = v) : Touches less m m k v := by
  refine ⟨hm, fun k' => ?_⟩
  split_ifs with hk
  · rw [← hk, hv]
  · rfl

/-- The entries are what is found. -/
theorem mem_iff_find (h : Compares less id) (hm : Sorted m) (k : κ) (v : ν) : (k, v) ∈ m ↔ find less k m = some v := by
  rw [find_eq h hm, find_eq_some_iff hm]

/-- After any row of operations, each of which touches its own key, the map is sorted, and a key is mapped to what the operations on that
key have left, one after the other. -/
theorem find_foldl {σ : Type} [DecidableEq κ] {run : List (κ × ν) → σ → List (κ × ν)} {key : σ → κ} {value : Option ν → σ → Option ν}
    (hrun : ∀ m o, Sorted m → Touches less m (run m o) (key o) (value (find less (key o) m) o)) (hm : Sorted m) (l : List σ) :
    Sorted (l.foldl run m) ∧ ∀ k, find less k (l.foldl run m) =
      (l.filter fun o => key o = k).foldl value (find less k m) := by
  induction l generalizing m with
  | nil => exact ⟨hm, fun k => rfl⟩
  | cons o l ih =>
    obtain ⟨hsorted, hfind⟩ := hrun m o hm
    obtain ⟨hall, hrest⟩ := ih hsorted
    refine ⟨hall, fun k => ?_⟩
    rw [List.foldl_cons, hrest, hfind]
    by_cases hk : key o = k
    · subst hk
      simp
    · simp [hk]

end Touches

end ComparedMap
