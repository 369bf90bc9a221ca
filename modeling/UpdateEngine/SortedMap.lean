import Mathlib.Order.Lattice

/-!
# Maps as sorted lists

A map is the list of its entries in the order of their keys. `emplace` adds an entry unless its key is there, `assign` puts it in the
place of one with its key, `erase` takes it out, and `find` looks a key up.
-/

namespace SortedMap

variable {κ ν : Type} [LinearOrder κ]

/-- Add an entry, unless its key is there. -/
def emplace (k : κ) (v : ν) : List (κ × ν) → List (κ × ν)
  | [] => [(k, v)]
  | (k', v') :: m => if k = k' then (k', v') :: m else if k < k' then (k, v) :: (k', v') :: m else (k', v') :: emplace k v m

/-- What a key is mapped to. -/
def find (m : List (κ × ν)) (k : κ) : Option ν := (m.find? fun e => e.1 = k).map Prod.snd

/-- The keys are in their order, each once. -/
def Sorted (m : List (κ × ν)) : Prop := m.Pairwise fun e e' => e.1 < e'.1

variable {m : List (κ × ν)} {e : κ × ν} {k k' : κ} {v : ν}

@[simp] theorem find_nil (k : κ) : find ([] : List (κ × ν)) k = none := rfl

theorem find_cons (e : κ × ν) (m : List (κ × ν)) (k : κ) : find (e :: m) k = if e.1 = k then some e.2 else find m k := by
  unfold find
  by_cases h : e.1 = k <;> simp [h]

theorem find_isSome_iff : (find m k).isSome = true ↔ ∃ e ∈ m, e.1 = k := by
  simp [find]

/-- An entry of the map is found under its key. -/
theorem find_eq_some_iff (hm : Sorted m) : find m k = some v ↔ (k, v) ∈ m := by
  induction hm with
  | nil => simp
  | @cons e m hlt _ ih =>
    rw [find_cons, List.mem_cons]
    by_cases h : e.1 = k
    · subst h
      have hnew : (e.1, v) ∉ m := fun hmem => lt_irrefl e.1 (hlt (e.1, v) hmem)
      simp [hnew, Prod.ext_iff, eq_comm]
    · have hne : (k, v) ≠ e := by
        rintro rfl
        exact h rfl
      simp [h, hne, ih]

/-- The entries after one was added are those from before, and at most that one. -/
theorem mem_emplace (h : e ∈ emplace k v m) : e = (k, v) ∨ e ∈ m := by
  induction m with
  | nil => simpa [emplace] using h
  | cons e' m ih =>
    unfold emplace at h
    split_ifs at h with heq hlt
    · exact .inr h
    · simpa using h
    · rcases List.mem_cons.mp h with rfl | h
      · exact .inr List.mem_cons_self
      · exact (ih h).imp_right (List.mem_cons_of_mem _)

/-- A lesser key goes in front. -/
theorem sorted_cons_of_lt (hm : Sorted (e :: m)) (h : k < e.1) : Sorted ((k, v) :: e :: m) := by
  refine List.Pairwise.cons ?_ hm
  intro e' he'
  rcases List.mem_cons.mp he' with rfl | he'
  · exact h
  · exact lt_trans h ((List.pairwise_cons.mp hm).1 e' he')

/-- A greater key goes to the entries behind. -/
theorem sorted_cons_of_gt {m' : List (κ × ν)} (hm : Sorted (e :: m)) (hm' : Sorted m') (hmem : ∀ e' ∈ m', e' = (k, v) ∨ e' ∈ m)
    (h : e.1 < k) : Sorted (e :: m') := by
  refine List.Pairwise.cons ?_ hm'
  intro e' he'
  rcases hmem e' he' with rfl | hin
  · exact h
  · exact (List.pairwise_cons.mp hm).1 e' hin

theorem sorted_emplace (hm : Sorted m) : Sorted (emplace k v m) := by
  induction m with
  | nil => exact List.pairwise_singleton ..
  | cons e m ih =>
    unfold emplace
    split_ifs with heq hkey
    · exact hm
    · exact sorted_cons_of_lt hm hkey
    · exact sorted_cons_of_gt hm (ih hm.of_cons) (fun _ he' => mem_emplace he') (lt_of_le_of_ne (not_lt.mp hkey) (Ne.symm heq))

/-- An entry whose key is new is found, and nothing else is changed, whatever the order. -/
theorem find_emplace_of_none (h : find m k = none) : find (emplace k v m) k' = if k = k' then some v else find m k' := by
  induction m with
  | nil => simp [emplace, find_cons]
  | cons e m ih =>
    rw [find_cons] at h
    split_ifs at h with heq
    unfold emplace
    rw [if_neg fun hk => heq hk.symm]
    split_ifs with hlt hk hk
    · rw [find_cons, if_pos hk]
    · rw [find_cons, if_neg hk]
    · subst hk
      rw [find_cons, if_neg heq, ih h, if_pos rfl]
    · rw [find_cons, find_cons, ih h, if_neg hk]

/-- An entry whose key is greater than all comes last. -/
theorem emplace_of_lt (h : ∀ e ∈ m, e.1 < k) : emplace k v m = m ++ [(k, v)] := by
  induction m with
  | nil => rfl
  | cons e m ih =>
    have hlt : e.1 < k := h e List.mem_cons_self
    unfold emplace
    rw [if_neg (ne_of_gt hlt), if_neg (lt_asymm hlt), ih fun e' he' => h e' (List.mem_cons_of_mem _ he'), List.cons_append]

theorem emplace_of_some (hm : Sorted m) (h : (find m k).isSome = true) : emplace k v m = m := by
  induction hm with
  | nil => cases h
  | @cons e m hlt _ ih =>
    unfold emplace
    split_ifs with heq hkey
    · rfl
    · obtain ⟨e', he', hk⟩ := find_isSome_iff.mp h
      rcases List.mem_cons.mp he' with rfl | he'
      · exact absurd hk.symm heq
      · exact absurd (hk ▸ hlt e' he') (lt_asymm hkey)
    · rw [find_cons, if_neg (Ne.symm heq)] at h
      rw [ih h]

/-- What is found after an entry was added: what was found before, and the entry under a key that was new. -/
theorem find_emplace (hm : Sorted m) : find (emplace k v m) k' = (find m k').or (if k = k' then some v else none) := by
  cases h : find m k with
  | none =>
    rw [find_emplace_of_none h]
    by_cases hk : k = k'
    · subst hk
      simp [h]
    · simp [hk]
  | some v' =>
    rw [emplace_of_some hm (by simp [h])]
    by_cases hk : k = k'
    · subst hk
      simp [h]
    · simp [hk]

/-- The first entry that passes a test is that with the least key that does. -/
theorem find?_eq_some_iff (hm : Sorted m) (test : ν → Bool) :
    m.find? (fun e => test e.2) = some (k, v) ↔
      find m k = some v ∧ test v = true ∧ ∀ k' v', find m k' = some v' → test v' = true → ¬ k' < k := by
  induction hm with
  | nil => simp
  | @cons e m hlt hm ih =>
    have hafter {k' : κ} {v' : ν} (h : find m k' = some v') : e.1 < k' := hlt (k', v') ((find_eq_some_iff hm).mp h)
    cases htest : test e.2 with
    | true =>
      have hfirst : (e :: m).find? (fun e => test e.2) = some e := by simp [htest]
      rw [hfirst, find_cons]
      constructor
      · intro h
        cases h
        refine ⟨if_pos rfl, htest, ?_⟩
        intro k' v' hk' _
        rw [find_cons] at hk'
        split_ifs at hk' with heq
        · exact heq ▸ lt_irrefl k
        · exact lt_asymm (hafter hk')
      · rintro ⟨hk, -, hleast⟩
        split_ifs at hk with heq
        · rw [← heq, ← Option.some.inj hk]
        · exact absurd (hafter hk) (hleast e.1 e.2 (by rw [find_cons, if_pos rfl]) htest)
    | false =>
      -- the first entry does not matter
      have hrest (k' : κ) (v' : ν) (hv' : test v' = true) : find (e :: m) k' = some v' ↔ find m k' = some v' := by
        rw [find_cons]
        split_ifs with heq
        · subst heq
          constructor
          · intro h
            rw [← Option.some.inj h, htest] at hv'
            cases hv'
          · intro h
            exact absurd (hafter h) (lt_irrefl e.1)
        · exact Iff.rfl
      have hfirst : (e :: m).find? (fun e => test e.2) = m.find? fun e => test e.2 := by simp [htest]
      rw [hfirst, ih]
      constructor
      · rintro ⟨hk, hv, hleast⟩
        exact ⟨(hrest k v hv).mpr hk, hv, fun k' v' hk' hv' => hleast k' v' ((hrest k' v' hv').mp hk') hv'⟩
      · rintro ⟨hk, hv, hleast⟩
        exact ⟨(hrest k v hv).mp hk, hv, fun k' v' hk' hv' => hleast k' v' ((hrest k' v' hv').mpr hk') hv'⟩

/-- A row of entries, each added with the key it has. -/
theorem find_foldl_emplace (hm : Sorted m) (key : ν → κ) (l : List ν) :
    Sorted (l.foldl (fun m v => emplace (key v) v m) m) ∧ ∀ k, find (l.foldl (fun m v => emplace (key v) v m) m) k =
      (find m k).or (l.find? fun v => key v = k) := by
  induction l generalizing m with
  | nil => exact ⟨hm, fun k => by simp⟩
  | cons v l ih =>
    obtain ⟨hsorted, hfind⟩ := ih (@sorted_emplace κ ν _ m (key v) v hm)
    refine ⟨hsorted, fun k => ?_⟩
    rw [List.foldl_cons, hfind k, find_emplace hm, Option.or_assoc]
    by_cases hk : key v = k <;> simp [hk]

/-! ## Putting an entry in another one's place, and taking one out -/

/-- Map a key to a value, whatever it was mapped to. -/
def assign (k : κ) (v : ν) : List (κ × ν) → List (κ × ν)
  | [] => [(k, v)]
  | (k', v') :: m => if k = k' then (k, v) :: m else if k < k' then (k, v) :: (k', v') :: m else (k', v') :: assign k v m

/-- Take out the entry of a key. -/
def erase (k : κ) (m : List (κ × ν)) : List (κ × ν) := m.filter fun e => e.1 ≠ k

theorem mem_assign (h : e ∈ assign k v m) : e = (k, v) ∨ e ∈ m := by
  induction m with
  | nil => simpa [assign] using h
  | cons e' m ih =>
    unfold assign at h
    split_ifs at h with heq hlt
    · exact (List.mem_cons.mp h).imp_right (List.mem_cons_of_mem _)
    · simpa using h
    · rcases List.mem_cons.mp h with rfl | h
      · exact .inr List.mem_cons_self
      · exact (ih h).imp_right (List.mem_cons_of_mem _)

theorem sorted_assign (hm : Sorted m) : Sorted (assign k v m) := by
  induction m with
  | nil => exact List.pairwise_singleton ..
  | cons e m ih =>
    unfold assign
    split_ifs with heq hkey
    · subst heq
      exact List.Pairwise.cons (List.pairwise_cons.mp hm).1 hm.of_cons
    · exact sorted_cons_of_lt hm hkey
    · exact sorted_cons_of_gt hm (ih hm.of_cons) (fun _ he' => mem_assign he') (lt_of_le_of_ne (not_lt.mp hkey) (Ne.symm heq))

/-- The key is mapped to the value, and nothing else is changed. -/
theorem find_assign (k : κ) (v : ν) (m : List (κ × ν)) (k' : κ) : find (assign k v m) k' = if k = k' then some v else find m k' := by
  induction m with
  | nil => simp [assign, find_cons]
  | cons e m ih =>
    unfold assign
    by_cases heq : k = e.1
    · subst heq
      rw [if_pos rfl, find_cons, find_cons]
      split_ifs with hk
      · rfl
      · rfl
    · rw [if_neg heq]
      by_cases hlt : k < e.1
      · rw [if_pos hlt, find_cons]
      · rw [if_neg hlt, find_cons, find_cons, ih]
        by_cases hk : k = k'
        · subst hk
          rw [if_neg (Ne.symm heq), if_pos rfl, if_pos rfl]
        · rw [if_neg hk, if_neg hk]

theorem sorted_erase (hm : Sorted m) : Sorted (erase k m) := List.Pairwise.filter _ hm

/-- The key is not there any more, and nothing else is changed. -/
theorem find_erase (k : κ) (m : List (κ × ν)) (k' : κ) : find (erase k m) k' = if k = k' then none else find m k' := by
  induction m with
  | nil => simp [erase]
  | cons e m ih =>
    rw [erase] at ih ⊢
    by_cases he : e.1 = k
    · rw [List.filter_cons_of_neg (by simpa using he), ih, find_cons, he]
      split_ifs with hk
      · rfl
      · rfl
    · rw [List.filter_cons_of_pos (by simpa using he), find_cons, find_cons, ih]
      split_ifs with hk hk'
      · exact absurd (hk.trans hk'.symm) he
      · rfl
      · rfl
      · rfl

/-- Each key is there once. -/
theorem nodup_keys (hm : Sorted m) : (m.map Prod.fst).Nodup := by
  rw [List.Nodup, List.pairwise_map]
  exact hm.imp fun h => ne_of_lt h

end SortedMap
