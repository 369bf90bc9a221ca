import Mathlib.Data.List.DropRight
import Mathlib.Data.List.Induction
import Mathlib.Data.List.Infix

/-!
# Lists in segments

A list whose separators divide it into segments, as a path is divided into names. `ends` lists what leads up to the end of each segment,
the shortest first; `trim` takes the separators at the end off, and `parent` the last segment as well, as far as something else than
separators is left.
-/

namespace Segments

variable {α : Type} (sep : α → Bool)

/-- Whether a prefix ends where a segment of the list ends. -/
def endsSegment (l q : List α) : Bool := q.getLast?.any (fun a => !sep a) && (l.drop q.length).head?.all sep

/-- What leads up to the end of each segment. -/
def ends (l : List α) : List (List α) := l.inits.filter (endsSegment sep l)

/-- Without the separators at its end, unless it has only separators. -/
def trim (l : List α) : List α := if l.all sep then l else l.rdropWhile sep

/-- Without its last segment, or without the separators at its end when there are any. -/
def parent (l : List α) : List α :=
  if l.all sep then l
  else if l.getLast?.any sep then l.rdropWhile sep
  else trim sep (l.rdropWhile fun a => !sep a)

variable {sep} {l q name : List α} {a : α}

@[simp] theorem ends_nil : ends sep ([] : List α) = [] := rfl

theorem prefix_of_mem_ends (h : q ∈ ends sep l) : q <+: l := (List.mem_inits _ _).mp (List.mem_filter.mp h).1

/-- A list is among its own ends when its last element is no separator. -/
theorem self_mem_ends_iff : l ∈ ends sep l ↔ l.getLast?.any (fun a => !sep a) = true := by
  simp [ends, endsSegment]

/-- The ends of a list that has one element more. -/
theorem ends_concat (l : List α) (a : α) :
    ends sep (l ++ [a]) = (l.inits.filter fun q => endsSegment sep (l ++ [a]) q) ++ if sep a then [] else [l ++ [a]] := by
  rw [ends, List.inits_append, List.filter_append]
  congr 1
  cases h : sep a <;> simp [endsSegment, h]

/-- Separators at the end add nothing. -/
theorem ends_concat_sep (h : sep a = true) : ends sep (l ++ [a]) = ends sep l := by
  rw [ends_concat, if_pos h, List.append_nil]
  refine List.filter_congr fun q hq => ?_
  have hle := (List.mem_inits _ _ |>.mp hq).length_le
  rw [endsSegment, endsSegment, List.drop_append_of_le_length hle]
  congr 1
  cases l.drop q.length with
  | nil => simp [h]
  | cons b l' => rfl

/-- A segment that begins adds the list up to there. -/
theorem ends_concat_of_not_sep (h : sep a = false) : ends sep (l ++ [a]) = (ends sep l).filter (fun q => q.length < l.length) ++ [l ++ [a]] := by
  rw [ends_concat, h, if_neg Bool.false_ne_true, ends, List.filter_filter]
  congr 1
  refine List.filter_congr fun q hq => ?_
  have hprefix := List.mem_inits _ _ |>.mp hq
  rw [endsSegment, endsSegment, List.drop_append_of_le_length hprefix.length_le]
  cases hd : l.drop q.length with
  | nil =>
    have hlen := List.drop_eq_nil_iff.mp hd
    simp [h, Nat.not_lt.mpr hlen]
  | cons b l' =>
    have hlen : q.length < l.length := by
      by_contra hge
      rw [List.drop_of_length_le (Nat.not_lt.mp hge)] at hd
      cases hd
    simp [hlen]

theorem ends_append_seps {m : List α} (h : ∀ a ∈ m, sep a = true) : ends sep (l ++ m) = ends sep l := by
  induction m using List.reverseRecOn with
  | nil => rw [List.append_nil]
  | append_singleton m a ih =>
    rw [← List.append_assoc, ends_concat_sep (h a (by simp)), ih fun b hb => h b (List.mem_append_left _ hb)]

theorem ends_of_all (h : l.all sep = true) : ends sep l = [] := by
  simpa using @ends_append_seps α sep [] l (by simpa using h)

/-- A segment behind a separator, or at the beginning, adds the list with it. -/
theorem ends_append_segment (hq : q.getLast?.any (fun a => !sep a) = false) (hname : name ≠ []) (hall : ∀ a ∈ name, sep a = false) :
    ends sep (q ++ name) = ends sep q ++ [q ++ name] := by
  have hself : q ∉ ends sep q := by rw [self_mem_ends_iff, hq]; exact Bool.false_ne_true
  have hshort : ∀ r ∈ ends sep q, r.length < q.length := by
    intro r hr
    refine Nat.lt_of_le_of_ne (prefix_of_mem_ends hr).length_le fun hlen => hself ?_
    rw [(prefix_of_mem_ends hr).eq_of_length hlen] at hr
    exact hr
  induction name using List.reverseRecOn with
  | nil => exact absurd rfl hname
  | append_singleton name a ih =>
    have hkept : (ends sep q).filter (fun r => r.length < (q ++ name).length) = ends sep q := by
      rw [List.filter_eq_self]
      intro r hr
      have := hshort r hr
      simp only [List.length_append, decide_eq_true_eq]
      omega
    rw [← List.append_assoc, ends_concat_of_not_sep (hall a (by simp))]
    congr 1
    by_cases hnil : name = []
    · rw [hnil, List.append_nil] at hkept ⊢
      exact hkept
    · rw [ih hnil fun b hb => hall b (List.mem_append_left _ hb), List.filter_append, hkept]
      simp

/-- Each end leads up to the next one. -/
theorem ends_pairwise (l : List α) : (ends sep l).Pairwise (· <+: ·) := by
  refine List.Pairwise.filter _ ?_
  induction l with
  | nil => exact List.pairwise_singleton ..
  | cons a l ih =>
    rw [List.inits_cons, List.pairwise_cons, List.pairwise_map]
    exact ⟨fun q _ => List.nil_prefix, ih.imp fun h => List.cons_prefix_cons.mpr ⟨rfl, h⟩⟩

/-! ## The list before -/

theorem prefix_trim (l : List α) : trim sep l <+: l := by
  unfold trim
  split_ifs
  · exact List.prefix_refl _
  · exact List.rdropWhile_prefix _ _

theorem ends_trim (l : List α) : ends sep (trim sep l) = ends sep l := by
  unfold trim
  split_ifs
  · rfl
  · conv_rhs => rw [← List.rdropWhile_append_rtakeWhile (p := sep) (l := l)]
    exact (ends_append_seps fun a ha => List.mem_rtakeWhile_imp ha).symm

/-- What is trimmed has only separators, or none at its end. -/
theorem trim_end (l : List α) : (trim sep l).all sep = true ∨ (trim sep l).getLast?.any (fun a => !sep a) = true := by
  unfold trim
  split_ifs with h
  · exact .inl h
  · refine .inr ?_
    have hne : l.rdropWhile sep ≠ [] := by
      rw [Ne, List.rdropWhile_eq_nil_iff]
      simpa using h
    have hlast := List.rdropWhile_last_not sep l hne
    rw [List.getLast?_eq_some_getLast hne]
    simpa using hlast

/-- A list with a separator at its end has the ends of its parent. -/
theorem parent_of_sep (hall : l.all sep = false) (hl : l.getLast?.any sep = true) : parent sep l = trim sep l := by
  simp [parent, trim, hall, hl]

/-- A list whose last element passes a test. -/
theorem exists_concat {p : α → Bool} (h : l.getLast?.any p = true) : ∃ l' a, l = l' ++ [a] ∧ p a = true := by
  cases hlast : l.getLast? with
  | none => simp [hlast] at h
  | some a =>
    obtain ⟨l', rfl⟩ := List.getLast?_eq_some_iff.mp hlast
    exact ⟨l', a, rfl, by simpa using h⟩

theorem parent_of_segment (hl : l.getLast?.any (fun a => !sep a) = true) :
    parent sep l = trim sep (l.rdropWhile fun a => !sep a) := by
  obtain ⟨l', a, rfl, ha⟩ := exists_concat hl
  have ha' : sep a = false := by simpa using ha
  simp [parent, ha']

/-- A list that ends with a segment has one end more than its parent. -/
theorem ends_eq_parent (hl : l.getLast?.any (fun a => !sep a) = true) : ends sep l = ends sep (parent sep l) ++ [l] := by
  have hsplit := @List.rdropWhile_append_rtakeWhile α (fun a => !sep a) l
  have hname : l.rtakeWhile (fun a => !sep a) ≠ [] := by
    obtain ⟨l', a, rfl, ha⟩ := exists_concat hl
    rw [List.rtakeWhile_concat_pos (fun a => !sep a) l' a ha]
    simp
  have hq : (l.rdropWhile fun a => !sep a).getLast?.any (fun a => !sep a) = false := by
    by_contra h
    obtain ⟨l', a, hconcat, ha⟩ := exists_concat (by simpa using h)
    have hidem := @List.rdropWhile_idempotent α (fun a => !sep a) l
    rw [hconcat, List.rdropWhile_concat_pos (fun a => !sep a) l' a ha] at hidem
    have := (List.rdropWhile_prefix (fun a => !sep a) l').length_le
    rw [hidem, List.length_append, List.length_singleton] at this
    omega
  have hseg := ends_append_segment hq hname fun a ha => by simpa using List.mem_rtakeWhile_imp ha
  rw [hsplit] at hseg
  rw [parent_of_segment hl, ends_trim, hseg]

/-- The parent of a list that has not only separators is shorter. -/
theorem length_parent_lt (hall : l.all sep = false) : (parent sep l).length < l.length := by
  have hne : l ≠ [] := by
    rintro rfl
    simp at hall
  obtain ⟨l', a, rfl⟩ : ∃ l' a, l = l' ++ [a] := ⟨_, _, (List.dropLast_append_getLast hne).symm⟩
  cases ha : sep a with
  | true =>
    rw [parent_of_sep hall (by simp [ha]), trim, if_neg (by simp [hall]), List.rdropWhile_concat_pos sep l' a ha]
    have := (List.rdropWhile_prefix sep l').length_le
    simp only [List.length_append, List.length_singleton]
    omega
  | false =>
    rw [parent_of_segment (by simp [ha]), List.rdropWhile_concat_pos (fun a => !sep a) l' a (by simp [ha])]
    have := ((@prefix_trim α sep _).trans (List.rdropWhile_prefix (fun a => !sep a) l')).length_le
    simp only [List.length_append, List.length_singleton]
    omega

/-- The parent has only separators, or none at its end. -/
theorem parent_end (l : List α) : (parent sep l).all sep = true ∨ (parent sep l).getLast?.any (fun a => !sep a) = true := by
  unfold parent
  split_ifs with hall hlast
  · exact .inl hall
  · have := @trim_end α sep l
    rwa [trim, if_neg hall] at this
  · exact trim_end _

/-- An end of a list is the list itself or an end of its parent. -/
theorem mem_ends_parent (h : q ∈ ends sep l) : q = l ∨ q ∈ ends sep (parent sep l) := by
  cases hall : l.all sep with
  | true =>
    rw [ends_of_all hall] at h
    cases h
  | false =>
    by_cases hl : l.getLast?.any (fun a => !sep a) = true
    · rw [ends_eq_parent hl, List.mem_append, List.mem_singleton] at h
      exact h.symm
    · have hsep : l.getLast?.any sep = true := by
        cases hlast : l.getLast? with
        | none =>
          rw [List.getLast?_eq_none_iff.mp hlast] at h
          cases h
        | some a => simpa [hlast] using hl
      rw [parent_of_sep hall hsep, ends_trim]
      exact .inr h

theorem head?_of_isPrefix {m : List α} (h : m <+: l) (hm : m ≠ []) : m.head? = l.head? := by
  obtain ⟨r, rfl⟩ := h
  rw [List.head?_append_of_ne_nil _ hm]

/-- A list that begins with a separator does so when it is trimmed. -/
theorem head_trim (hl : l.head?.any sep = true) : (trim sep l).head? = l.head? := by
  refine head?_of_isPrefix (prefix_trim l) fun hnil => ?_
  unfold trim at hnil
  split_ifs at hnil with hall
  · simp [hnil] at hl
  · rw [List.rdropWhile_eq_nil_iff] at hnil
    exact hall (by simpa using hnil)

/-- The parent of a list that begins with a separator begins with it, too. -/
theorem head_parent (hl : l.head?.any sep = true) : (parent sep l).head? = l.head? := by
  have hstart : (l.rdropWhile fun a => !sep a).head? = l.head? := by
    refine head?_of_isPrefix (List.rdropWhile_prefix _ _) fun hnil => ?_
    rw [List.rdropWhile_eq_nil_iff] at hnil
    cases l with
    | nil => cases hl
    | cons b l' =>
      have hb := hnil b List.mem_cons_self
      simp only [List.head?_cons, Option.any_some] at hl
      simp [hl] at hb
  have htrim := head_trim hl
  unfold parent
  split_ifs with hall
  · rfl
  · rwa [trim, if_neg hall] at htrim
  · rw [head_trim (by rwa [hstart]), hstart]

end Segments
