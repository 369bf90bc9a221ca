import UpdateEngine.Utils.Strings
import UpdateEngine.Firmware.Analyze

/-!
# What the loops over a text leave behind

`ReplaceStringAll` cuts the text at the leftmost occurrences of the pattern that do not overlap and joins the pieces with the new
text; `Split` returns the runs of characters other than the delimiter. Both are read off one round: what stands before the position
of the search is done, and what stands behind it is the rest of the cut, or the runs that still come.
-/

namespace UpdateEngine.StringUtils

variable {α : Type} [DecidableEq α]

/-! ## ReplaceStringAll -/

section Replace

variable {subString newString : List α}

/-- A round behind what is done: the gap and the new text are done after it. -/
theorem replaceRound_join_cons (done : List α) {gap rest : List α} {gaps : List (List α)}
    (h : Scan.Cut.Leftmost subString ⟨gap :: gaps, rest⟩) :
    replaceRound subString newString ⟨done ++ Scan.Cut.join subString ⟨gap :: gaps, rest⟩, done.length⟩ =
      some ⟨done ++ gap ++ newString ++ Scan.Cut.join subString ⟨gaps, rest⟩, (done ++ gap ++ newString).length⟩ := by
  have htake : (done ++ Scan.Cut.join subString ⟨gap :: gaps, rest⟩).take (done.length + gap.length) = done ++ gap := by
    rw [Scan.Cut.join_cons, ← List.length_append, List.append_assoc, ← List.append_assoc, List.take_left]
  have hdrop : (done ++ Scan.Cut.join subString ⟨gap :: gaps, rest⟩).drop (done.length + gap.length + subString.length) =
      Scan.Cut.join subString ⟨gaps, rest⟩ := by
    have hlen : done.length + gap.length + subString.length = (done ++ gap ++ subString).length := by simp; omega
    rw [Scan.Cut.join_cons, hlen]
    simp only [← List.append_assoc, List.drop_left]
  simp only [replaceRound, Scan.findPattern_append, Scan.Cut.findPattern_join_cons h, Option.map_some]
  rw [htake, hdrop]
  simp [Nat.add_assoc]

/-- Nothing is replaced in what follows the last occurrence. -/
theorem replaceRound_rest (done : List α) {rest : List α} (h : ¬ subString <:+: rest) :
    replaceRound subString newString ⟨done ++ rest, done.length⟩ = none := by
  simp only [replaceRound, Scan.findPattern_append, Scan.Cut.findPattern_rest h, Option.map_none]

/-- From behind what is done the loop joins the pieces with the new text: by induction on the gaps. -/
theorem ends_replaceRound (done rest : List α) (gaps : List (List α)) (h : Scan.Cut.Leftmost subString ⟨gaps, rest⟩) :
    ∃ pos, Loop.Ends (replaceRound subString newString) ⟨done ++ Scan.Cut.join subString ⟨gaps, rest⟩, done.length⟩
      ⟨done ++ Scan.Cut.join newString ⟨gaps, rest⟩, pos⟩ := by
  induction gaps generalizing done with
  | nil => exact ⟨done.length, Loop.ends_of_none (replaceRound_rest done h.2)⟩
  | cons gap gaps ih =>
    obtain ⟨pos, hpos⟩ := ih (done ++ gap ++ newString) (Scan.Cut.leftmost_cons.mp h).2
    refine ⟨pos, (Loop.ends_step_iff (replaceRound_join_cons done h)).mpr ?_⟩
    simpa only [Scan.Cut.join_cons, List.append_assoc] using hpos

theorem replacesAll_join {c : Scan.Cut α} (h : c.Leftmost subString) :
    ReplacesAll (c.join subString) subString newString (c.join newString) :=
  ends_replaceRound [] c.rest c.gaps h

/-- There is one result. -/
theorem ReplacesAll.unique {srcString result result' : List α} (h : ReplacesAll srcString subString newString result)
    (h' : ReplacesAll srcString subString newString result') : result = result' := by
  obtain ⟨pos, h⟩ := h
  obtain ⟨pos', h'⟩ := h'
  exact congrArg Replacing.resultString (h.unique h')

/-- `ReplaceStringAll` with a pattern that is not empty comes to its end: there is one cut of the text at the leftmost occurrences of
the pattern that do not overlap, and what is left behind is the pieces of this cut joined with the new text, and nothing else. -/
theorem replaceStringAll_leftmost (srcString subString newString : List α) (hsub : subString ≠ []) :
    ∃ c : Scan.Cut α, (c.join subString = srcString ∧ c.Leftmost subString) ∧
      (∀ c' : Scan.Cut α, c'.join subString = srcString → c'.Leftmost subString → c' = c) ∧
      ∀ result, ReplacesAll srcString subString newString result ↔ result = c.join newString := by
  obtain ⟨c, rfl, hc⟩ := Scan.Cut.exists_leftmost hsub srcString
  refine ⟨c, ⟨rfl, hc⟩, fun c' heq hc' => hc'.unique hc heq, ?_⟩
  intro result
  constructor
  · intro h
    exact h.unique (replacesAll_join hc)
  · rintro rfl
    exact replacesAll_join hc

/-- The text "aXaaXX" with "X" replaced by "XX". -/
theorem replaceStringAll_leftmost_longer :
    ['X'] ≠ [] ∧ ∃ c : Scan.Cut Char, (c.join ['X'] = ['a', 'X', 'a', 'a', 'X', 'X'] ∧ c.Leftmost ['X']) ∧
      (∀ c' : Scan.Cut Char, c'.join ['X'] = ['a', 'X', 'a', 'a', 'X', 'X'] → c'.Leftmost ['X'] → c' = c) ∧
      ∀ result, ReplacesAll ['a', 'X', 'a', 'a', 'X', 'X'] ['X'] ['X', 'X'] result ↔ result = c.join ['X', 'X'] :=
  ⟨by decide, replaceStringAll_leftmost _ _ _ (by decide)⟩

example : (Loop.run (replaceRound ['a', 'a'] ['a']) 4 ⟨['a', 'a', 'a', 'b', 'a', 'a'], 0⟩).map Replacing.resultString =
    some ['a', 'a', 'b', 'a'] := by decide

/-- With an empty pattern the loop finds it again in every round. -/
theorem not_replacesAll_empty (srcString newString result : List α) : ¬ ReplacesAll srcString [] newString result := by
  rintro ⟨pos, hends⟩
  refine Loop.not_ends_of_closed (I := fun s => s.pos ≤ s.resultString.length) ?_ (Nat.zero_le _) hends
  intro s hs
  have hfind : Scan.findPattern [] s.resultString s.pos = some s.pos := by
    rw [Scan.findPattern_eq_some_iff]
    exact ⟨Nat.le_refl _, hs, List.nil_prefix, fun j hle hlt => by omega⟩
  exact ⟨_, by rw [replaceRound, hfind], by simp; omega⟩

/-! The recursion the analyser's answers are written with does what the loop does. -/

/-- The recursion joins the pieces of a cut at the leftmost occurrences. -/
theorem replaceAll_cut {sub : List Char} (new : List Char) (hsub : sub ≠ []) (fuel : Nat) (l : List Char) (hl : l.length ≤ fuel) :
    ∃ c : Scan.Cut Char, c.join sub = l ∧ c.Leftmost sub ∧ c.join new = replaceAll sub new fuel l := by
  induction fuel generalizing l with
  | zero =>
    obtain rfl : l = [] := List.length_eq_zero_iff.mp (Nat.le_zero.mp hl)
    exact ⟨⟨[], []⟩, rfl, ⟨by simp, by simpa using hsub⟩, by simp [replaceAll]⟩
  | succ fuel ih =>
    cases l with
    | nil => exact ⟨⟨[], []⟩, rfl, ⟨by simp, by simpa using hsub⟩, by simp [replaceAll]⟩
    | cons a l =>
      by_cases hp : sub <+: a :: l
      · have hpos : 0 < sub.length := List.length_pos_iff.mpr hsub
        obtain ⟨c, hjoin, hc, hnew⟩ := ih ((a :: l).drop sub.length) (by simp at hl ⊢; omega)
        obtain ⟨t, ht⟩ := hp
        refine ⟨⟨[] :: c.gaps, c.rest⟩, ?_, Scan.Cut.leftmost_cons.mpr ⟨by simp, hc⟩, ?_⟩
        · rw [← ht, List.drop_left] at hjoin
          simpa [hjoin] using ht
        · simp only [replaceAll]
          rw [if_pos (by simp [← ht]), ← hnew, Scan.Cut.join_cons, List.nil_append]
      · obtain ⟨⟨gaps, rest⟩, hjoin, hc, hnew⟩ := ih l (by simpa using hl)
        have hstep : replaceAll sub new (fuel + 1) (a :: l) = a :: replaceAll sub new fuel l := by
          simp [replaceAll, hp]
        rw [hstep, ← hnew]
        cases gaps with
        | nil =>
          obtain rfl : rest = l := hjoin
          refine ⟨⟨[], a :: rest⟩, rfl, ⟨by simp, ?_⟩, rfl⟩
          intro hin
          rcases List.infix_cons_iff.mp hin with hpre | hin'
          · exact hp hpre
          · exact hc.2 hin'
        | cons gap gaps =>
          obtain ⟨hgap, hrest⟩ := Scan.Cut.leftmost_cons.mp hc
          refine ⟨⟨(a :: gap) :: gaps, rest⟩, by rw [← hjoin]; rfl, Scan.Cut.leftmost_cons.mpr ⟨?_, hrest⟩, rfl⟩
          intro i hi hpre
          cases i with
          | zero => exact hp (hpre.trans ⟨Scan.Cut.join sub ⟨gaps, rest⟩, by rw [← hjoin]; rfl⟩)
          | succ i => exact hgap i (by simpa using hi) (by simpa using hpre)

/-- `replaceStringAll` is what the loop leaves behind. -/
theorem replacesAll_replaceStringAll (text sub new : String) (hsub : sub.toList ≠ []) :
    ReplacesAll text.toList sub.toList new.toList (replaceStringAll text sub new).toList := by
  obtain ⟨c, hjoin, hc, hnew⟩ := replaceAll_cut new.toList hsub text.toList.length text.toList (Nat.le_refl _)
  rw [replaceStringAll, String.toList_ofList, ← hnew, ← hjoin]
  exact replacesAll_join hc

end Replace

/-! ## Split -/

section Split

variable {str : List α} {delimiter : α}

/-- The runs of characters other than the delimiter. -/
def IsToken (str : List α) (delimiter : α) (i j : Nat) : Prop := Scan.IsRun (fun c => !decide (c = delimiter)) str i j

/-- The part of a text from one position up to another. -/
def slice (str : List α) (r : Nat × Nat) : List α := (str.drop r.1).take (r.2 - r.1)

/-- What holds before every round: the tokens are those that end at `end` or before it, and none goes on across it. -/
structure SplitInv (str : List α) (delimiter : α) (s : Splitting α) : Prop where
  found : ∃ runs : List (Nat × Nat), s.tokens = runs.map (slice str) ∧ runs.Pairwise (fun r r' => r.1 < r'.1) ∧
    ∀ i j, (i, j) ∈ runs ↔ IsToken str delimiter i j ∧ j ≤ s.endPos.getD str.length
  clear : ∀ e, s.endPos = some e → 0 < e → str[e]?.any (fun c => !decide (c = delimiter)) = false

/-- A token that does not end by a position at which no token goes on begins behind it. -/
theorem le_of_not_ended {i j e : Nat} (h : IsToken str delimiter i j)
    (hclear : 0 < e → str[e]?.any (fun c => !decide (c = delimiter)) = false) (hj : e < j) : e ≤ i := by
  by_contra hlt
  have hin := h.inside e (by omega) hj
  rw [hclear (by omega)] at hin
  cases hin

/-- A round takes the next token. -/
theorem SplitInv.round {s s' : Splitting α} (h : SplitInv str delimiter s) (hround : splitRound str delimiter s = some s') :
    SplitInv str delimiter s' := by
  obtain ⟨⟨runs, htokens, hordered, hruns⟩, hclear⟩ := h
  obtain ⟨tokens, endPos⟩ := s
  cases endPos with
  | none => simp [splitRound] at hround
  | some e =>
    cases hstart : Scan.findElem (fun c => !decide (c = delimiter)) str e with
    | none => simp [splitRound, hstart] at hround
    | some start =>
      simp only [splitRound, Option.bind_some, hstart, Option.some.injEq] at hround
      subst hround
      have hclear' := hclear e rfl
      have htoken : IsToken str delimiter start ((Scan.findElem (fun c => decide (c = delimiter)) str start).getD str.length) :=
        Scan.isRun_of_find hstart hclear'
      obtain ⟨hle, -, -, hfirst⟩ := Scan.findElem_eq_some_iff.mp hstart
      simp only [Option.getD_some] at hruns
      generalize hstop : (Scan.findElem (fun c => decide (c = delimiter)) str start).getD str.length = stop at htoken
      have hlt := htoken.lt
      refine ⟨⟨runs ++ [(start, stop)], ?_, ?_, ?_⟩, ?_⟩
      · simp only at htokens
        simp [htokens, substr, slice, hstop]
      · refine List.pairwise_append.mpr ⟨hordered, by simp, ?_⟩
        rintro ⟨i, j⟩ hr _ hr'
        obtain rfl := List.mem_singleton.mp hr'
        obtain ⟨hij, hje⟩ := (hruns i j).mp hr
        have := hij.lt
        exact (by omega : i < start)
      · -- a token that ends by the new end is an old one or the one just found
        intro i j
        simp only [List.mem_append, hruns, List.mem_singleton, Prod.mk.injEq, hstop]
        constructor
        · rintro (⟨hij, hje⟩ | ⟨rfl, rfl⟩)
          · exact ⟨hij, by omega⟩
          · exact ⟨htoken, Nat.le_refl _⟩
        · rintro ⟨hij, hj⟩
          by_cases hje : j ≤ e
          · exact Or.inl ⟨hij, hje⟩
          · have hei := le_of_not_ended hij hclear' (by omega)
            rcases Nat.lt_or_ge i start with hi | hi
            · have hin := hij.inside i (Nat.le_refl i) hij.lt
              rw [hfirst i hei hi] at hin
              cases hin
            · rcases Scan.IsRun.lt_or_eq htoken hij hi with hover | ⟨rfl, rfl⟩
              · have := hij.lt
                omega
              · exact Or.inr ⟨rfl, rfl⟩
      · intro e' he' _
        obtain rfl : e' = stop := by
          rw [← hstop]
          simp only at he'
          rw [he', Option.getD_some]
        exact htoken.after

/-- When no round follows, no token follows. -/
theorem SplitInv.over {s : Splitting α} (h : SplitInv str delimiter s) (hover : splitRound str delimiter s = none) {i j : Nat}
    (hij : IsToken str delimiter i j) : j ≤ s.endPos.getD str.length := by
  obtain ⟨tokens, endPos⟩ := s
  cases endPos with
  | none => exact hij.le
  | some e =>
    cases hstart : Scan.findElem (fun c => !decide (c = delimiter)) str e with
    | some start => simp [splitRound, hstart] at hover
    | none =>
      by_contra hje
      have hei := le_of_not_ended hij (h.clear e rfl) (by simpa using hje)
      have hin := hij.inside i (Nat.le_refl i) hij.lt
      rw [Scan.findElem_eq_none_iff.mp hstart i hei] at hin
      cases hin

/-- The rounds that are left at most: `end` grows with every round. -/
def left (str : List α) (s : Splitting α) : Nat :=
  match s.endPos with
  | some e => str.length + 1 - e
  | none => 0

theorem left_round {s s' : Splitting α} (h : SplitInv str delimiter s) (hround : splitRound str delimiter s = some s') :
    left str s' < left str s := by
  obtain ⟨tokens, endPos⟩ := s
  cases endPos with
  | none => simp [splitRound] at hround
  | some e =>
    cases hstart : Scan.findElem (fun c => !decide (c = delimiter)) str e with
    | none => simp [splitRound, hstart] at hround
    | some start =>
      have htoken := Scan.isRun_of_find hstart (h.clear e rfl)
      obtain ⟨hle, hlen, -, -⟩ := Scan.findElem_eq_some_iff.mp hstart
      simp only [splitRound, Option.bind_some, hstart, Option.some.injEq] at hround
      subst hround
      have hlt := htoken.lt
      cases hstop : Scan.findElem (fun c => decide (c = delimiter)) str start with
      | none => simp [left]; omega
      | some stop =>
        rw [hstop, Option.getD_some] at hlt
        simp [left]; omega

theorem splitInv_init : SplitInv str delimiter ⟨[], some 0⟩ := by
  refine ⟨⟨[], rfl, List.Pairwise.nil, ?_⟩, ?_⟩
  · intro i j
    simp only [List.not_mem_nil, Option.getD_some, false_iff, not_and]
    intro hij
    have := hij.lt
    omega
  · intro e he hpos
    obtain rfl : 0 = e := Option.some.inj he
    omega

/-- `Split` comes to its end and returns the runs of characters other than the delimiter, from left to right, each of them once and
nothing else. -/
theorem split_runs (str : List α) (delimiter : α) :
    ∃ runs : List (Nat × Nat), runs.Pairwise (fun r r' => r.1 < r'.1) ∧
      (∀ i j, (i, j) ∈ runs ↔ Scan.IsRun (fun c => !decide (c = delimiter)) str i j) ∧
      ∀ tokens, Splits str delimiter tokens ↔ tokens = runs.map (slice str) := by
  have hinit : SplitInv str delimiter ⟨[], some 0⟩ := splitInv_init
  obtain ⟨t, ht⟩ := Loop.exists_ends_of_measure (left str) (fun s s' hs hr => ⟨SplitInv.round hs hr, left_round hs hr⟩) hinit
  have hinv := Loop.Ends.keeps (fun s s' hs hr => SplitInv.round hs hr) hinit ht
  obtain ⟨runs, htokens, hordered, hruns⟩ := hinv.found
  refine ⟨runs, hordered, ?_, ?_⟩
  · intro i j
    rw [hruns]
    exact ⟨And.left, fun hij => ⟨hij, hinv.over ht.none hij⟩⟩
  · intro tokens
    rw [← htokens]
    constructor
    · rintro ⟨endPos, h⟩
      exact congrArg Splitting.tokens (h.unique ht)
    · rintro rfl
      exact ⟨t.endPos, ht⟩

example : (Loop.run (splitRound ['/', 'a', 'b', '/', '/', 'c'] '/') 3 ⟨[], some 0⟩).map Splitting.tokens =
    some [['a', 'b'], ['c']] := by decide

end Split

end UpdateEngine.StringUtils
