import Mathlib.Init

/-!
# Loops

A loop is the step it repeats: `step s` is the state after one more round, and `none` where the loop is left (by its condition or by
a `break`). `Loop.Ends` says where it is left. There are three rules: a measure that every round makes smaller ends a loop, a set
of states that every round stays in without leaving the loop keeps it going for ever, and what every round keeps holds at its end.
-/

namespace Loop

variable {σ : Type}

/-- Repeat a step until the loop is left; none when that takes more rounds than there is fuel. -/
def run (step : σ → Option σ) : Nat → σ → Option σ
  | 0, _ => none
  | m + 1, s => match step s with
    | none => some s
    | some s' => run step m s'

/-- The loop is left in the state `t`. -/
def Ends (step : σ → Option σ) (s t : σ) : Prop := ∃ m, run step m s = some t

variable {step : σ → Option σ} {s s' t t' : σ}

/-- A loop that is not entered is left where it started. -/
theorem ends_of_none (h : step s = none) : Ends step s s := ⟨1, by simp [run, h]⟩

/-- A round does not change where the loop is left. -/
theorem ends_step_iff (h : step s = some s') : Ends step s t ↔ Ends step s' t := by
  constructor
  · rintro ⟨m, hm⟩
    cases m with
    | zero => simp [run] at hm
    | succ m => exact ⟨m, by simpa [run, h] using hm⟩
  · rintro ⟨m, hm⟩
    exact ⟨m + 1, by simpa [run, h] using hm⟩

/-- A loop is left in one state. -/
theorem Ends.unique (h : Ends step s t) (h' : Ends step s t') : t = t' := by
  obtain ⟨m, hm⟩ := h
  induction m generalizing s with
  | zero => simp [run] at hm
  | succ m ih =>
    cases hs : step s with
    | none =>
      obtain ⟨m', hm'⟩ := h'
      cases m' with
      | zero => simp [run] at hm'
      | succ m' =>
        simp only [run, hs, Option.some.injEq] at hm hm'
        rw [← hm, ← hm']
    | some s' =>
      refine ih ((ends_step_iff hs).mp h') ?_
      simpa [run, hs] using hm

/-- No round follows where the loop is left. -/
theorem Ends.none (h : Ends step s t) : step t = none := by
  obtain ⟨m, hm⟩ := h
  induction m generalizing s with
  | zero => simp [run] at hm
  | succ m ih =>
    cases hst : step s with
    | none =>
      simp only [run, hst, Option.some.injEq] at hm
      exact hm ▸ hst
    | some s' => exact ih (by simpa [run, hst] using hm)

/-- What every round keeps holds where the loop is left. -/
theorem Ends.keeps {I : σ → Prop} (h : ∀ s s', I s → step s = some s' → I s') (hs : I s) (he : Ends step s t) : I t := by
  obtain ⟨m, hm⟩ := he
  induction m generalizing s with
  | zero => simp [run] at hm
  | succ m ih =>
    cases hst : step s with
    | none =>
      simp only [run, hst, Option.some.injEq] at hm
      exact hm ▸ hs
    | some s' =>
      simp only [run, hst] at hm
      exact ih (h s s' hs hst) hm

/-- A loop whose rounds make a measure smaller is left. -/
theorem exists_ends_of_measure {I : σ → Prop} (measure : σ → Nat)
    (h : ∀ s s', I s → step s = some s' → I s' ∧ measure s' < measure s) (hs : I s) : ∃ t, Ends step s t := by
  generalize hn : measure s = n
  induction n using Nat.strongRecOn generalizing s with
  | ind n ih =>
    cases hst : step s with
    | none => exact ⟨s, ends_of_none hst⟩
    | some s' =>
      obtain ⟨hI, hlt⟩ := h s s' hs hst
      obtain ⟨t, ht⟩ := ih (measure s') (hn ▸ hlt) hI rfl
      exact ⟨t, (ends_step_iff hst).mpr ht⟩

/-- As many rounds as the measure says are enough, and one to find that the loop is left. -/
theorem Ends.run_of_measure (measure : σ → Nat) (h : ∀ s s', step s = some s' → measure s' < measure s) (he : Ends step s t)
    {m : Nat} (hm : measure s < m) : run step m s = some t := by
  induction m generalizing s with
  | zero => exact absurd hm (Nat.not_lt_zero _)
  | succ m ih =>
    cases hst : step s with
    | none =>
      rw [run, hst]
      exact congrArg some ((ends_of_none hst).unique he)
    | some s' =>
      rw [run, hst]
      exact ih ((ends_step_iff hst).mp he) (Nat.lt_of_lt_of_le (h s s' hst) (Nat.lt_succ_iff.mp hm))

/-- A loop that stays in a set of states in which it is not left is never left. -/
theorem not_ends_of_closed {I : σ → Prop} (h : ∀ s, I s → ∃ s', step s = some s' ∧ I s') (hs : I s) : ¬ Ends step s t := by
  rintro ⟨m, hm⟩
  induction m generalizing s with
  | zero => simp [run] at hm
  | succ m ih =>
    obtain ⟨s', hs', hI⟩ := h s hs
    exact ih hI (by simpa [run, hs'] using hm)

/-- Numbered states that follow each other take a round each. -/
theorem run_of_states (f : Nat → σ) (n m : Nat) (h : ∀ i < n, step (f i) = some (f (i + 1))) :
    run step (n + m) (f 0) = run step m (f n) := by
  induction n generalizing m with
  | zero => rw [Nat.zero_add]
  | succ n ih =>
    rw [Nat.add_right_comm, Nat.add_assoc, ih (m + 1) fun i hi => h i (Nat.lt_succ_of_lt hi), run, h n (Nat.lt_succ_self n)]

/-- Numbered states that follow each other: a loop that gets to one of them is left as it is left from there. -/
theorem ends_iff_of_states (f : Nat → σ) (n : Nat) (h : ∀ i < n, step (f i) = some (f (i + 1))) :
    Ends step (f 0) t ↔ Ends step (f n) t := by
  induction n with
  | zero => exact Iff.rfl
  | succ n ih =>
    rw [ih fun i hi => h i (Nat.lt_succ_of_lt hi)]
    exact ends_step_iff (h n (Nat.lt_succ_self n))

end Loop
