import Mathlib.Init

/-!
# Runs of a transition system

A system whose steps are given by a function: an action takes a state to the next one, or it is not possible there. Runs take only
steps a condition allows; with the condition `fun _ _ => True` they are all runs. (`Concurrent.Reach` is this for a pool of threads,
whose actions are the operations of programs; here the threads may be anything.)
-/

namespace Concurrent

variable {State Action : Type} {step : State → Action → Option State}

/-- The states reached from `s₀` by steps that `ok` allows. -/
inductive Leads (step : State → Action → Option State) (ok : State → Action → Prop) (s₀ : State) : State → Prop
  | refl : Leads step ok s₀ s₀
  | step {s s' : State} {a : Action} (h : Leads step ok s₀ s) (hok : ok s a) (hs : step s a = some s') : Leads step ok s₀ s'

variable {ok ok' : State → Action → Prop} {s₀ s : State}

/-- What holds at first and is kept by every step allowed holds in every state reached. -/
theorem Leads.invariant {I : State → Prop} (hinit : I s₀) (hstep : ∀ s a s', I s → ok s a → step s a = some s' → I s')
    (h : Leads step ok s₀ s) : I s := by
  induction h with
  | refl => exact hinit
  | step _ hok hs ih => exact hstep _ _ _ ih hok hs

/-- Runs under a stronger condition are runs under a weaker one. -/
theorem Leads.mono (hok : ∀ s a, ok s a → ok' s a) (h : Leads step ok s₀ s) : Leads step ok' s₀ s := by
  induction h with
  | refl => exact .refl
  | step _ ha hs ih => exact .step ih (hok _ _ ha) hs

/-- A run is followed by another. -/
theorem Leads.trans {s₁ s₂ : State} (h : Leads step ok s₀ s₁) (h' : Leads step ok s₁ s₂) : Leads step ok s₀ s₂ := by
  induction h' with
  | refl => exact h
  | step _ hok hs ih => exact .step ih hok hs

/-- Follow a list of actions, each of which has to be allowed and possible. -/
def follow (step : State → Action → Option State) (ok : State → Action → Bool) : List Action → State → Option State
  | [], s => some s
  | a :: l, s => if ok s a then (step s a).bind (follow step ok l) else none

/-- When a list of actions can be followed to a state that passes a test, such a state is reached. -/
theorem Leads.exists_of_follow {ok : State → Action → Bool} {p : State → Bool} {l : List Action}
    (h : (follow step ok l s₀).any p = true) : ∃ s, Leads step (fun s a => ok s a = true) s₀ s ∧ p s = true := by
  suffices hall : ∀ s, Leads step (fun s a => ok s a = true) s₀ s → (follow step ok l s).any p = true →
      ∃ s', Leads step (fun s a => ok s a = true) s₀ s' ∧ p s' = true from hall s₀ .refl h
  intro s hs hl
  clear h
  induction l generalizing s with
  | nil => exact ⟨s, hs, by simpa [follow] using hl⟩
  | cons a l ih =>
    simp only [follow] at hl
    split at hl
    · rename_i ha
      cases hnext : step s a with
      | none => simp [hnext] at hl
      | some s' => exact ih s' (.step hs ha hnext) (by simpa [hnext] using hl)
    · simp at hl

/-- When each action of a list is allowed wherever it is taken, and the list can be followed to a state that passes a test, such a state is
reached. -/
theorem Leads.exists_of_follow_all {p : State → Bool} {l : List Action} (hok : ∀ a ∈ l, ∀ s, ok s a)
    (h : (follow step (fun _ _ => true) l s₀).any p = true) : ∃ s, Leads step ok s₀ s ∧ p s = true := by
  suffices hall : ∀ s, Leads step ok s₀ s → (follow step (fun _ _ => true) l s).any p = true → ∃ s', Leads step ok s₀ s' ∧ p s' = true
    from hall s₀ .refl h
  intro s hs hl
  clear h
  induction l generalizing s with
  | nil => exact ⟨s, hs, by simpa [follow] using hl⟩
  | cons a l ih =>
    simp only [follow, if_true] at hl
    cases hnext : step s a with
    | none => simp [hnext] at hl
    | some s' =>
      refine ih (fun a ha => hok a (List.mem_cons_of_mem _ ha)) s' (.step hs (hok a List.mem_cons_self s) hnext) ?_
      simpa [hnext] using hl

end Concurrent
