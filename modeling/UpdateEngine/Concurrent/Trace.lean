import UpdateEngine.Concurrent.Prog

/-!
# Traces of a program

What a program has asked and was answered, whoever answered it. A trace says nothing about the state: the answers are any answers.
-/

namespace Concurrent

namespace Prog

variable {Op : Type} {Res : Op → Type} {α β : Type}

/-- The program returns `a` after these operations with these answers. -/
def Trace : Prog Op Res α → List (Σ o : Op, Res o) → α → Prop
  | .ret a, l, b => l = [] ∧ a = b
  | .op o k, l, b => ∃ (x : Res o) (l' : List (Σ o : Op, Res o)), l = ⟨o, x⟩ :: l' ∧ (k x).Trace l' b

variable {p : Prog Op Res α} {a : α} {b : β} {l : List (Σ o : Op, Res o)}

/-- A trace of a sequence is one of its first part, and then one of the second. -/
theorem trace_bind {f : α → Prog Op Res β} :
    (p >>= f).Trace l b ↔ ∃ a l₁ l₂, l = l₁ ++ l₂ ∧ p.Trace l₁ a ∧ (f a).Trace l₂ b := by
  induction p generalizing l with
  | ret a =>
    constructor
    · intro h
      exact ⟨a, [], l, rfl, ⟨rfl, rfl⟩, h⟩
    · rintro ⟨a', l₁, l₂, rfl, ⟨rfl, rfl⟩, h⟩
      exact h
  | op o k ih =>
    constructor
    · rintro ⟨x, l', rfl, h⟩
      obtain ⟨a, l₁, l₂, rfl, hp, hf⟩ := (ih x).mp h
      exact ⟨a, ⟨o, x⟩ :: l₁, l₂, rfl, ⟨x, l₁, rfl, hp⟩, hf⟩
    · rintro ⟨a, l₁, l₂, rfl, ⟨x, l', rfl, hp⟩, hf⟩
      exact ⟨x, l' ++ l₂, rfl, (ih x).mpr ⟨a, l', l₂, rfl, hp, hf⟩⟩

/-- Follow a list of answers: what the program returns, when the list is a trace of it. -/
def follows [DecidableEq Op] : Prog Op Res α → List (Σ o : Op, Res o) → Option α
  | .ret a, [] => some a
  | .op o k, ⟨o', x⟩ :: l => if h : o' = o then (k (h ▸ x)).follows l else none
  | _, _ => none

/-- A list of answers that can be followed is a trace. -/
theorem trace_of_follows [DecidableEq Op] {p : Prog Op Res α} {l : List (Σ o : Op, Res o)} {a : α} (h : p.follows l = some a) :
    p.Trace l a := by
  induction p generalizing l with
  | ret b =>
    cases l with
    | nil => exact ⟨rfl, Option.some.inj h⟩
    | cons e l => simp [follows] at h
  | op o k ih =>
    cases l with
    | nil => simp [follows] at h
    | cons e l =>
      obtain ⟨o', x⟩ := e
      rw [follows] at h
      split at h
      · rename_i heq
        subst heq
        exact ⟨x, l, rfl, ih x h⟩
      · simp at h

/-- A program whose operations can all be answered has a trace. -/
theorem exists_trace (h : ∀ o, Nonempty (Res o)) (p : Prog Op Res α) : ∃ l a, p.Trace l a := by
  induction p with
  | ret a => exact ⟨[], a, rfl, rfl⟩
  | op o k ih =>
    obtain ⟨x⟩ := h o
    obtain ⟨l, a, hl⟩ := ih x
    exact ⟨⟨o, x⟩ :: l, a, x, l, rfl, hl⟩

end Prog

end Concurrent
