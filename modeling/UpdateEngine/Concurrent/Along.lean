import UpdateEngine.Concurrent.Trace

/-!
# Programs in an environment

An environment says how an operation may be answered from a state, and to which states an answer leads. `Prog.Sound` asks of a program
that something holds of each operation where it is asked for, whatever the answers are; by `Sound.along` it then holds wherever a trace
of the program is broken off.
-/

namespace Concurrent

namespace Prog

variable {Op : Type} {Res : Op → Type} {State α β : Type}

/-- The operations are answered one after the other, from one state to another. -/
inductive Along (E : State → (o : Op) → Res o → State → Prop) : State → List (Σ o : Op, Res o) → State → Prop
  | nil (s : State) : Along E s [] s
  | cons {s s' s'' : State} {o : Op} {x : Res o} {l : List (Σ o : Op, Res o)} (h : E s o x s') (hl : Along E s' l s'') :
      Along E s (⟨o, x⟩ :: l) s''

/-- Whatever the environment answers, each operation satisfies `A` in the state in which the program asks for it, and the program returns
with a result and a state that satisfy `Q`. -/
def Sound (E : State → (o : Op) → Res o → State → Prop) (A : State → Op → Prop) :
    Prog Op Res α → State → (α → State → Prop) → Prop
  | .ret a, s, Q => Q a s
  | .op o k, s, Q => A s o ∧ ∀ x s', E s o x s' → (k x).Sound E A s' Q

variable {E : State → (o : Op) → Res o → State → Prop} {A : State → Op → Prop} {p : Prog Op Res α} {s s' : State}

/-- A weaker end. -/
theorem Sound.mono {Q Q' : α → State → Prop} (h : p.Sound E A s Q) (hQ : ∀ a s', Q a s' → Q' a s') : p.Sound E A s Q' := by
  induction p generalizing s with
  | ret a => exact hQ a s h
  | op o k ih => exact ⟨h.1, fun x s' hx => ih x (h.2 x s' hx)⟩

/-- A sequence is sound when its first part is, and the second one is from every end of the first. -/
theorem Sound.seq {f : α → Prog Op Res β} {R : α → State → Prop} {Q : β → State → Prop} (h : p.Sound E A s R)
    (hf : ∀ a s', R a s' → (f a).Sound E A s' Q) : (p >>= f).Sound E A s Q := by
  induction p generalizing s with
  | ret a => exact hf a s h
  | op o k ih => exact ⟨h.1, fun x s' hx => ih x (h.2 x s' hx)⟩

/-- Where a trace of a sound program is broken off: at its end, or before an operation. -/
theorem Sound.along {Q : α → State → Prop} {a : α} {l l' : List (Σ o : Op, Res o)} (h : p.Sound E A s Q)
    (ht : p.Trace (l ++ l') a) (hl : Along E s l s') : (l' = [] ∧ Q a s') ∨ ∃ o x l'', l' = ⟨o, x⟩ :: l'' ∧ A s' o := by
  induction p generalizing s l with
  | ret b =>
    obtain ⟨hnil, rfl⟩ := ht
    obtain ⟨rfl, rfl⟩ := List.append_eq_nil_iff.mp hnil
    cases hl
    exact .inl ⟨rfl, h⟩
  | op o k ih =>
    obtain ⟨x, l₁, heq, ht⟩ := ht
    cases hl with
    | nil => exact .inr ⟨o, x, l₁, heq, h.1⟩
    | cons hx hl =>
      rw [List.cons_append, List.cons.injEq, Sigma.mk.injEq] at heq
      obtain ⟨⟨rfl, hheq⟩, rfl⟩ := heq
      cases hheq
      exact ih _ (h.2 _ _ hx) ht hl

end Prog

end Concurrent
