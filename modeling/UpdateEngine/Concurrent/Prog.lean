import Mathlib.Init

/-!
# Programs over atomic operations

A thread is written as a program: it has returned, or it asks for one atomic operation and goes on with the answer. What an
operation does to the shared state is no part of the program; the same text is run alone (`Prog.run`) or as one thread of a pool
(`Concurrent.Machine`). `Prog.Uses` says which operations a program may ask for, whatever the answers are.
-/

namespace Concurrent

/-- A program over the operations `Op`, the operation `o` answering with a `Res o`. -/
inductive Prog (Op : Type) (Res : Op → Type) (α : Type) where
  | ret (a : α)
  | op (o : Op) (k : Res o → Prog Op Res α)

namespace Prog

variable {Op : Type} {Res : Op → Type} {α β γ : Type}

/-- Sequencing: the second program starts where the first returns. -/
protected def bind : Prog Op Res α → (α → Prog Op Res β) → Prog Op Res β
  | .ret a, f => f a
  | .op o k, f => .op o fun x => (k x).bind f

instance : Monad (Prog Op Res) where
  pure := .ret
  bind := Prog.bind

/-- The program that asks for one operation and returns its answer. -/
def perform (o : Op) : Prog Op Res (Res o) := .op o .ret

@[simp] theorem pure_eq (a : α) : (pure a : Prog Op Res α) = .ret a := rfl

@[simp] theorem ret_bind (a : α) (f : α → Prog Op Res β) : (Prog.ret a >>= f) = f a := rfl

@[simp] theorem op_bind (o : Op) (k : Res o → Prog Op Res α) (f : α → Prog Op Res β) :
    (Prog.op o k >>= f) = .op o fun x => k x >>= f := rfl

@[simp] theorem perform_bind (o : Op) (f : Res o → Prog Op Res β) : (perform o >>= f) = .op o f := rfl

/-- Sequencing is associative. -/
theorem bind_assoc (p : Prog Op Res α) (f : α → Prog Op Res β) (g : β → Prog Op Res γ) :
    (p >>= f) >>= g = p >>= fun a => f a >>= g := by
  induction p with
  | ret a => rfl
  | op o k ih =>
    simp only [op_bind]
    congr 1
    funext x
    exact ih x

/-- Returning what a program returned changes nothing. -/
theorem bind_ret (p : Prog Op Res α) : (p >>= Prog.ret) = p := by
  induction p with
  | ret a => rfl
  | op o k ih =>
    simp only [op_bind]
    congr 1
    funext x
    exact ih x

instance : LawfulMonad (Prog Op Res) :=
  LawfulMonad.mk' _ bind_ret (fun _ _ => rfl) bind_assoc

/-- Whether the program has come to its end. -/
def isRet : Prog Op Res α → Bool
  | .ret _ => true
  | .op _ _ => false

/-! ## Running one program alone -/

section Run

variable {State : Type} (exec : (o : Op) → State → Option (Res o × State))

/-- Run a program alone until it returns, or until its next operation is refused (`exec` says `none`): what it returned, if it
did, and the state it leaves behind. -/
def run : Prog Op Res α → State → Option α × State
  | .ret a, s => (some a, s)
  | .op o k, s => match exec o s with
    | some (x, s') => (k x).run s'
    | none => (none, s)

end Run

/-! ## The operations a program may ask for -/

/-- Every operation the program may ask for, whatever the answers are, is in `S`. -/
def Uses (S : Op → Prop) : Prog Op Res α → Prop
  | .ret _ => True
  | .op o k => S o ∧ ∀ x, (k x).Uses S

@[simp] theorem uses_ret (S : Op → Prop) (a : α) : (Prog.ret a : Prog Op Res α).Uses S := trivial

@[simp] theorem uses_op (S : Op → Prop) (o : Op) (k : Res o → Prog Op Res α) :
    (Prog.op o k).Uses S ↔ S o ∧ ∀ x, (k x).Uses S := Iff.rfl

/-- A sequence stays in `S` when both parts do. -/
theorem Uses.bind {S : Op → Prop} {p : Prog Op Res α} {f : α → Prog Op Res β} (hp : p.Uses S) (hf : ∀ a, (f a).Uses S) :
    (p >>= f).Uses S := by
  induction p with
  | ret a => exact hf a
  | op o k ih => exact ⟨hp.1, fun x => ih x (hp.2 x)⟩

/-- A larger set of operations allows more. -/
theorem Uses.mono {S T : Op → Prop} (hST : ∀ o, S o → T o) {p : Prog Op Res α} (hp : p.Uses S) : p.Uses T := by
  induction p with
  | ret a => trivial
  | op o k ih => exact ⟨hST o hp.1, fun x => ih x (hp.2 x)⟩

/-- What stays in two sets stays in both. -/
theorem Uses.and {S T : Op → Prop} {p : Prog Op Res α} (hS : p.Uses S) (hT : p.Uses T) : p.Uses fun o => S o ∧ T o := by
  induction p with
  | ret a => trivial
  | op o k ih => exact ⟨⟨hS.1, hT.1⟩, fun x => ih x (hS.2 x) (hT.2 x)⟩

/-- A loop over a list stays in `S` when its body does. -/
theorem uses_forM {S : Op → Prop} (l : List β) (f : β → Prog Op Res Unit) (hf : ∀ b ∈ l, (f b).Uses S) :
    (l.forM f).Uses S := by
  induction l with
  | nil => trivial
  | cons b l ih =>
    exact Uses.bind (hf b (List.mem_cons_self ..)) fun _ => ih fun c hc => hf c (List.mem_cons_of_mem _ hc)

/-- The same for a loop that stops at the first element refused. -/
theorem uses_allM {S : Op → Prop} (l : List β) (f : β → Prog Op Res Bool) (hf : ∀ b ∈ l, (f b).Uses S) :
    (l.allM f).Uses S := by
  induction l with
  | nil => trivial
  | cons b l ih =>
    rw [List.allM]
    refine Uses.bind (hf b (List.mem_cons_self ..)) fun a => ?_
    cases a with
    | false => trivial
    | true => exact ih fun c hc => hf c (List.mem_cons_of_mem _ hc)

/-- Whatever the answers are, a program that returns does so with a result that satisfies `R`. -/
def Returns (R : α → Prop) : Prog Op Res α → Prop
  | .ret a => R a
  | .op _ k => ∀ x, (k x).Returns R

/-- A sequence returns what its second part returns. -/
theorem Returns.bind {R : α → Prop} {R' : β → Prop} {p : Prog Op Res α} {f : α → Prog Op Res β} (hp : p.Returns R)
    (hf : ∀ a, R a → (f a).Returns R') : (p >>= f).Returns R' := by
  induction p with
  | ret a => exact hf a hp
  | op o k ih => exact fun x => ih x (hp x)

/-- What a sequence returns. -/
theorem returns_bind {R : β → Prop} {p : Prog Op Res α} {f : α → Prog Op Res β} :
    (p >>= f).Returns R ↔ p.Returns fun a => (f a).Returns R := by
  induction p with
  | ret a => exact Iff.rfl
  | op o k ih => exact forall_congr' ih

/-- Every program returns something. -/
theorem returns_true (p : Prog Op Res α) : p.Returns fun _ => True := by
  induction p with
  | ret a => trivial
  | op o k ih => exact ih

/-! ## Replacing operations by programs -/

section Interp

variable {Op' : Type} {Res' : Op' → Type} (σ : (o : Op) → Prog Op' Res' (Res o))

/-- The program in which each operation is replaced by a program. -/
def interp : Prog Op Res α → Prog Op' Res' α
  | .ret a => .ret a
  | .op o k => σ o >>= fun x => (k x).interp

@[simp] theorem interp_ret (a : α) : (Prog.ret a : Prog Op Res α).interp σ = .ret a := rfl

@[simp] theorem interp_op (o : Op) (k : Res o → Prog Op Res α) : (Prog.op o k).interp σ = σ o >>= fun x => (k x).interp σ := rfl

/-- In a sequence both parts are replaced. -/
theorem interp_bind (p : Prog Op Res α) (f : α → Prog Op Res β) :
    (p >>= f).interp σ = p.interp σ >>= fun a => (f a).interp σ := by
  induction p with
  | ret a => rfl
  | op o k ih =>
    simp only [op_bind, interp_op, bind_assoc]
    congr 1
    funext x
    exact ih x

end Interp

/-! ## What holds of a run -/

section Holds

variable {State : Type} (exec : (o : Op) → State → Option (Res o × State))

/-- The program, run alone, returns, and its result and the state it leaves satisfy `Q`. -/
def Ends : Prog Op Res α → State → (α → State → Prop) → Prop
  | .ret a, s, Q => Q a s
  | .op o k, s, Q => ∃ x s', exec o s = some (x, s') ∧ (k x).Ends s' Q

/-- The program is run alone, and `I` holds before each of its operations and after the last one. -/
def Always : Prog Op Res α → State → (State → Prop) → Prop
  | .ret _, s, I => I s
  | .op o k, s, I => I s ∧ ∀ x s', exec o s = some (x, s') → (k x).Always s' I

/-- The program, run alone, comes to take the operation. -/
def Takes : Prog Op Res α → State → Op → Prop
  | .ret _, _, _ => False
  | .op o' k, s, o => o' = o ∨ ∃ x s', exec o' s = some (x, s') ∧ (k x).Takes s' o

/-- The state in which a program that runs alone is stopped after a number of operations. -/
def cut : Nat → Prog Op Res α → State → State
  | m + 1, .op o k, s => match exec o s with
    | some (x, s') => cut m (k x) s'
    | none => s
  | _, _, s => s

variable {exec} {p : Prog Op Res α} {s : State}

/-- A program ends as its run says. -/
theorem ends_iff_run {Q : α → State → Prop} : p.Ends exec s Q ↔ ∃ a s', p.run exec s = (some a, s') ∧ Q a s' := by
  induction p generalizing s with
  | ret a =>
    constructor
    · intro h
      exact ⟨a, s, rfl, h⟩
    · rintro ⟨a', s', hr, h⟩
      cases hr
      exact h
  | op o k ih =>
    rw [run]
    constructor
    · rintro ⟨x, s', hx, h⟩
      rw [hx]
      exact (ih x).mp h
    · intro h
      cases hx : exec o s with
      | none => simp [hx] at h
      | some xs =>
        rw [hx] at h
        exact ⟨xs.1, xs.2, hx, (ih xs.1).mpr h⟩

/-- A weaker end. -/
theorem Ends.mono {Q Q' : α → State → Prop} (h : p.Ends exec s Q) (hQ : ∀ a s', Q a s' → Q' a s') : p.Ends exec s Q' := by
  obtain ⟨a, s', hr, hq⟩ := ends_iff_run.mp h
  exact ends_iff_run.mpr ⟨a, s', hr, hQ a s' hq⟩

/-- What a program keeps to preserve holds at its end besides. -/
theorem Ends.preserving {Q : α → State → Prop} {S : Op → Prop} {I : State → Prop}
    (hS : ∀ o s x s', S o → I s → exec o s = some (x, s') → I s') (hp : p.Uses S) (hs : I s) (h : p.Ends exec s Q) :
    p.Ends exec s fun a s' => I s' ∧ Q a s' := by
  induction p generalizing s with
  | ret a => exact ⟨hs, h⟩
  | op o k ih =>
    obtain ⟨x, s', hx, h⟩ := h
    exact ⟨x, s', hx, ih x (hp.2 x) (hS o s x s' hp.1 hs hx) h⟩

/-- A program has one end. -/
theorem Ends.unique {Q Q' : α → State → Prop} (h : p.Ends exec s Q) (h' : p.Ends exec s Q') : ∃ a s', Q a s' ∧ Q' a s' := by
  obtain ⟨a, s', hr, hq⟩ := ends_iff_run.mp h
  obtain ⟨a', s'', hr', hq'⟩ := ends_iff_run.mp h'
  rw [hr] at hr'
  cases hr'
  exact ⟨a, s', hq, hq'⟩

/-- What a program ends with is decided by any end of it that decides it. -/
theorem Ends.iff_of {Q R : α → State → Prop} {c : Prop} (h : p.Ends exec s Q) (hQ : ∀ a s', Q a s' → (R a s' ↔ c)) :
    p.Ends exec s R ↔ c := by
  constructor
  · intro hR
    obtain ⟨a, s', hq, hr⟩ := h.unique hR
    exact (hQ a s' hq).mp hr
  · intro hc
    exact h.mono fun a s' hq => (hQ a s' hq).mpr hc

/-- The same of the state a run leaves. -/
theorem Ends.run_iff_of {Q : α → State → Prop} {R : State → Prop} {c : Prop} (h : p.Ends exec s Q)
    (hQ : ∀ a s', Q a s' → (R s' ↔ c)) : R (p.run exec s).2 ↔ c := by
  obtain ⟨a, s', hr, hq⟩ := ends_iff_run.mp h
  rw [hr]
  exact hQ a s' hq

/-- A program that ends where less is answered ends alike where more is. -/
theorem Ends.extend {exec' : (o : Op) → State → Option (Res o × State)} {Q : α → State → Prop}
    (hle : ∀ o s x s', exec o s = some (x, s') → exec' o s = some (x, s')) (h : p.Ends exec s Q) : p.Ends exec' s Q := by
  induction p generalizing s with
  | ret a => exact h
  | op o k ih =>
    obtain ⟨x, s', hx, h⟩ := h
    exact ⟨x, s', hle o s x s' hx, ih x h⟩

/-- What is returned whatever the answers are, is returned at the end. -/
theorem Ends.of_returns {Q : α → State → Prop} {R : α → Prop} (h : p.Ends exec s Q) (hR : p.Returns R) :
    p.Ends exec s fun a s' => R a ∧ Q a s' := by
  induction p generalizing s with
  | ret a => exact ⟨hR, h⟩
  | op o k ih =>
    obtain ⟨x, s', hx, h⟩ := h
    exact ⟨x, s', hx, ih x h (hR x)⟩

/-- How a sequence ends. -/
theorem ends_bind {f : α → Prog Op Res β} {Q : β → State → Prop} :
    (p >>= f).Ends exec s Q ↔ p.Ends exec s fun a s' => (f a).Ends exec s' Q := by
  induction p generalizing s with
  | ret a => exact Iff.rfl
  | op o k ih =>
    constructor
    · rintro ⟨x, s', hx, h⟩
      exact ⟨x, s', hx, (ih x).mp h⟩
    · rintro ⟨x, s', hx, h⟩
      exact ⟨x, s', hx, (ih x).mpr h⟩

/-- The run of a sequence whose first part ends. -/
theorem Ends.run_bind {f : α → Prog Op Res β} {Q : α → State → Prop} (h : p.Ends exec s Q) :
    ∃ a s', Q a s' ∧ (p >>= f).run exec s = (f a).run exec s' := by
  induction p generalizing s with
  | ret a => exact ⟨a, s, h, rfl⟩
  | op o k ih =>
    obtain ⟨x, s', hx, h⟩ := h
    obtain ⟨a, s'', hQ, hrun⟩ := ih x h
    refine ⟨a, s'', hQ, ?_⟩
    rw [op_bind, run, hx]
    exact hrun

/-- A sequence ends when its first part does and the second one does from there. -/
theorem Ends.bind {f : α → Prog Op Res β} {Q : β → State → Prop} (h : p.Ends exec s fun a s' => (f a).Ends exec s' Q) :
    (p >>= f).Ends exec s Q := ends_bind.mpr h

/-- The same in two steps, by an end of the first part that is enough for the second. -/
theorem Ends.seq {f : α → Prog Op Res β} {R : α → State → Prop} {Q : β → State → Prop} (h : p.Ends exec s R)
    (hf : ∀ a s', R a s' → (f a).Ends exec s' Q) : (p >>= f).Ends exec s Q :=
  Ends.bind (h.mono hf)

/-- A loop whose body leads from `I` back to `I` keeps `I`. -/
theorem Ends.forM {I : State → Prop} {l : List β} {f : β → Prog Op Res Unit} (hs : I s)
    (hf : ∀ b ∈ l, ∀ s', I s' → (f b).Ends exec s' fun _ => I) : (l.forM f).Ends exec s fun _ => I := by
  induction l generalizing s with
  | nil => exact hs
  | cons b l ih =>
    refine Ends.seq (hf b (List.mem_cons_self ..) s hs) ?_
    intro _ s' hs'
    exact ih hs' fun c hc => hf c (List.mem_cons_of_mem _ hc)

/-- A program that keeps to operations which never wait and preserve `I` comes to an end, and preserves `I`. -/
theorem Ends.of_uses {S : Op → Prop} {I : State → Prop} (hS : ∀ o s, S o → I s → ∃ x s', exec o s = some (x, s') ∧ I s')
    (hp : p.Uses S) (hs : I s) : p.Ends exec s fun _ => I := by
  induction p generalizing s with
  | ret a => exact hs
  | op o k ih =>
    obtain ⟨x, s', hx, hs'⟩ := hS o s hp.1 hs
    exact ⟨x, s', hx, ih x (hp.2 x) hs'⟩

/-- A program takes only what it uses. -/
theorem Takes.of_uses {o : Op} {S : Op → Prop} (hp : p.Uses S) (h : p.Takes exec s o) : S o := by
  induction p generalizing s with
  | ret a => exact h.elim
  | op o' k ih =>
    rcases h with rfl | ⟨x, s', -, h⟩
    · exact hp.1
    · exact ih x (hp.2 x) h

/-- What the first part of a sequence takes, the sequence takes. -/
theorem Takes.left {o : Op} {f : α → Prog Op Res β} (h : p.Takes exec s o) : (p >>= f).Takes exec s o := by
  induction p generalizing s with
  | ret a => exact h.elim
  | op o' k ih =>
    rcases h with rfl | ⟨x, s', hx, h⟩
    · exact .inl rfl
    · exact .inr ⟨x, s', hx, ih x h⟩

/-- What the second part takes from an end of the first, the sequence takes. -/
theorem Takes.right {o : Op} {f : α → Prog Op Res β} (h : p.Ends exec s fun a s' => (f a).Takes exec s' o) :
    (p >>= f).Takes exec s o := by
  induction p generalizing s with
  | ret a => exact h
  | op o' k ih =>
    obtain ⟨x, s', hx, h⟩ := h
    exact .inr ⟨x, s', hx, ih x h⟩

/-- A sequence takes what its first part takes, or its second part from every end of the first. -/
theorem Takes.bind {o : Op} {f : α → Prog Op Res β} {Q : α → State → Prop} (h : (p >>= f).Takes exec s o)
    (hp : p.Ends exec s Q) : p.Takes exec s o ∨ ∃ a s', Q a s' ∧ (f a).Takes exec s' o := by
  induction p generalizing s with
  | ret a => exact .inr ⟨a, s, hp, h⟩
  | op o' k ih =>
    obtain ⟨x, s', hx, hp⟩ := hp
    rcases h with rfl | ⟨y, s'', hy, h⟩
    · exact .inl (.inl rfl)
    · rw [hx] at hy
      cases hy
      exact (ih x h hp).imp_left fun h => .inr ⟨x, s', hx, h⟩

/-- What always holds, holds wherever the program is stopped. -/
theorem Always.cut {I : State → Prop} (h : p.Always exec s I) (m : Nat) : I (p.cut exec m s) := by
  induction m generalizing p s with
  | zero => cases p with
    | ret a => exact h
    | op o k => exact h.1
  | succ m ih =>
    cases p with
    | ret a => exact h
    | op o k =>
      rw [Prog.cut]
      cases hx : exec o s with
      | none => exact h.1
      | some xs => exact ih (h.2 xs.1 xs.2 hx)

theorem Always.mono {I J : State → Prop} (h : p.Always exec s I) (hI : ∀ s, I s → J s) : p.Always exec s J := by
  induction p generalizing s with
  | ret a => exact hI s h
  | op o k ih => exact ⟨hI s h.1, fun x s' hx => ih x (h.2 x s' hx)⟩

/-- A sequence always satisfies `I` when its first part always satisfies something stronger, and the second one does from there. -/
theorem Always.seq {I J : State → Prop} {f : α → Prog Op Res β} (h : p.Always exec s J) (hJ : ∀ s, J s → I s)
    (hf : ∀ a s', J s' → (f a).Always exec s' I) : (p >>= f).Always exec s I := by
  induction p generalizing s with
  | ret a => exact hf a s h
  | op o k ih => exact ⟨hJ s h.1, fun x s' hx => ih x (h.2 x s' hx)⟩

/-- A program that keeps to operations which preserve `I` always satisfies `I`. -/
theorem Always.of_uses {S : Op → Prop} {I : State → Prop} (hS : ∀ o s x s', S o → I s → exec o s = some (x, s') → I s')
    (hp : p.Uses S) (hs : I s) : p.Always exec s I := by
  induction p generalizing s with
  | ret a => exact hs
  | op o k ih => exact ⟨hs, fun x s' hx => ih x (hp.2 x) (hS o s x s' hp.1 hs hx)⟩

end Holds

/-! ## Keeping a log -/

section Log

variable {State : Type} (exec : (o : Op) → State → Option (Res o × State))

/-- The same operations, with a log of those that were taken. -/
def logged (o : Op) (t : State × List Op) : Option (Res o × (State × List Op)) :=
  (exec o t.1).map fun xs => (xs.1, xs.2, t.2 ++ [o])

variable {exec}

theorem logged_eq_some {o : Op} {t t' : State × List Op} {x : Res o} (h : logged exec o t = some (x, t')) :
    exec o t.1 = some (x, t'.1) ∧ t'.2 = t.2 ++ [o] := by
  unfold logged at h
  obtain ⟨xs, hx, he⟩ := Option.map_eq_some_iff.mp h
  cases he
  exact ⟨hx, rfl⟩

end Log

end Prog

end Concurrent
