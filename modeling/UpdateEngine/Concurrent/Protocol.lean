import Mathlib.Logic.Function.Basic
import UpdateEngine.Concurrent.Machine

/-!
# Protocols: invariants of a pool from the parts its threads play

An invariant of a pool speaks about the shared state and about where each thread stands. Where a thread stands is written here as
a role: a protocol says which operations a role allows, which answers it expects, and which role an answer leads to. That a
thread's text keeps to its role (`Protocol.Spec`) is proved once for each function of the text, whatever the other threads do;
that the invariant makes the answers expected, and survives one operation of one thread, is proved once for each operation.
`Simulation.invariant` joins the two: on every run the invariant holds of the state and the roles.
-/

namespace Concurrent

/-- Which operations the role of a thread allows, which answers it expects, what they make of the role, and in which roles a thread
may end. -/
structure Protocol (Op : Type) (Res : Op → Type) (Name Role : Type) where
  entry : Name → Role
  allowed : Name → Role → Op → Prop
  expects : Name → Role → (o : Op) → Res o → Prop
  next : Name → Role → (o : Op) → Res o → Role
  final : Role → Prop

variable {Op : Type} {Res : Op → Type} {State Answer Name Role : Type} {α β : Type}

namespace Protocol

variable (P : Protocol Op Res Name Role)

/-- The text keeps to the role it starts in, and ends with a result and a role that satisfy `Q`. -/
def Spec (n : Name) : Prog Op Res α → Role → (α → Role → Prop) → Prop
  | .ret a, r, Q => Q a r
  | .op o k, r, Q => P.allowed n r o ∧ ∀ x, P.expects n r o x → Spec n (k x) (P.next n r o x) Q

/-- The text keeps to the role it starts in, and ends in a role it may end in. -/
def Conforms (n : Name) (p : Prog Op Res Unit) (r : Role) : Prop := P.Spec n p r fun _ r' => P.final r'

variable {P} {n : Name}

@[simp] theorem spec_ret (a : α) (r : Role) (Q : α → Role → Prop) : P.Spec n (.ret a) r Q ↔ Q a r := Iff.rfl

@[simp] theorem spec_op (o : Op) (k : Res o → Prog Op Res α) (r : Role) (Q : α → Role → Prop) :
    P.Spec n (.op o k) r Q ↔ P.allowed n r o ∧ ∀ x, P.expects n r o x → P.Spec n (k x) (P.next n r o x) Q := Iff.rfl

/-- A weaker end. -/
theorem Spec.mono {p : Prog Op Res α} {r : Role} {Q Q' : α → Role → Prop} (h : P.Spec n p r Q)
    (hQ : ∀ a r', Q a r' → Q' a r') : P.Spec n p r Q' := by
  induction p generalizing r with
  | ret a => exact hQ a r h
  | op o k ih => exact ⟨h.1, fun x hx => ih x (h.2 x hx)⟩

/-- A sequence keeps to the role when its first part does and the second one does from every end of the first. -/
theorem Spec.bind {p : Prog Op Res α} {f : α → Prog Op Res β} {r : Role} {Q : β → Role → Prop}
    (h : P.Spec n p r fun a r' => P.Spec n (f a) r' Q) : P.Spec n (p >>= f) r Q := by
  induction p generalizing r with
  | ret a => exact h
  | op o k ih => exact ⟨h.1, fun x hx => ih x (h.2 x hx)⟩

/-- The same in two steps, by an end of the first part that is enough for the second. -/
theorem Spec.seq {p : Prog Op Res α} {f : α → Prog Op Res β} {r : Role} {Q' : α → Role → Prop} {Q : β → Role → Prop}
    (h : P.Spec n p r Q') (hf : ∀ a r', Q' a r' → P.Spec n (f a) r' Q) : P.Spec n (p >>= f) r Q :=
  Spec.bind (h.mono hf)

/-- A loop whose body leads from `I` back to `I` keeps `I`. -/
theorem Spec.forM {I : Role → Prop} {l : List β} {f : β → Prog Op Res Unit} {r : Role} (hr : I r)
    (hf : ∀ b ∈ l, ∀ r', I r' → P.Spec n (f b) r' fun _ => I) : P.Spec n (l.forM f) r fun _ => I := by
  induction l generalizing r with
  | nil => exact hr
  | cons b l ih =>
    exact Spec.seq (hf b (List.mem_cons_self ..) r hr) fun _ r' hr' =>
      ih hr' fun c hc => hf c (List.mem_cons_of_mem _ hc)

/-- Operations that a role allows and that leave it as it is are no business of the protocol: a text that asks for nothing else
keeps the role. -/
theorem Spec.of_uses {S : Op → Prop} {r : Role} (hS : ∀ o, S o → P.allowed n r o ∧ ∀ x, P.next n r o x = r)
    {p : Prog Op Res α} (hp : p.Uses S) : P.Spec n p r fun _ r' => r' = r := by
  induction p with
  | ret a => rfl
  | op o k ih =>
    refine ⟨(hS o hp.1).1, fun x _ => ?_⟩
    rw [(hS o hp.1).2 x]
    exact ih x (hp.2 x)

/-- The same with what is known of the result. -/
theorem Spec.of_returns {S : Op → Prop} {R : α → Prop} {r : Role}
    (hS : ∀ o, S o → P.allowed n r o ∧ ∀ x, P.next n r o x = r) {p : Prog Op Res α} (hp : p.Uses S) (hR : p.Returns R) :
    P.Spec n p r fun a r' => R a ∧ r' = r := by
  induction p with
  | ret a => exact ⟨hR, rfl⟩
  | op o k ih =>
    refine ⟨(hS o hp.1).1, fun x _ => ?_⟩
    rw [(hS o hp.1).2 x]
    exact ih x (hp.2 x) (hR x)

/-- The same before a continuation. -/
theorem Spec.skip {S : Op → Prop} {r : Role} (hS : ∀ o, S o → P.allowed n r o ∧ ∀ x, P.next n r o x = r)
    {p : Prog Op Res α} (hp : p.Uses S) {f : α → Prog Op Res β} {Q : β → Role → Prop} (hf : ∀ a, P.Spec n (f a) r Q) :
    P.Spec n (p >>= f) r Q := by
  refine Spec.seq (Spec.of_uses hS hp) fun a r' hr' => ?_
  subst hr'
  exact hf a

/-! ### Keeping a set of roles -/

/-- From each role of a set, the text keeps to it and ends in a role of the set. -/
def Keeps (P : Protocol Op Res Name Role) (n : Name) (I : Role → Prop) (p : Prog Op Res α) : Prop :=
  ∀ r, I r → P.Spec n p r fun _ r' => I r'

variable {I : Role → Prop}

theorem keeps_ret (a : α) : P.Keeps n I (.ret a) := fun _ hr => hr

theorem Keeps.op {o : Op} {k : Res o → Prog Op Res α} (ho : ∀ r, I r → P.allowed n r o ∧ ∀ x, I (P.next n r o x))
    (hk : ∀ x, P.Keeps n I (k x)) : P.Keeps n I (.op o k) :=
  fun r hr => ⟨(ho r hr).1, fun x _ => hk x _ ((ho r hr).2 x)⟩

theorem Keeps.bind {p : Prog Op Res α} {f : α → Prog Op Res β} (hp : P.Keeps n I p) (hf : ∀ a, P.Keeps n I (f a)) :
    P.Keeps n I (p >>= f) :=
  fun r hr => Spec.seq (hp r hr) fun a r' hr' => hf a r' hr'

theorem keeps_forM {l : List β} {f : β → Prog Op Res Unit} (hf : ∀ b ∈ l, P.Keeps n I (f b)) : P.Keeps n I (l.forM f) :=
  fun _ hr => Spec.forM hr fun b hb r' hr' => hf b hb r' hr'

/-- Operations that each role of the set allows, and that lead to a role of the set. -/
theorem Keeps.of_uses {S : Op → Prop} (hS : ∀ o, S o → ∀ r, I r → P.allowed n r o ∧ ∀ x, I (P.next n r o x))
    {p : Prog Op Res α} (hp : p.Uses S) : P.Keeps n I p := by
  induction p with
  | ret a => exact keeps_ret a
  | op o k ih => exact Keeps.op (hS o hp.1) fun x => ih x (hp.2 x)

/-- A text that keeps a set of roles a thread may end in keeps to its role. -/
theorem Keeps.conforms {p : Prog Op Res Unit} (hp : P.Keeps n I p) {r : Role} (hr : I r) (hI : ∀ r, I r → P.final r) :
    P.Conforms n p r :=
  Spec.mono (hp r hr) fun _ r' => hI r'

end Protocol

/-! ## The roles of a configuration -/

section Tracks

variable [DecidableEq Name]

/-- The roles `ρ` fit the threads: a live thread has a role its remaining text keeps to, any other name has none. -/
def Protocol.Tracks (P : Protocol Op Res Name Role) (c : Config Op Res State Name) (ρ : Name → Option Role) : Prop :=
  ∀ n, match c.pool.find n with
    | some (.op o k) => ∃ r, ρ n = some r ∧ P.Conforms n (.op o k) r
    | _ => ρ n = none

variable {P : Protocol Op Res Name Role} {c : Config Op Res State Name} {ρ : Name → Option Role}

/-- A live thread has a role that allows what it does next. -/
theorem Protocol.Tracks.role (h : P.Tracks c ρ) {n : Name} {o : Op} {k : Res o → Prog Op Res Unit}
    (hf : c.pool.find n = some (.op o k)) :
    ∃ r, ρ n = some r ∧ P.allowed n r o ∧ ∀ x, P.expects n r o x → P.Conforms n (k x) (P.next n r o x) := by
  have hn := h n
  rw [hf] at hn
  obtain ⟨r, hr, hc⟩ := hn
  exact ⟨r, hr, hc.1, hc.2⟩

/-- The role of a thread that is about to take an operation allows it. -/
theorem Protocol.Tracks.allowed (h : P.Tracks c ρ) {n : Name} {o : Op} (ho : c.next n = some o) :
    ∃ r, ρ n = some r ∧ P.allowed n r o := by
  unfold Config.next at ho
  split at ho
  · rename_i o' k hf
    cases ho
    obtain ⟨r, hr, ha, -⟩ := h.role hf
    exact ⟨r, hr, ha⟩
  · exact absurd ho (by simp)

/-- The live threads are those with a role. -/
theorem Protocol.Tracks.live_iff (h : P.Tracks c ρ) (n : Name) : c.live n = true ↔ (ρ n).isSome := by
  have hn := h n
  unfold Config.live Config.next
  split
  · rename_i o k hf
    rw [hf] at hn
    obtain ⟨r, hr, -⟩ := hn
    simp [hr]
  · rename_i hf
    have : ρ n = none := by
      split at hn
      · rename_i o k hf'
        exact absurd hf' (hf o k)
      · exact hn
    simp [this]

/-- A name without a role is not live. -/
theorem Protocol.Tracks.eq_none (h : P.Tracks c ρ) {n : Name} (hn : c.live n = false) : ρ n = none := by
  cases hρ : ρ n with
  | none => rfl
  | some r => exact absurd ((h.live_iff n).mpr (by simp [hρ])) (by simp [hn])

/-- A name that was not started has no role. -/
theorem Protocol.Tracks.eq_none_of_not_started (h : P.Tracks c ρ) {n : Name} (hn : c.started n = false) : ρ n = none := by
  refine h.eq_none ?_
  unfold Config.started at hn
  unfold Config.live Config.next
  cases hf : c.pool.find n with
  | none => rfl
  | some p => simp [hf] at hn

variable (M : Machine Op Res State Answer Name)

/-- The roles once an operation has started the thread it starts. -/
def Protocol.spawn (P : Protocol Op Res Name Role) (o : Op) (ρ : Name → Option Role) : Name → Option Role :=
  match M.spawns o with
  | some m => Function.update ρ m (some (P.entry m))
  | none => ρ

/-- A role among updated ones is the new one, or an old one. -/
theorem Protocol.role_update {ρ : Name → Option Role} {n m : Name} {r r' : Role}
    (h : Function.update ρ n (some r) m = some r') : (m = n ∧ r' = r) ∨ (m ≠ n ∧ ρ m = some r') := by
  by_cases hm : m = n
  · subst hm
    exact .inl ⟨rfl, by simpa using h.symm⟩
  · exact .inr ⟨hm, by simpa [Function.update_of_ne hm] using h⟩

/-- A role after an operation is that of the thread it started, that of its own thread, or an old one. -/
theorem Protocol.role_spawn {ρ : Name → Option Role} {o : Op} {n m : Name} {r r' : Role}
    (h : P.spawn M o (Function.update ρ n (some r)) m = some r') :
    (M.spawns o = some m ∧ r' = P.entry m) ∨ (m = n ∧ r' = r) ∨ (m ≠ n ∧ ρ m = some r') := by
  cases hs : M.spawns o with
  | none =>
    simp only [Protocol.spawn, hs] at h
    exact .inr (Protocol.role_update h)
  | some m' =>
    simp only [Protocol.spawn, hs] at h
    rcases Protocol.role_update h with ⟨rfl, rfl⟩ | ⟨-, h⟩
    · exact .inl ⟨rfl, rfl⟩
    · exact .inr (Protocol.role_update h)

/-- A thread that is not started keeps the role it has. -/
theorem Protocol.spawn_apply {ρ : Name → Option Role} {o : Op} {m : Name} (h : M.spawns o ≠ some m) : P.spawn M o ρ m = ρ m := by
  cases hs : M.spawns o with
  | none => simp only [Protocol.spawn, hs]
  | some k =>
    simp only [Protocol.spawn, hs]
    refine Function.update_of_ne ?_ ..
    rintro rfl
    exact h hs

/-- A role that is left after a thread lost its own is an old one. -/
theorem Protocol.role_retire {ρ : Name → Option Role} {n m : Name} {r : Role} (h : Function.update ρ n none m = some r) :
    m ≠ n ∧ ρ m = some r := by
  by_cases hm : m = n
  · subst hm
    simp at h
  · exact ⟨hm, by simpa [Function.update_of_ne hm] using h⟩

/-- Replacing what is left of a thread gives it the role its text keeps to, or none if it has come to its end. -/
theorem Protocol.Tracks.put (h : P.Tracks c ρ) {n : Name} {p : Prog Op Res Unit} {r : Role} (hp : P.Conforms n p r)
    (s : State) : P.Tracks ⟨s, c.pool.put n p⟩ (Function.update ρ n (if p.isRet then none else some r)) := by
  intro m
  simp only [Pool.find_put]
  by_cases hm : m = n
  · subst hm
    cases p with
    | ret a => simp [Prog.isRet]
    | op o k => simpa [Prog.isRet] using hp
  · simpa [hm, Function.update_of_ne hm] using h m

end Tracks

/-! ## Invariants -/

section Simulation

variable [DecidableEq Name]

/-- What makes `J`, said of the state and the roles, an invariant of every run from `s₀` whose steps `ok` allows: the texts of the
threads that can occur keep to their roles; `J` holds at first and makes the answers expected; starting a thread keeps it, an
operation that its role allows keeps it, and so does a thread coming to its end. -/
structure Simulation (M : Machine Op Res State Answer Name) (P : Protocol Op Res Name Role)
    (ok : Config Op Res State Name → Action Answer Name → Prop) (s₀ : State)
    (J : State → (Name → Option Role) → Prop) where
  occurs : Name → Prop
  occurs_start : ∀ c n, ok c (.start n) → occurs n
  occurs_spawn : ∀ n r o m, occurs n → P.allowed n r o → M.spawns o = some m → occurs m
  conforms : ∀ n, occurs n → P.Conforms n (M.body n) (P.entry n)
  init : J s₀ fun _ => none
  start : ∀ (c : Config Op Res State Name) ρ n s, P.Tracks c ρ → J c.state ρ → ok c (.start n) → ρ n = none →
    c.started n = false → M.starts n c.state = some s → J s (Function.update ρ n (some (P.entry n)))
  expected : ∀ (c : Config Op Res State Name) ρ n r o x a s, P.Tracks c ρ → J c.state ρ → occurs n → ok c (.run n a) →
    c.next n = some o → ρ n = some r → P.allowed n r o → M.exec n o a c.state = some (x, s) → P.expects n r o x
  run : ∀ (c : Config Op Res State Name) ρ n r o x a s, P.Tracks c ρ → J c.state ρ → occurs n → ok c (.run n a) →
    c.next n = some o → ρ n = some r → P.allowed n r o → (∀ m, M.joins o = some m → ρ m = none) →
    (∀ m, M.spawns o = some m → m ≠ n ∧ c.started m = false) → M.exec n o a c.state = some (x, s) → P.expects n r o x →
    J s (P.spawn M o (Function.update ρ n (some (P.next n r o x))))
  retire : ∀ s ρ n r, J s ρ → ρ n = some r → P.final r → J s (Function.update ρ n none)

variable {M : Machine Op Res State Answer Name} {P : Protocol Op Res Name Role}
  {ok : Config Op Res State Name → Action Answer Name → Prop} {s₀ : State} {J : State → (Name → Option Role) → Prop}

/-- Giving a thread that has come to its end no role keeps the invariant. -/
theorem Simulation.retire_if (S : Simulation M P ok s₀ J) {s : State} {ρ : Name → Option Role} {n : Name} {r : Role}
    {p : Prog Op Res Unit} (hp : P.Conforms n p r) (h : J s (Function.update ρ n (some r))) :
    J s (Function.update ρ n (if p.isRet then none else some r)) := by
  cases p with
  | op o k => exact h
  | ret a => simpa [Prog.isRet] using S.retire s _ n r h (Function.update_self ..) hp

/-- On every run from an empty pool there are roles that fit the threads, and the invariant holds of the state and the roles. -/
theorem Simulation.invariant (S : Simulation M P ok s₀ J) {c : Config Op Res State Name}
    (h : Reach M ok ⟨s₀, []⟩ c) : (∃ ρ, P.Tracks c ρ ∧ J c.state ρ) ∧ ∀ n, c.started n = true → S.occurs n := by
  induction h with
  | refl => exact ⟨⟨fun _ => none, fun n => rfl, S.init⟩, fun n hn => absurd hn (by simp [Config.started, Pool.find])⟩
  | step h hok hs ih =>
    rename_i c c' a
    obtain ⟨⟨ρ, hρ, hJ⟩, hocc⟩ := ih
    cases a with
    | start n =>
      obtain ⟨hn, s, hst, rfl⟩ := step_start hs
      have hon : S.occurs n := S.occurs_start c n hok
      refine ⟨⟨_, hρ.put (S.conforms n hon) s, S.retire_if (S.conforms n hon) ?_⟩, fun m hm => ?_⟩
      · exact S.start c ρ n s hρ hJ hok (hρ.eq_none_of_not_started hn) hn hst
      · simp only [Config.started, Pool.find_put] at hm
        split at hm
        · rename_i hmn
          exact hmn ▸ hon
        · exact hocc m hm
    | run n b =>
      obtain ⟨o, k, x, s, hf, hj, hsp, hx, rfl⟩ := step_run hs
      obtain ⟨r, hr, ha, hk⟩ := hρ.role hf
      have hnext : c.next n = some o := by simp [Config.next, hf]
      have hon : S.occurs n := hocc n (by simp [Config.started, hf])
      have hne : ∀ m, M.spawns o = some m → m ≠ n := by
        intro m hm hmn
        have := hsp m hm
        simp [Config.started, hmn, hf] at this
      have he := S.expected c ρ n r o x b s hρ hJ hon hok hnext hr ha hx
      have hJ' := S.run c ρ n r o x b s hρ hJ hon hok hnext hr ha (fun m hm => hρ.eq_none (hj m hm))
        (fun m hm => ⟨hne m hm, hsp m hm⟩) hx he
      have hput := hρ.put (hk x he) s
      cases hm : M.spawns o with
      | none =>
        simp only [Protocol.spawn, hm] at hJ'
        refine ⟨⟨_, by simpa [Machine.spawn, hm] using hput, S.retire_if (hk x he) hJ'⟩, fun m hms => ?_⟩
        simp only [Machine.spawn, hm, Config.started, Pool.find_put] at hms
        split at hms
        · rename_i hmn
          exact hmn ▸ hon
        · exact hocc m hms
      | some m =>
        have hom : S.occurs m := S.occurs_spawn n r o m hon ha hm
        simp only [Protocol.spawn, hm] at hJ'
        refine ⟨⟨_, by simpa [Machine.spawn, hm] using hput.put (S.conforms m hom) s, S.retire_if (S.conforms m hom) ?_⟩,
          fun l hl => ?_⟩
        · rw [Function.update_comm (hne m hm).symm] at hJ' ⊢
          exact S.retire_if (hk x he) hJ'
        · simp only [Machine.spawn, hm, Config.started, Pool.find_put] at hl
          split at hl
          · rename_i hlm
            exact hlm ▸ hom
          · split at hl
            · rename_i hln
              exact hln ▸ hon
            · exact hocc l hl

/-- What follows from the invariant when a thread comes to its end, and then stays, holds of every thread that has ended. -/
theorem Simulation.ended (S : Simulation M P ok s₀ J) {F : State → Name → Prop}
    (hend : ∀ s ρ n r, J s ρ → ρ n = some r → P.final r → F s n)
    (hstart : ∀ n s s' m, M.starts n s = some s' → F s m → F s' m)
    (hkeep : ∀ n o a s (x : Res o) s' m, M.exec n o a s = some (x, s') → F s m → F s' m) {c : Config Op Res State Name}
    (h : Reach M ok ⟨s₀, []⟩ c) {n : Name} (hstarted : c.started n = true) (hlive : c.live n = false) : F c.state n := by
  have hret {p : Prog Op Res Unit} {r : Role} {n : Name} {s : State} {l : Pool Op Res Name} (hp : P.Conforms n p r)
      (hf : l.find n = some p) (hlive : (⟨s, l⟩ : Config Op Res State Name).live n = false) : P.final r := by
    cases p with
    | ret a => exact hp
    | op o k => exact absurd (Config.live_of_find (c := ⟨s, l⟩) hf) (by simp [hlive])
  induction h generalizing n with
  | refl => exact absurd hstarted (by simp [Config.started, Pool.find])
  | step h hok hs ih =>
    rename_i c c' a
    obtain ⟨⟨ρ, hρ, hJ⟩, hocc⟩ := S.invariant h
    -- a thread that is left alone has ended before
    have hold {m : Name} (hfind : c'.pool.find m = c.pool.find m) (hm : c'.started m = true) (hl : c'.live m = false) : F c.state m := by
      refine ih ?_ ?_
      · rwa [Config.started, hfind] at hm
      · rwa [Config.live, Config.next, hfind] at hl
    cases a with
    | start m =>
      obtain ⟨hm, s, hst, rfl⟩ := step_start hs
      have hom := S.occurs_start c m hok
      by_cases hnm : n = m
      · subst hnm
        have hfinal := hret (S.conforms n hom) (Pool.find_put_self ..) hlive
        exact hend s _ n _ (S.start c ρ n s hρ hJ hok (hρ.eq_none_of_not_started hm) hm hst) (Function.update_self ..) hfinal
      · exact hstart m c.state s n hst (hold (Pool.find_put_of_ne _ hnm _) hstarted hlive)
    | run m b =>
      obtain ⟨o, k, x, s, hf, hj, hsp, hx, rfl⟩ := step_run hs
      obtain ⟨r, hr, ha, hk⟩ := hρ.role hf
      have hnext : c.next m = some o := by simp [Config.next, hf]
      have hom : S.occurs m := hocc m (by simp [Config.started, hf])
      have hne : ∀ l, M.spawns o = some l → l ≠ m := by
        intro l hl hlm
        have := hsp l hl
        simp [Config.started, hlm, hf] at this
      have he := S.expected c ρ m r o x b s hρ hJ hom hok hnext hr ha hx
      have hJ' := S.run c ρ m r o x b s hρ hJ hom hok hnext hr ha (fun l hl => hρ.eq_none (hj l hl))
        (fun l hl => ⟨hne l hl, hsp l hl⟩) hx he
      by_cases hspawned : M.spawns o = some n
      · have hfind : (M.spawn o (c.pool.put m (k x))).find n = some (M.body n) := by simp [Machine.spawn, hspawned]
        have hfinal := hret (S.conforms n (S.occurs_spawn m r o n hom ha hspawned)) hfind hlive
        exact hend s _ n _ hJ' (by simp [Protocol.spawn, hspawned]) hfinal
      · have hspawn : (M.spawn o (c.pool.put m (k x))).find n = (c.pool.put m (k x)).find n := by
          unfold Machine.spawn
          split
          · rename_i l hl
            refine Pool.find_put_of_ne _ ?_ _
            rintro rfl
            exact hspawned hl
          · rfl
        by_cases hnm : n = m
        · subst hnm
          have hfinal := hret (hk x he) (hspawn.trans (Pool.find_put_self ..)) hlive
          refine hend s _ n _ hJ' ?_ hfinal
          rw [Protocol.spawn_apply M hspawned]
          exact Function.update_self ..
        · exact hkeep m o b c.state x s n hx (hold (hspawn.trans (Pool.find_put_of_ne _ hnm _)) hstarted hlive)

/-- What makes `J` an invariant on top of `J₀`, which makes the answers expected, on the runs a stronger condition allows. -/
structure Extension (M : Machine Op Res State Answer Name) (P : Protocol Op Res Name Role) (s₀ : State)
    (J₀ : State → (Name → Option Role) → Prop) (ok : Config Op Res State Name → Action Answer Name → Prop)
    (J : State → (Name → Option Role) → Prop) : Prop where
  init : J s₀ fun _ => none
  start : ∀ (c : Config Op Res State Name) ρ n s, P.Tracks c ρ → J₀ c.state ρ → J c.state ρ → ok c (.start n) → ρ n = none →
    M.starts n c.state = some s → J s (Function.update ρ n (some (P.entry n)))
  run : ∀ (c : Config Op Res State Name) ρ n r o x a s, P.Tracks c ρ → J₀ c.state ρ → J c.state ρ → ok c (.run n a) →
    c.next n = some o → ρ n = some r → P.allowed n r o → (∀ m, M.joins o = some m → ρ m = none) →
    (∀ m, M.spawns o = some m → m ≠ n ∧ c.started m = false) → M.exec n o a c.state = some (x, s) → P.expects n r o x →
    J s (P.spawn M o (Function.update ρ n (some (P.next n r o x))))
  retire : ∀ s ρ n r, J s ρ → ρ n = some r → P.final r → J s (Function.update ρ n none)

/-- Both invariants together. -/
def Simulation.extend (S : Simulation M P ok s₀ J) {ok' : Config Op Res State Name → Action Answer Name → Prop}
    {J' : State → (Name → Option Role) → Prop} (hok : ∀ c a, ok' c a → ok c a) (E : Extension M P s₀ J ok' J') :
    Simulation M P ok' s₀ fun s ρ => J s ρ ∧ J' s ρ where
  occurs := S.occurs
  occurs_start := fun c n h => S.occurs_start c n (hok _ _ h)
  occurs_spawn := S.occurs_spawn
  conforms := S.conforms
  init := ⟨S.init, E.init⟩
  start := fun c ρ n s hρ hJ h hn hc hs =>
    ⟨S.start c ρ n s hρ hJ.1 (hok _ _ h) hn hc hs, E.start c ρ n s hρ hJ.1 hJ.2 h hn hs⟩
  expected := fun c ρ n r o x a s hρ hJ ho h => S.expected c ρ n r o x a s hρ hJ.1 ho (hok _ _ h)
  run := fun c ρ n r o x a s hρ hJ ho h hn hr ha hj hsp hx he =>
    ⟨S.run c ρ n r o x a s hρ hJ.1 ho (hok _ _ h) hn hr ha hj hsp hx he,
      E.run c ρ n r o x a s hρ hJ.1 hJ.2 h hn hr ha hj hsp hx he⟩
  retire := fun s ρ n r hJ hr hf => ⟨S.retire s ρ n r hJ.1 hr hf, E.retire s ρ n r hJ.2 hr hf⟩

end Simulation

end Concurrent
