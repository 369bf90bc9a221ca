import UpdateEngine.Concurrent.Prog

/-!
# Pools of threads

A machine runs named threads over one shared state. A thread is started by the environment (`Action.start`) or by an operation of
another thread (`Machine.spawns`); after that it takes one operation at a time (`Action.run`), in any order with the others, the
environment answering what the operation asks of it. An operation that joins a thread waits until that thread is not live. A run
is followed by `Reach`, which only takes steps a condition allows: with the condition `fun _ _ => True` it is every run.
-/

namespace Concurrent

/-- What a pool of threads is run on: the text of each thread, the effect of one operation taken by a thread (refused with
`none`), the thread an operation starts, the thread an operation waits for, and which threads the environment may start. -/
structure Machine (Op : Type) (Res : Op → Type) (State Answer Name : Type) where
  body : Name → Prog Op Res Unit
  exec : Name → (o : Op) → Answer → State → Option (Res o × State)
  spawns : Op → Option Name
  joins : Op → Option Name
  starts : Name → State → Option State

variable {Op : Type} {Res : Op → Type} {State Answer Name : Type} [DecidableEq Name]

/-! ## The pool -/

/-- The threads started so far, each with what is left of its text. -/
abbrev Pool (Op : Type) (Res : Op → Type) (Name : Type) := List (Name × Prog Op Res Unit)

namespace Pool

/-- What is left of a thread, when it was started. -/
def find (n : Name) : Pool Op Res Name → Option (Prog Op Res Unit)
  | [] => none
  | (m, p) :: l => if m = n then some p else find n l

/-- Replace what is left of a thread, or add the thread. -/
def put (n : Name) (p : Prog Op Res Unit) : Pool Op Res Name → Pool Op Res Name
  | [] => [(n, p)]
  | (m, q) :: l => if m = n then (n, p) :: l else (m, q) :: put n p l

theorem find_put (l : Pool Op Res Name) (n m : Name) (p : Prog Op Res Unit) :
    find m (put n p l) = if m = n then some p else find m l := by
  induction l with
  | nil =>
    by_cases h : m = n
    · subst h
      simp [put, find]
    · simp [put, find, h, Ne.symm h]
  | cons e l ih =>
    obtain ⟨k, q⟩ := e
    by_cases hk : k = n
    · subst hk
      by_cases h : m = k
      · subst h
        simp [put, find]
      · simp [put, find, h, Ne.symm h]
    · by_cases h : k = m
      · subst h
        simp [put, find, hk]
      · simp [put, find, hk, h, ih]

@[simp] theorem find_put_self (l : Pool Op Res Name) (n : Name) (p : Prog Op Res Unit) : find n (put n p l) = some p := by
  simp [find_put]

theorem find_put_of_ne (l : Pool Op Res Name) {n m : Name} (h : m ≠ n) (p : Prog Op Res Unit) :
    find m (put n p l) = find m l := by
  simp [find_put, h]

/-- A started thread is listed. -/
theorem mem_names_of_find {l : Pool Op Res Name} {n : Name} {p : Prog Op Res Unit} (h : find n l = some p) :
    n ∈ l.map Prod.fst := by
  induction l with
  | nil => exact absurd h (by simp [find])
  | cons e l ih =>
    obtain ⟨k, q⟩ := e
    by_cases hk : k = n
    · subst hk
      simp
    · simp only [find, if_neg hk] at h
      exact List.mem_cons_of_mem _ (ih h)

end Pool

/-! ## Configurations and steps -/

/-- The shared state and the threads. -/
structure Config (Op : Type) (Res : Op → Type) (State Name : Type) where
  state : State
  pool : Pool Op Res Name

/-- What can happen next: the environment starts a thread, or a thread takes its next operation with an answer. -/
inductive Action (Answer Name : Type) where
  | start (n : Name)
  | run (n : Name) (a : Answer)

namespace Config

variable (c : Config Op Res State Name)

/-- The operation a thread would take next. -/
def next (n : Name) : Option Op :=
  match c.pool.find n with
  | some (.op o _) => some o
  | _ => none

/-- Whether a thread was started and has not come to its end. -/
def live (n : Name) : Bool := (c.next n).isSome

/-- Whether a thread was started. -/
def started (n : Name) : Bool := (c.pool.find n).isSome

/-- The threads started so far. -/
def names : List Name := c.pool.map Prod.fst

theorem live_of_find {c : Config Op Res State Name} {n : Name} {o : Op} {k : Res o → Prog Op Res Unit}
    (h : c.pool.find n = some (.op o k)) : c.live n = true := by
  simp [live, next, h]

theorem find_of_live {c : Config Op Res State Name} {n : Name} (h : c.live n = true) :
    ∃ o k, c.pool.find n = some (.op o k) := by
  unfold live next at h
  split at h
  · exact ⟨_, _, ‹_›⟩
  · exact absurd h (by simp)

theorem mem_names_of_live {c : Config Op Res State Name} {n : Name} (h : c.live n = true) : n ∈ c.names := by
  obtain ⟨o, k, hf⟩ := find_of_live h
  exact Pool.mem_names_of_find hf

/-- Whether every live thread passes a test. -/
def all (p : Name → Bool) : Bool := c.names.all fun n => !c.live n || p n

theorem all_eq_true {c : Config Op Res State Name} {p : Name → Bool} :
    c.all p = true ↔ ∀ n, c.live n = true → p n = true := by
  simp only [all, List.all_eq_true, Bool.or_eq_true, Bool.not_eq_true']
  refine ⟨fun h n hn => (h n (mem_names_of_live hn)).resolve_left (by simp [hn]), fun h n _ => ?_⟩
  cases hn : c.live n with
  | true => exact .inr (h n hn)
  | false => exact .inl rfl

end Config

/-- A pool with the thread an operation starts added. -/
def Machine.spawn (M : Machine Op Res State Answer Name) (o : Op) (l : Pool Op Res Name) : Pool Op Res Name :=
  match M.spawns o with
  | some m => l.put m (M.body m)
  | none => l

/-- One step. A thread is started once; an operation that joins a thread waits for it, one that starts a thread needs a new
name. -/
def Machine.step (M : Machine Op Res State Answer Name) (c : Config Op Res State Name) :
    Action Answer Name → Option (Config Op Res State Name)
  | .start n => if c.started n then none else (M.starts n c.state).map fun s => ⟨s, c.pool.put n (M.body n)⟩
  | .run n a => match c.pool.find n with
    | some (.op o k) =>
      if (M.joins o).any c.live || (M.spawns o).any c.started then none
      else (M.exec n o a c.state).map fun xs => ⟨xs.2, M.spawn o (c.pool.put n (k xs.1))⟩
    | _ => none

section Steps

variable {M : Machine Op Res State Answer Name} {c c' : Config Op Res State Name} {n : Name} {a : Answer}

/-- What a start does. -/
theorem step_start (h : M.step c (.start n) = some c') :
    c.started n = false ∧ ∃ s, M.starts n c.state = some s ∧ c' = ⟨s, c.pool.put n (M.body n)⟩ := by
  simp only [Machine.step] at h
  split at h
  · exact absurd h (by simp)
  · rename_i hn
    obtain ⟨s, hs, rfl⟩ := Option.map_eq_some_iff.mp h
    exact ⟨by simpa using hn, s, hs, rfl⟩

/-- What an operation does: it is the thread's next one, the thread it joins is not live, the thread it starts is new, and the
rest is its effect. -/
theorem step_run (h : M.step c (.run n a) = some c') :
    ∃ o k x s, c.pool.find n = some (.op o k) ∧ (∀ m, M.joins o = some m → c.live m = false) ∧
      (∀ m, M.spawns o = some m → c.started m = false) ∧ M.exec n o a c.state = some (x, s) ∧
      c' = ⟨s, M.spawn o (c.pool.put n (k x))⟩ := by
  simp only [Machine.step] at h
  split at h
  · rename_i o k hf
    split at h
    · exact absurd h (by simp)
    · rename_i hjs
      obtain ⟨xs, hx, rfl⟩ := Option.map_eq_some_iff.mp h
      simp only [Bool.or_eq_true, not_or, Bool.not_eq_true] at hjs
      refine ⟨o, k, xs.1, xs.2, hf, ?_, ?_, hx, rfl⟩
      · intro m hm
        simpa [hm] using hjs.1
      · intro m hm
        simpa [hm] using hjs.2
  · exact absurd h (by simp)

/-- A start that is possible. -/
theorem start_step {s : State} (hn : c.started n = false) (hs : M.starts n c.state = some s) :
    M.step c (.start n) = some ⟨s, c.pool.put n (M.body n)⟩ := by
  rw [Machine.step, hn, hs]
  rfl

/-- An operation that is possible. -/
theorem run_step {o : Op} {k : Res o → Prog Op Res Unit} {x : Res o} {s : State} (hf : c.pool.find n = some (.op o k))
    (hj : ∀ m, M.joins o = some m → c.live m = false) (hsp : ∀ m, M.spawns o = some m → c.started m = false)
    (hx : M.exec n o a c.state = some (x, s)) : M.step c (.run n a) = some ⟨s, M.spawn o (c.pool.put n (k x))⟩ := by
  have hfree : ((M.joins o).any c.live || (M.spawns o).any c.started) = false := by
    rw [Bool.or_eq_false_iff]
    constructor
    · cases hm : M.joins o with
      | none => rfl
      | some m => exact hj m hm
    · cases hm : M.spawns o with
      | none => rfl
      | some m => exact hsp m hm
  rw [Machine.step, hf]
  dsimp only
  rw [hfree, hx]
  rfl

end Steps

/-! ## Runs -/

/-- The configurations reached from `c₀` by steps that `ok` allows. -/
inductive Reach (M : Machine Op Res State Answer Name) (ok : Config Op Res State Name → Action Answer Name → Prop)
    (c₀ : Config Op Res State Name) : Config Op Res State Name → Prop
  | refl : Reach M ok c₀ c₀
  | step {c c' : Config Op Res State Name} {a : Action Answer Name} (h : Reach M ok c₀ c) (hok : ok c a)
      (hs : M.step c a = some c') : Reach M ok c₀ c'

/-- Runs under a stronger condition are runs under a weaker one. -/
theorem Reach.mono {M : Machine Op Res State Answer Name} {ok ok' : Config Op Res State Name → Action Answer Name → Prop}
    {c₀ c : Config Op Res State Name} (hok : ∀ c a, ok c a → ok' c a) (h : Reach M ok c₀ c) : Reach M ok' c₀ c := by
  induction h with
  | refl => exact .refl
  | step _ hc hs ih => exact .step ih (hok _ _ hc) hs

/-- What holds in every configuration reached may be added to the condition. -/
theorem Reach.strengthen {M : Machine Op Res State Answer Name} {ok : Config Op Res State Name → Action Answer Name → Prop}
    {I : Config Op Res State Name → Prop} {c₀ c : Config Op Res State Name} (hI : ∀ c, Reach M ok c₀ c → I c)
    (h : Reach M ok c₀ c) : Reach M (fun c a => ok c a ∧ I c) c₀ c := by
  induction h with
  | refl => exact .refl
  | step h hc hs ih => exact .step ih ⟨hc, hI _ h⟩ hs

/-- Follow a list of actions, each of which has to be allowed and possible. -/
def Machine.follow (M : Machine Op Res State Answer Name) (ok : Config Op Res State Name → Action Answer Name → Bool) :
    List (Action Answer Name) → Config Op Res State Name → Option (Config Op Res State Name)
  | [], c => some c
  | a :: l, c => if ok c a then (M.step c a).bind (M.follow ok l) else none

/-- The actions of threads that take turns: the first turn of a thread starts it, unless it is started, and in every other one it
takes an operation, which the environment answers by `answers`. -/
def Machine.turns (M : Machine Op Res State Answer Name) (answers : Op → Answer) :
    List Name → Config Op Res State Name → List (Action Answer Name)
  | [], _ => []
  | n :: l, c =>
    let a : Action Answer Name := match c.next n with
      | some o => .run n (answers o)
      | none => .start n
    match M.step c a with
    | some c' => a :: M.turns answers l c'
    | none => [a]

/-- A list of actions that can be followed is a run. -/
theorem Reach.of_follow {M : Machine Op Res State Answer Name} {okb : Config Op Res State Name → Action Answer Name → Bool}
    {ok : Config Op Res State Name → Action Answer Name → Prop} (hok : ∀ c a, okb c a = true → ok c a)
    {c₀ c c' : Config Op Res State Name} (h₀ : Reach M ok c₀ c) {l : List (Action Answer Name)}
    (h : M.follow okb l c = some c') : Reach M ok c₀ c' := by
  induction l generalizing c with
  | nil =>
    cases h
    exact h₀
  | cons a l ih =>
    simp only [Machine.follow] at h
    split at h
    · rename_i ha
      obtain ⟨d, hd, hl⟩ := Option.bind_eq_some_iff.mp h
      exact ih (.step h₀ (hok c a ha) hd) hl
    · exact absurd h (by simp)

/-- When a list of actions can be followed to a configuration that passes a test, such a configuration is reached. -/
theorem Reach.exists_of_follow {M : Machine Op Res State Answer Name}
    {ok : Config Op Res State Name → Action Answer Name → Bool} {c₀ : Config Op Res State Name}
    {l : List (Action Answer Name)} {p : Config Op Res State Name → Bool} (h : (M.follow ok l c₀).any p = true) :
    ∃ c, Reach M (fun c a => ok c a = true) c₀ c ∧ p c = true := by
  cases hc : M.follow ok l c₀ with
  | none => simp [hc] at h
  | some c => exact ⟨c, .of_follow (fun _ _ h => h) .refl hc, by simpa [hc] using h⟩

end Concurrent
