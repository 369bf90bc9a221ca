import UpdateEngine.Concurrent.Machine

/-!
# Machines with a clock

A machine that is run in time: every operation is taken at a time that is told with the answer of the environment and is no earlier
than that of the operation before, an operation that asks for the time is answered with it, and what has happened at which time may be
noted. Without the times and the notes the run is one of the machine itself (`Reach.untimed`).
-/

namespace Concurrent

variable {Op : Type} {Res : Op → Type} {State Answer Name Notes : Type}

/-- The state of a machine, the time of its last operation, and what was noted. -/
structure Timed (State Notes : Type) where
  state : State
  clock : Int
  notes : Notes

/-- A machine in time: `fits` says which answers a time allows, `note` what is noted of an operation. -/
def Machine.timed (M : Machine Op Res State Answer Name) (fits : (o : Op) → Res o → Int → Bool)
    (note : Name → (o : Op) → Res o → Int → Notes → Notes) : Machine Op Res (Timed State Notes) (Answer × Int) Name where
  body := M.body
  exec := fun n o a s =>
    if s.clock ≤ a.2 then (M.exec n o a.1 s.state).bind fun xs =>
      if fits o xs.1 a.2 then some (xs.1, ⟨xs.2, a.2, note n o xs.1 a.2 s.notes⟩) else none
    else none
  spawns := M.spawns
  joins := M.joins
  starts := fun n s => (M.starts n s.state).map fun s' => { s with state := s' }

variable {M : Machine Op Res State Answer Name} {fits : (o : Op) → Res o → Int → Bool}
  {note : Name → (o : Op) → Res o → Int → Notes → Notes}

/-- What an operation does in time. -/
theorem timed_exec {n : Name} {o : Op} {a : Answer × Int} {s s' : Timed State Notes} {x : Res o}
    (h : (M.timed fits note).exec n o a s = some (x, s')) :
    s.clock ≤ a.2 ∧ fits o x a.2 = true ∧ s'.clock = a.2 ∧ s'.notes = note n o x a.2 s.notes ∧
      M.exec n o a.1 s.state = some (x, s'.state) := by
  obtain ⟨hclock, h⟩ := Option.ite_none_right_eq_some.mp h
  obtain ⟨⟨y, t⟩, hx, h⟩ := Option.bind_eq_some_iff.mp h
  obtain ⟨hfits, h⟩ := Option.ite_none_right_eq_some.mp h
  cases h
  exact ⟨hclock, hfits, rfl, rfl, hx⟩

/-- What a start does: the clock and the notes stay. -/
theorem timed_starts {n : Name} {s s' : Timed State Notes} (h : (M.timed fits note).starts n s = some s') :
    M.starts n s.state = some s'.state ∧ s'.clock = s.clock ∧ s'.notes = s.notes := by
  obtain ⟨t, ht, rfl⟩ := Option.map_eq_some_iff.mp h
  exact ⟨ht, rfl, rfl⟩

/-- A configuration without the times. -/
def Config.untimed (c : Config Op Res (Timed State Notes) Name) : Config Op Res State Name := ⟨c.state.state, c.pool⟩

/-- Without the times a run is one of the machine itself. -/
theorem Reach.untimed [DecidableEq Name] {ok : Config Op Res (Timed State Notes) Name → Action (Answer × Int) Name → Prop}
    {c₀ c : Config Op Res (Timed State Notes) Name} (h : Reach (M.timed fits note) ok c₀ c) :
    Reach M (fun _ _ => True) c₀.untimed c.untimed := by
  induction h with
  | refl => exact .refl
  | @step c c' a _ _ hs ih =>
    cases a with
    | start n =>
      obtain ⟨hn, s, hst, rfl⟩ := step_start hs
      exact .step ih trivial (start_step hn (timed_starts hst).1)
    | run n a =>
      obtain ⟨o, k, x, s, hf, hj, hsp, hx, rfl⟩ := step_run hs
      obtain ⟨-, -, -, -, hx⟩ := timed_exec hx
      have hstep := @run_step _ _ _ _ _ _ M c.untimed n a.1 o k x s.state hf hj hsp hx
      exact .step ih trivial hstep

end Concurrent
