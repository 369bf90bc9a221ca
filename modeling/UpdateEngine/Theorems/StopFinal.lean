import UpdateEngine.Engine.ProgressThread

/-!
# Whether a stop is final

`StopProgress` wakes the thread and takes an exit back: a thread that waits is not stopped by it but started. A stop is final where the
thread is executing and is not kept afterwards, or has left its loop, or does not exist.
-/

namespace UpdateEngine.ProgressThread

open Concurrent

/-- No execution has begun after a `StopDownload` returned, before the next `StartDownload` was in its section. -/
def StopFinal (s : State) : Prop := s.history.late = false

/-- Whether the thread has the wait, or its last test of the flags, before an execution. -/
def Position.canBegin : Position → Bool
  | .waits | .woken => true
  | .executes | .exits | .ended => false

/-- A stop is in its section only while the thread cannot begin an execution; and an execution that wants the thread kept does not come to
its end after a stop. -/
def settled (s : State) : Action → Bool
  | .calls _ _ => true
  | .goesOn n _ => s.calls n ≠ some .stopProgress || !s.pDealThread.any (·.canBegin)
  | .thread keep => !(keep && s.pDealThread = some .executes) || s.history.stops.isEmpty

namespace StopAux

/-- Since a stop was in its section the thread cannot begin an execution; one that has returned was in its section; and no execution was
late. -/
structure Quiet (s : State) : Prop where
  idle : s.history.stops ≠ [] → s.pDealThread.any (·.canBegin) = false
  stops : s.history.stopped = true → s.history.stops ≠ []
  final : StopFinal s

variable {s s' : State} {n : Nat} {created keep : Bool} {t : Stage} {p : Position}

/-- The stage of a call is nothing to the invariant. -/
theorem Quiet.reaches (h : Quiet s) (n : Nat) (t : Stage) : Quiet (s.reaches n t) := ⟨h.idle, h.stops, h.final⟩

/-- A start forgets the calls so far, whether or not it gets a thread. -/
theorem startProgress_history (s : State) (created : Bool) :
    (s.startProgress created).history = { s.history with stops := [], stopped := false } := by
  cases hp : s.pDealThread with
  | some p => simp [State.startProgress, hp]
  | none => cases created <;> simp [State.startProgress, hp]

/-- The calls so far no longer count once a start is in its section. -/
theorem Quiet.startProgress (h : Quiet s) (created : Bool) : Quiet (s.startProgress created) := by
  have hfinal := h.final
  refine ⟨?_, ?_, ?_⟩
  · simp [startProgress_history]
  · simp [startProgress_history]
  · simpa [StopFinal, startProgress_history] using hfinal

/-- A stop is in its section. -/
theorem Quiet.stopProgress (h : Quiet s) (hidle : s.pDealThread.any (·.canBegin) = false) (n : Nat) : Quiet (s.stopProgress n) :=
  ⟨fun _ => hidle, fun _ => List.cons_ne_nil _ _, h.final⟩

/-- A stop returns: it counts only when no start came after its section. -/
theorem Quiet.stopReturns (h : Quiet s) (n : Nat) : Quiet (s.stopReturns n) := by
  refine ⟨h.idle, ?_, h.final⟩
  intro hstopped
  simp only [State.stopReturns, Bool.or_eq_true, List.contains_iff_mem] at hstopped
  rcases hstopped with hstopped | hmem
  · exact h.stops hstopped
  · exact List.ne_nil_of_mem hmem

/-- The thread is where it cannot begin an execution, or no stop came before. -/
theorem Quiet.moves (h : Quiet s) {s' : State} (hhistory : s'.history = s.history)
    (hidle : s.history.stops ≠ [] → s'.pDealThread.any (·.canBegin) = false) : Quiet s' := by
  refine ⟨?_, ?_, ?_⟩
  · rwa [hhistory]
  · rw [hhistory]
    exact h.stops
  · rw [StopFinal, hhistory]
    exact h.final

/-- The step of a call keeps the invariant. -/
theorem Quiet.goesOn (h : Quiet s) (hok : settled s (.goesOn n created) = true) (ht : s.calls n = some t)
    (hs : s.goesOn n created t = some s') : Quiet s' := by
  cases t with
  | startDownload =>
    obtain rfl := Option.some.inj hs
    have hcleared : Quiet { s with exitDownload := false } := h.moves rfl h.idle
    exact hcleared.reaches n _
  | stopDownload =>
    obtain rfl := Option.some.inj hs
    have hset : Quiet { s with exitDownload := true } := h.moves rfl h.idle
    exact hset.reaches n _
  | exitThread =>
    obtain rfl := Option.some.inj hs
    have hleft : Quiet s.exitThread := h.moves rfl h.idle
    exact hleft.reaches n _
  | startProgress =>
    obtain rfl := Option.some.inj hs
    exact (h.startProgress created).reaches n _
  | stopProgress =>
    obtain rfl := Option.some.inj hs
    have hidle : s.pDealThread.any (·.canBegin) = false := by simpa [settled, ht] using hok
    exact (h.stopProgress hidle n).reaches n _
  | stopReturns =>
    obtain rfl := Option.some.inj hs
    exact (h.stopReturns n).reaches n _
  | joins =>
    obtain ⟨-, hs⟩ := Option.ite_none_right_eq_some.mp hs
    obtain rfl := Option.some.inj hs
    exact h.reaches n _
  | deletes =>
    obtain ⟨-, hs⟩ := Option.ite_none_right_eq_some.mp hs
    obtain rfl := Option.some.inj hs
    have hdeleted : Quiet { s with pDealThread := none } := h.moves rfl fun _ => rfl
    exact hdeleted.reaches n _
  | returned => simp [State.goesOn] at hs

/-- The step of the thread keeps the invariant: where it can begin an execution, no stop came before. -/
theorem Quiet.threadStep (h : Quiet s) (hok : settled s (.thread keep) = true) (hp : s.pDealThread = some p)
    (hs : s.threadStep keep p = some s') : Quiet s' := by
  have hnone (hbegin : p.canBegin = true) : s.history.stops = [] := by
    by_contra hne
    have := h.idle hne
    simp [hp, hbegin] at this
  cases p with
  | waits =>
    obtain ⟨-, hs⟩ := Option.ite_none_left_eq_some.mp hs
    split at hs
    · obtain rfl := Option.some.inj hs
      exact h.moves rfl fun _ => rfl
    · obtain rfl := Option.some.inj hs
      exact h.moves rfl fun hne => absurd (hnone rfl) hne
  | woken =>
    obtain rfl := Option.some.inj hs
    refine ⟨fun _ => rfl, h.stops, ?_⟩
    have hstopped : s.history.stopped = false := by
      cases hst : s.history.stopped with
      | false => rfl
      | true => exact absurd (hnone rfl) (h.stops hst)
    have hfinal : s.history.late = false := h.final
    simp [StopFinal, State.beginsExecution, hstopped, hfinal]
  | executes =>
    obtain rfl := Option.some.inj hs
    refine h.moves rfl fun hne => ?_
    cases keep with
    | false => rfl
    | true => simp [settled, hp, hne] at hok
  | exits =>
    obtain rfl := Option.some.inj hs
    exact h.moves rfl fun _ => rfl
  | ended => simp [State.threadStep] at hs

/-- A step keeps the invariant. -/
theorem Quiet.step (h : Quiet s) {a : Action} (hok : settled s a = true) (hs : s.step a = some s') : Quiet s' := by
  cases a with
  | calls n f =>
    obtain ⟨-, hs⟩ := Option.ite_none_left_eq_some.mp hs
    obtain rfl := Option.some.inj hs
    exact h.reaches n _
  | goesOn n created =>
    obtain ⟨t, ht, hs⟩ := Option.bind_eq_some_iff.mp hs
    exact h.goesOn hok ht hs
  | thread keep =>
    obtain ⟨p, hp, hs⟩ := Option.bind_eq_some_iff.mp hs
    exact h.threadStep hok hp hs

theorem quiet_initial : Quiet {} := ⟨by simp, by simp, rfl⟩

/-- A call of `StartDownload`, from its beginning to its return, and one of `StopDownload`. -/
def starts (n : Nat) : List Action := [.calls n .startDownload, .goesOn n true, .goesOn n true]

def stops (n : Nat) : List Action := [.calls n .stopDownload, .goesOn n true, .goesOn n true, .goesOn n true]

end StopAux

open StopAux

/-- In every run in which a stop finds the thread executing, out of its loop or not there, and no execution that a stop has overtaken has
the thread kept, a stop is final. -/
theorem stop_final {s : State} (h : Leads State.step (fun s a => settled s a = true) {} s) : StopFinal s :=
  (Leads.invariant quiet_initial (fun _ _ _ hq hok hs => Quiet.step hq hok hs) h).final

/-- A stop comes while the thread executes. -/
theorem stop_final_executing : ∃ s, Leads State.step (fun s a => settled s a = true) {} s ∧ s.history.stopped = true ∧
    s.pDealThread = some .ended ∧ StopFinal s := by
  have h : (follow State.step settled (starts 0 ++ [.thread false, .thread false] ++ stops 1 ++ [.thread false]) {}).any
      (fun s => s.history.stopped && s.pDealThread = some .ended) = true := by decide
  obtain ⟨s, hs, hp⟩ := Leads.exists_of_follow h
  simp only [Bool.and_eq_true, decide_eq_true_eq] at hp
  exact ⟨s, hs, hp.1, hp.2, stop_final hs⟩

/-- An execution that failed has the thread kept; a stop then wakes it, and it executes again. -/
theorem stop_not_final : ¬ ∀ s, Leads State.step (fun _ _ => True) {} s → StopFinal s := by
  intro hall
  have h : (follow State.step (fun _ _ => true) (starts 0 ++ [.thread true, .thread true, .thread true] ++ stops 1 ++
      [.thread true, .thread true]) {}).any (·.history.late) = true := by decide
  obtain ⟨s, hs, hlate⟩ := Leads.exists_of_follow h
  have hfinal : s.history.late = false := hall s (hs.mono fun _ _ _ => trivial)
  rw [hlate] at hfinal
  cases hfinal

end UpdateEngine.ProgressThread
