import UpdateEngine.Lemmas.FlowsAux

/-!
# A check beside running flows

`HandleCheckResult` is guarded by a test of the stored status (`HasUndoneTask`), which an accepted flow has not written yet. So a
check result can clear what an accepted download or installation works on. It cannot when no check result passes the test while such
a flow is under way, and no flow is accepted while a check result is being processed.
-/

namespace UpdateEngine

open Concurrent

/-- A flow that has been accepted and has not completed. -/
def State.underWay (s : State) (f : Nat) : Bool := (s.journals f).admitted && (s.journals f).completed = 0

/-- The operations of `ClearFirmwareInfo` that empty the tables and the package directory. -/
def Op.clears : Op → Bool
  | .deleteTasks | .deleteComponents | .deleteDownloadFiles => true
  | _ => false

/-- No check is about to clear anything while a thread of an accepted flow is at work. -/
def ChecksKeepFlows (c : Config) : Prop :=
  ∀ f, (c.next (.checkExecutor f)).any Op.clears = true → ∀ m, c.live m = true → c.state.underWay m.flow = false

/-- A check result passes the test for undone tasks only when no thread of an accepted flow is at work, and a flow is accepted only
when no check result is being processed. -/
def checksApart (c : Config) : Action → Bool
  | .start _ => true
  | .run n _ => match c.next n with
    | some (.queryTasks .hasUndoneTask) =>
      (c.state.status.any fun t => t.isUndone) || c.all fun m => !c.state.underWay m.flow
    | some o => !StepAux.admits c.state o || c.all fun m => !(c.state.journals m.flow).processing
    | none => true

namespace CheckAux

open StepAux FlowsAux

/-- A check executor whose result has passed the test for undone tasks. -/
def handling : Role → Bool
  | .processing | .cleared => true
  | _ => false

/-- A check result that has passed the test is noted, and excludes the threads of accepted flows. -/
structure Apart (s : State) (ρ : Thread → Option Role) : Prop where
  noted : ∀ n r, ρ n = some r → handling r = true → (s.journals n.flow).processing = true
  apart : ∀ n r m r', ρ n = some r → handling r = true → ρ m = some r' → s.underWay m.flow = false

/-- An accepted flow was accepted before, or has just read its status. -/
theorem underWay_after {n : Thread} {s : State} {o : Op} {x : o.Res} {f : Nat} (h : (o.after n s x).underWay f = true) :
    s.underWay f = true ∨ admits s o = true := by
  simp only [State.underWay, after_journals] at h ⊢
  split at h
  · simp only [noteOf_admitted, Bool.and_eq_true, Bool.or_eq_true, decide_eq_true_eq] at h ⊢
    obtain ⟨h | h, hc⟩ := h
    · have := noteOf_completed s o (s.journals f)
      exact .inl ⟨h, by omega⟩
    · exact .inr h
  · exact .inl h

/-- A thread comes to handle a check result by passing the test. -/
theorem handling_next {P : Platform} {n : Thread} {r : Role} {o : Op} {x : o.Res} (ha : Outline.allowed P n r o)
    (h : handling (Outline.next n r o x) = true) :
    (handling r = true ∧ ∀ s, processes s o = none) ∨
      o = .queryTasks .hasUndoneTask ∧ ∀ a s, o.answer n a s = some x → (s.status.any fun t => t.isUndone) = false := by
  rcases next_cases ha x with ⟨w, -, hn⟩ | ⟨hm, hn⟩ | ⟨-, hmove, hn⟩
  · rw [hn] at h
    cases h
  · rw [hn] at h
    refine .inl ⟨h, fun s => ?_⟩
    cases o with
    | queryTasks c => cases c <;> first | rfl | cases hm
    | enter m => cases m <;> first | rfl | cases hm
    | _ => rfl
  · rw [hn] at h
    cases hmove with
    | downloadMode hd =>
      simp only [Outline.nextRole, Outline.decide] at h
      split at h <;> cases h
    | installApplyMode hr ho =>
      simp only [Outline.nextRole, Outline.decide] at h
      split at h <;> cases h
    | hasUndoneTask =>
      refine .inr ⟨rfl, fun a s hx => ?_⟩
      obtain rfl : s.tasks = x := Option.some.inj hx
      simp only [Outline.nextRole] at h
      split at h
      · cases h
      · rename_i hu
        simpa [status_any] using hu
    | clear hd => cases r <;> first | exact .inl ⟨rfl, fun _ => rfl⟩ | cases h
    | record hc => cases r <;> first | exact .inl ⟨rfl, fun _ => rfl⟩ | cases h
    | step hs => cases r <;> first | exact .inl ⟨rfl, fun _ => rfl⟩ | cases h
    | clearing hcl =>
      rw [nextRole_clearing hcl] at h
      cases h
    | callback | components | start | handled | perform | performEnd => cases h

/-- Whether a check result is being processed is changed by the check executor of the flow alone. -/
theorem checkExecutor_of_processes {P : Platform} {n : Thread} {r : Role} {s : State} {o : Op}
    (ha : Outline.allowed P n r o) (hp : plays n r = true) (h : processes s o ≠ none) : n = .checkExecutor n.flow := by
  have hr : r = .checking ∨ r = .processing ∨ r = .cleared := by
    cases o with
    | queryTasks c => cases c <;> first | exact .inl ha | exact absurd rfl h
    | enter m => cases m <;> first | exact .inr ha | exact absurd rfl h
    | _ => exact absurd rfl h
  rcases hr with rfl | rfl | rfl <;> cases n <;> first | rfl | cases hp

theorem checkExecutor_of_handling {n : Thread} {r : Role} (hp : plays n r = true) (h : handling r = true) :
    n = .checkExecutor n.flow := by
  cases r <;> first | (cases h; done) | (cases n <;> first | rfl | cases hp)

/-- A check executor clears something only while it handles a check result. -/
theorem handling_of_clears {P : Platform} {f : Nat} {r : Role} {o : Op} (hp : plays (.checkExecutor f) r = true)
    (ha : Outline.allowed P (.checkExecutor f) r o) (ho : o.clears = true) : handling r = true := by
  have hr : r.drops ∨ r.sweeps := by
    cases o <;> first | exact .inl ha | exact .inr ha | cases ho
  cases r <;> first | rfl | (cases hp; done) | (rcases hr with hr | hr <;> cases hr)

theorem not_handling_entry (n : Thread) : handling (Outline.entry n) = false := by
  cases n <;> rfl

/-- A start keeps the invariant: a request comes with a new flow, a callback into a flow that has a thread at work. -/
theorem apart_start {s s' : State} {ρ : Thread → Option Role} {n : Thread} (hF : Flows s ρ) (hJ : Apart s ρ)
    (hs : starts n s = some s') : Apart s' (Function.update ρ n (some (Outline.entry n))) := by
  have hjournals : s'.journals = s.journals := by
    rcases starts_cases hs with ⟨-, rfl, -⟩ | ⟨rfl, -, -⟩ <;> rfl
  have hold {k : Thread} {r : Role} (hk : Function.update ρ n (some (Outline.entry n)) k = some r) (hh : handling r = true) :
      ρ k = some r := by
    rcases Protocol.role_update hk with ⟨rfl, rfl⟩ | ⟨-, hk⟩
    · exact absurd hh (by simp [not_handling_entry])
    · exact hk
  refine ⟨fun k r hk hh => ?_, fun k r m r' hk hh hm => ?_⟩
  · rw [hjournals]
    exact hJ.noted k r (hold hk hh) hh
  · simp only [State.underWay, hjournals]
    rcases Protocol.role_update hm with ⟨rfl, -⟩ | ⟨-, hm⟩
    · rcases starts_cases hs with ⟨hf, -, -⟩ | ⟨-, -, hc, -⟩
      · rw [(hF.fresh m.flow (Nat.le_of_eq hf.symm)).2]
        rfl
      · obtain ⟨l, hl, hlf⟩ := hF.captured m.flow hc
        rw [← hlf]
        exact hJ.apart k r l _ (hold hk hh) hh hl
    · exact hJ.apart k r m r' (hold hk hh) hh hm

/-- An operation keeps the invariant. -/
theorem apart_run {P : Platform} {c : Config} {ρ : Thread → Option Role} {n : Thread} {r : Role} {o : Op} {x : o.Res}
    {a : Answer} (hρ : (outline P).Tracks c ρ) (hF : Flows c.state ρ) (hJ : Apart c.state ρ)
    (hok : checksApart c (.run n a) = true) (hn : c.next n = some o) (hr : ρ n = some r) (ha : Outline.allowed P n r o)
    (hx : o.answer n a c.state = some x) :
    Apart (o.after n c.state x) (Function.update ρ n (some (Outline.next n r o x))) := by
  have hlive {m : Thread} {r' : Role} (hm : ρ m = some r') : c.live m = true := (hρ.live_iff m).mpr (by simp [hm])
  -- a thread that handles a check result was doing so before, or has just passed the test
  have hold {k : Thread} {r' : Role} (hk : Function.update ρ n (some (Outline.next n r o x)) k = some r')
      (hh : handling r' = true) :
      (∃ r'', ρ k = some r'' ∧ handling r'' = true ∧ (k = n → ∀ s, processes s o = none)) ∨
        (k = n ∧ o = .queryTasks .hasUndoneTask ∧ (c.state.status.any fun t => t.isUndone) = false) := by
    rcases Protocol.role_update hk with ⟨rfl, rfl⟩ | ⟨hkn, hk⟩
    · rcases handling_next ha hh with ⟨hh, ho⟩ | ⟨ho, hu⟩
      · exact .inl ⟨r, hr, hh, fun _ => ho⟩
      · exact .inr ⟨rfl, ho, hu a c.state hx⟩
    · exact .inl ⟨r', hk, hh, fun h => absurd h hkn⟩
  have hlives {m : Thread} {r' : Role} (hm : Function.update ρ n (some (Outline.next n r o x)) m = some r') :
      ∃ r'', ρ m = some r'' := by
    rcases Protocol.role_update hm with ⟨rfl, -⟩ | ⟨-, hm⟩
    · exact ⟨r, hr⟩
    · exact ⟨r', hm⟩
  refine ⟨fun k r' hk hh => ?_, fun k r' m r'' hk hh hm => ?_⟩
  · rw [after_journals]
    rcases hold hk hh with ⟨rk, hk, hhk, hp⟩ | ⟨rfl, rfl, hu⟩
    · split
      · rename_i hkf
        rw [noteOf_processing]
        cases hpo : processes c.state o with
        | none => exact hJ.noted k rk hk hhk
        | some b =>
          have hkn : k = n :=
            calc k = .checkExecutor k.flow := checkExecutor_of_handling (hF.plays k rk hk) hhk
              _ = .checkExecutor n.flow := congrArg _ hkf
              _ = n := (checkExecutor_of_processes ha (hF.plays n r hr) (hpo ▸ Option.some_ne_none b)).symm
          rw [hp hkn] at hpo
          cases hpo
      · exact hJ.noted k rk hk hhk
    · rw [if_pos rfl, noteOf_processing]
      simp [processes, hu]
  · obtain ⟨rm, hm'⟩ := hlives hm
    by_contra hw
    rcases underWay_after (Bool.not_eq_false _ ▸ hw) with hw' | hadm
    · rcases hold hk hh with ⟨rk, hk, hhk, -⟩ | ⟨rfl, rfl, hu⟩
      · exact absurd (hJ.apart k rk m rm hk hhk hm') (by simp [hw'])
      · simp only [checksApart, hn, hu, Bool.false_or] at hok
        exact absurd (Config.all_eq_true.mp hok m (hlive hm')) (by simp [hw'])
    · rcases hold hk hh with ⟨rk, hk, hhk, -⟩ | ⟨rfl, rfl, hu⟩
      · have hall : (c.all fun m => !(c.state.journals m.flow).processing) = true := by
          cases o with
          | queryTasks caller => cases caller <;> first | simpa [checksApart, hn, hadm] using hok | simp [admits, Caller.admits] at hadm
          | _ => cases hadm
        exact absurd (Config.all_eq_true.mp hall k (hlive hk)) (by simp [hJ.noted k rk hk hhk])
      · simp [admits, Caller.admits] at hadm

/-- Starting an executor keeps the invariant: it works for the flow of the thread that starts it. -/
theorem apart_spawn {P : Platform} {s : State} {ρ : Thread → Option Role} {n m : Thread} {r : Role} (hJ : Apart s ρ)
    (hr : ρ n = some r) (ha : Outline.allowed P n r (.spawn m)) :
    Apart s (Function.update (Function.update ρ n (some (Outline.next n r (.spawn m) ()))) m (some (Outline.entry m))) := by
  have hold {k : Thread} {r' : Role}
      (hk : Function.update (Function.update ρ n (some (Outline.next n r (.spawn m) ()))) m (some (Outline.entry m)) k = some r')
      (hh : handling r' = true) : ρ k = some r' := by
    rcases Protocol.role_update hk with ⟨rfl, rfl⟩ | ⟨-, hk⟩
    · exact absurd hh (by simp [not_handling_entry])
    · rcases Protocol.role_update hk with ⟨rfl, rfl⟩ | ⟨-, hk⟩
      · rcases handling_next ha hh with ⟨hh', -⟩ | ⟨ho, -⟩
        · rcases ha with ⟨rfl, -⟩ | ⟨_, _, _, _, _, _, -, rfl, -⟩ <;> cases hh'
        · cases ho
      · exact hk
  refine ⟨fun k r' hk hh => hJ.noted k r' (hold hk hh) hh, fun k r' l r'' hk hh hl => ?_⟩
  rcases Protocol.role_update hl with ⟨rfl, -⟩ | ⟨-, hl⟩
  · rw [(spawns_cases ha).1]
    exact hJ.apart k r' n r (hold hk hh) hh hr
  · rcases Protocol.role_update hl with ⟨rfl, -⟩ | ⟨-, hl⟩
    · exact hJ.apart k r' l r (hold hk hh) hh hr
    · exact hJ.apart k r' l r'' (hold hk hh) hh hl

/-- On the runs `checksApart` allows, `Apart` is an invariant. -/
theorem invariant (P : Platform) (d : Store) : Invariant P d (fun c a => checksApart c a = true) Apart where
  init := ⟨fun _ _ h => (by cases h), fun _ _ _ _ h => (by cases h)⟩
  start := fun _ _ _ _ _ hF hJ _ _ hs => apart_start hF hJ hs
  run := fun _ _ _ _ _ _ _ hρ hF hJ hok hn hr ha _ _ hx _ => apart_run hρ hF hJ hok hn hr ha hx
  spawn := fun _ _ _ _ _ _ _ _ hJ _ _ hr ha _ _ => apart_spawn hJ hr ha
  retire := fun s ρ n r hJ hr hf =>
    ⟨fun m r' hm => hJ.noted m r' (Protocol.role_retire hm).2,
      fun m r' k r'' hm hh hk => hJ.apart m r' k r'' (Protocol.role_retire hm).2 hh (Protocol.role_retire hk).2⟩

end CheckAux

open CheckAux in
/-- On every run on which check results are kept apart from accepted flows, no check clears anything while a thread of an accepted
flow is at work. -/
theorem checks_keep_flows (P : Platform) (d : Store) {c : Config}
    (h : Reach (machine P) (fun c a => checksApart c a = true) d.boot c) : ChecksKeepFlows c := by
  obtain ⟨ρ, hρ, hF, hJ⟩ := (invariant P d).holds h
  intro f hf m hm
  obtain ⟨r', hr'⟩ := Option.isSome_iff_exists.mp ((hρ.live_iff m).mp hm)
  cases ho : c.next (.checkExecutor f) with
  | none => simp [ho] at hf
  | some o =>
    have hc : o.clears = true := by simpa [ho] using hf
    obtain ⟨r, hr, ha⟩ := hρ.allowed ho
    exact hJ.apart _ r m r' hr (handling_of_clears (hF.plays _ r hr) ha hc) hr'

/-- A version with one package has been found. -/
def oneVersion : Store where
  tasks := [{ taskId := "task", status := .checkVersionSuccess }]
  components := [{ url := "url", spath := "/data/package", size := 1, status := .checkVersionSuccess }]

/-- A check starts its executor. -/
def checkStarted : List Action :=
  .start (.checkNewVersion 1) :: Thread.steps (.checkNewVersion 1) 5 ++ .run (.checkNewVersion 1) (.int 0) ::
    Thread.steps (.checkNewVersion 1) 2

/-- A download starts its executor. -/
def downloadStarted (f : Nat) : List Action :=
  .start (.download f {}) :: Thread.steps (.download f {}) 6 ++ .run (.download f {}) (.space 10) ::
    Thread.steps (.download f {}) 2

/-- The executor of the check comes to empty the task table. -/
def checkClears : List Action :=
  .run (.checkExecutor 1) (.bool true) :: .run (.checkExecutor 1) (.text (some noVersionText)) ::
    Thread.steps (.checkExecutor 1) 8

/-- Alone, a check may clear. -/
theorem checks_keep_flows_alone : ∃ c, Reach (machine .device) (fun c a => checksApart c a = true) oneVersion.boot c ∧
    (c.next (.checkExecutor 1)).any Op.clears = true ∧ ChecksKeepFlows c := by
  have h : ((machine .device).follow checksApart (connected ++ checkStarted ++ checkClears) oneVersion.boot).any
      (fun c => (c.next (.checkExecutor 1)).any Op.clears) = true := by decide
  obtain ⟨c, hc, hp⟩ := Reach.exists_of_follow h
  exact ⟨c, hc, hp, checks_keep_flows .device oneVersion hc⟩

/-- A check that answers while an accepted download has not written its status yet clears the tables below it. -/
theorem check_clears_accepted_download :
    ¬ ∀ c, Reach (machine .device) (fun _ _ => True) oneVersion.boot c → ChecksKeepFlows c := by
  intro hall
  have h : ((machine .device).follow (fun _ _ => true) (connected ++ checkStarted ++ downloadStarted 2 ++ checkClears)
      oneVersion.boot).any (fun c => (c.next (.checkExecutor 1)).any Op.clears && c.live (.downloadExecutor 2 {}) &&
        c.state.underWay 2) = true := by decide
  obtain ⟨c, hc, hp⟩ := Reach.exists_of_follow h
  simp only [Bool.and_eq_true] at hp
  have hkeep := hall c (hc.mono fun _ _ _ => trivial) 1 hp.1.1 _ hp.1.2
  exact absurd hp.2 (by simpa [Thread.flow] using hkeep)

end UpdateEngine
