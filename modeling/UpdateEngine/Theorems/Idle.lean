import UpdateEngine.Firmware.Lives
import UpdateEngine.Lemmas.CheckingAux
import UpdateEngine.Startup.Idle

/-!
# Unloading an idle service

A round of the looper unloads the service when it has found no client, no check and no task. A flow that is under way is interrupted
unless the round sees it: from its acceptance on, by the status or by its row, and no flow is accepted once the round has looked.
-/

namespace UpdateEngine.Idle

open Concurrent

/-- A round that reads the status while a check is under way finds the flag set, less than five minutes old; one that reads the task
table while another flow is under way finds a row; and one that unloads the service does so before another flow is accepted. -/
def accounted (c : Config) : Action → Bool
  | .start _ => true
  | .run n a => match n, c.next n with
    | .idleLoop _, some (.flow .getStatusCache) => !c.state.record.checks || c.state.service.isChecking
    | .idleLoop i, some (.flow (.ask .now)) => !c.state.record.checks || match a.flow with
      | .int now => c.state.record.readings.all fun e => e.1 ≠ i || (now - e.2).natAbs ≤ 300
      | _ => true
    | .idleLoop _, some (.flow (.queryTasks _)) => !c.state.record.others || !c.state.service.tasks.isEmpty
    | .idleLoop i, some (.startup .unloadSystemAbility) => c.state.record.current i
    | _, _ => true

/-- The service was unloaded only when no flow was under way. -/
def Record.Harmless (r : Record) : Prop := ∀ l ∈ r.unloads, l = []

namespace IdleAux

/-! ## The rounds -/

/-- How far a round has come: it has not found out about the checks, or has found that the service is not idle; it has read the
status; it knows of no check; nor of a task. -/
inductive Watch where
  | unaware
  | read (checking : Bool) (lastCheckTime : Int)
  | unchecked
  | idle

/-- Which operations a round may take when. -/
def allowed (r : Watch) : Op → Prop
  | .flow .getStatusCache => r = .unaware
  | .flow (.ask .now) => ∃ checking lastCheckTime, r = .read checking lastCheckTime
  | .flow (.queryTasks _) => r = .unchecked
  | .flow _ => False
  | .startup .unloadSystemAbility => r = .idle
  | _ => True

/-- What an answer leads to. -/
def next (r : Watch) (o : Op) (x : o.Res) : Watch :=
  match r, o, x with
  | .unaware, .flow .getStatusCache, (checking, lastCheckTime) =>
    if lastCheckTime = -1 then if checking then .unaware else .unchecked else .read checking lastCheckTime
  | .read checking lastCheckTime, .flow (.ask .now), now => if letsIn checking lastCheckTime now then .unchecked else .unaware
  | .unchecked, .flow (.queryTasks _), tasks => if tasks.isEmpty then .idle else .unaware
  | r, _, _ => r

/-- The rounds among the threads. -/
def watching : Protocol Op Op.Res Thread Watch where
  entry := fun _ => .unaware
  allowed := fun n r o => ∀ i, n = .idleLoop i → allowed r o
  expects := fun _ _ _ _ => True
  next := fun n r o x => match n with
    | .idleLoop _ => next r o x
    | _ => r
  final := fun _ => True

variable {P : Platform} {config : Startup.ScheduleConfig} {s s' : Process} {ρ : Thread → Option Watch} {n : Thread} {r r' : Watch}
  {i : Nat}

/-- A thread that is no round does what it likes. -/
theorem conforms_of_ne (hn : ∀ i, n ≠ .idleLoop i) (p : Prog Unit) (r : Watch) : watching.Conforms n p r := by
  induction p generalizing r with
  | ret a => trivial
  | op o k ih => exact ⟨fun i h => absurd h (hn i), fun x _ => ih x _⟩

/-- A round knows of no check, or is told that there is one. -/
theorem isChecking_spec : watching.Spec (.idleLoop i) (hosted FirmwareStatusCache.isChecking) .unaware fun b r =>
    r = if b then .unaware else .unchecked := by
  refine ⟨fun _ _ => rfl, fun x _ => ?_⟩
  obtain ⟨checking, lastCheckTime⟩ := x
  by_cases hlast : lastCheckTime = -1
  · subst hlast
    cases checking <;> rfl
  · have hread : watching.next (.idleLoop i) .unaware (.flow .getStatusCache) (checking, lastCheckTime) =
        .read checking lastCheckTime := if_neg hlast
    rw [hread]
    change watching.Spec _ (Prog.interp _ (if lastCheckTime ≠ -1 then _ else _)) _ _
    rw [if_pos hlast]
    refine ⟨fun _ _ => ⟨checking, lastCheckTime, rfl⟩, fun now _ => ?_⟩
    change watching.Spec _ (Prog.interp _ (if 300 < (now - lastCheckTime).natAbs then _ else _))
      (if letsIn checking lastCheckTime now then .unchecked else .unaware) _
    by_cases hold : 300 < (now - lastCheckTime).natAbs
    · simp [letsIn, hold]
    · cases checking <;> simp [letsIn, hold]

/-- A round finds the service idle only when it knows of no check and no task. -/
theorem isIdle_spec : watching.Spec (.idleLoop i) AccessManager.isIdle .unaware fun b r => b = true → r = .idle := by
  refine ⟨fun _ _ => trivial, fun remote _ => ?_⟩
  cases remote with
  | false => exact Bool.noConfusion
  | true =>
    change watching.Spec _ (hosted FirmwareManager.isIdle) .unaware _
    unfold hosted FirmwareManager.isIdle
    rw [Prog.interp_bind]
    refine Protocol.Spec.seq isChecking_spec ?_
    rintro b r rfl
    cases b with
    | true => exact Bool.noConfusion
    | false =>
      refine ⟨fun _ _ => rfl, fun tasks _ => ?_⟩
      cases tasks with
      | nil => exact fun _ => rfl
      | cons t l => exact Bool.noConfusion

/-- Every round. -/
theorem idleLoop_conforms (config : Startup.ScheduleConfig) (i : Nat) :
    watching.Conforms (.idleLoop i) ((Startup.StartupManager.idleLoop config).interp expand) .unaware := by
  have hcheck : watching.Spec (.idleLoop i) ((Startup.StartupManager.idleCheck config).interp expand) .unaware fun b r =>
      b = true → r = .idle := by
    refine ⟨fun _ _ => trivial, fun now _ => ⟨fun _ _ => trivial, fun last _ => ?_⟩⟩
    change watching.Spec _ (Prog.interp _ (if (now - last).natAbs < config.idleCheckInterval.toNat then _ else _)) .unaware _
    split
    · exact Bool.noConfusion
    · refine ⟨fun _ _ => trivial, fun _ _ => ⟨fun _ _ => trivial, fun _ _ => ?_⟩⟩
      change watching.Spec _ (AccessManager.isIdle >>= Prog.ret) _ _
      rw [Prog.bind_ret]
      exact isIdle_spec
  unfold Startup.StartupManager.idleLoop
  rw [Prog.interp_bind]
  refine Protocol.Spec.seq hcheck ?_
  intro idle r hr
  cases idle with
  | false => trivial
  | true =>
    obtain rfl := hr rfl
    refine ⟨fun _ _ => trivial, fun _ _ => ⟨fun _ _ => trivial, fun ret _ => ?_⟩⟩
    change watching.Spec _ (Prog.interp _ (if (!decide (ret = 0)) = true then _ else _)) .idle _
    split
    · trivial
    · exact ⟨fun _ _ => rfl, fun _ _ => trivial⟩

theorem conforms (P : Platform) (config : Startup.ScheduleConfig) (n : Thread) : watching.Conforms n (body P config n) .unaware := by
  cases n with
  | idleLoop i => exact idleLoop_conforms config i
  | flow n => exact conforms_of_ne (fun _ => Thread.noConfusion) _ _
  | client i b => exact conforms_of_ne (fun _ => Thread.noConfusion) _ _

/-! ## The invariant -/

/-- What a round that has come so far may rely on, as long as its reading is current. -/
def Entitled (k : Record) (i : Nat) : Watch → Prop
  | .unaware => True
  | .read checking lastCheckTime => k.current i = true → (i, lastCheckTime) ∈ k.readings ∧ (checking = false → k.checks = false)
  | .unchecked => k.current i = true → k.checks = false
  | .idle => k.current i = true → k.underWay = []

/-- What has happened and the rounds fit together. -/
structure Watches (s : Process) (ρ : Thread → Option Watch) : Prop where
  harmless : s.record.Harmless
  entitled : ∀ i r, ρ (.idleLoop i) = some r → Entitled s.record i r

/-- A reading that is current was so before; no flow was added since, and the reading is as it was. -/
def Fades (k k' : Record) (i : Nat) : Prop :=
  k'.current i = true → k.current i = true ∧ k'.underWay ⊆ k.underWay ∧ ∀ l, (i, l) ∈ k.readings → (i, l) ∈ k'.readings

theorem fades_refl (k : Record) (i : Nat) : Fades k k i := fun h => ⟨h, fun _ he => he, fun _ hl => hl⟩

theorem checks_of_subset {k k' : Record} (hk : k'.underWay ⊆ k.underWay) (h : k.checks = false) : k'.checks = false := by
  unfold Record.checks at h ⊢
  rw [List.any_eq_false] at h ⊢
  exact fun e he => h e (hk he)

theorem Entitled.mono {k k' : Record} (h : Entitled k i r) (hk : Fades k k' i) : Entitled k' i r := by
  cases r with
  | unaware => trivial
  | read checking lastCheckTime =>
    intro hc
    obtain ⟨hc, hu, hl⟩ := hk hc
    exact ⟨hl _ (h hc).1, fun hb => checks_of_subset hu ((h hc).2 hb)⟩
  | unchecked =>
    intro hc
    obtain ⟨hc, hu, -⟩ := hk hc
    exact checks_of_subset hu (h hc)
  | idle =>
    intro hc
    obtain ⟨hc, hu, -⟩ := hk hc
    exact List.eq_nil_of_subset_nil (h hc ▸ hu)

/-- One thread goes on. -/
theorem Watches.step (h : Watches s ρ) (hharmless : s'.record.Harmless) (hr' : ∀ i, n = .idleLoop i → Entitled s'.record i r')
    (hothers : ∀ i, n ≠ .idleLoop i → Fades s.record s'.record i) : Watches s' (Function.update ρ n (some r')) := by
  refine ⟨hharmless, fun i r₁ hi => ?_⟩
  rcases Protocol.role_update hi with ⟨hn, rfl⟩ | ⟨hn, hi⟩
  · exact hr' i hn.symm
  · exact (h.entitled i r₁ hi).mono (hothers i fun he => hn he.symm)

/-- A thread begins. -/
theorem Watches.begin (h : Watches s ρ) (hrecord : s'.record = s.record) (n : Thread) :
    Watches s' (Function.update ρ n (some .unaware)) := by
  refine h.step (by rw [hrecord]; exact h.harmless) (fun _ _ => trivial) fun i _ => ?_
  rw [hrecord]
  exact fades_refl s.record i

/-! ## Every operation -/

/-- A thread of a flow adds nothing, completes its flow, or has it accepted. -/
theorem ofFlow_cases (n : UpdateEngine.Thread) (k : Record) (o : UpdateEngine.Op) :
    k.ofFlow n o = k ∨ k.ofFlow n o = k.complete n.flow ∨
      ∃ step, k.ofFlow n o = { k with underWay := (n.flow, step) :: k.underWay, readings := [] } := by
  cases o with
  | setFlow u =>
    cases u with
    | nextStep step =>
      by_cases hstep : step = .complete
      · exact .inl (if_pos hstep)
      · exact .inr (.inr ⟨step, if_neg hstep⟩)
    | _ => exact .inl rfl
  | onCheckVersionDone => exact .inr (.inl rfl)
  | enter m =>
    cases m with
    | handleComplete =>
      by_cases hkind : n.kind = .check
      · exact .inl (if_pos hkind)
      · exact .inr (.inl (if_neg hkind))
    | _ => exact .inl rfl
  | _ => exact .inl rfl

/-- It adds no flow to a reading that stays current. -/
theorem fades_ofFlow (n : UpdateEngine.Thread) (k : Record) (o : UpdateEngine.Op) (i : Nat) : Fades k (k.ofFlow n o) i := by
  rcases ofFlow_cases n k o with h | h | ⟨step, h⟩
  · rw [h]
    exact fades_refl k i
  · rw [h]
    exact fun hc => ⟨hc, fun _ he => (List.mem_filter.mp he).1, fun _ hl => hl⟩
  · rw [h]
    exact Bool.noConfusion

theorem ofFlow_unloads (n : UpdateEngine.Thread) (k : Record) (o : UpdateEngine.Op) : (k.ofFlow n o).unloads = k.unloads := by
  rcases ofFlow_cases n k o with h | h | ⟨step, h⟩
  · rw [h]
  · rw [h]
    rfl
  · rw [h]

/-- What a thread of a flow does. -/
theorem Watches.of_flow (h : Watches s ρ) {t : UpdateEngine.Thread} {o : UpdateEngine.Op}
    (hrecord : s'.record = s.record.ofFlow t o) (r' : Watch) : Watches s' (Function.update ρ (.flow t) (some r')) := by
  refine h.step ?_ (fun _ => Thread.noConfusion) fun i _ => ?_
  · unfold Record.Harmless
    rw [hrecord, ofFlow_unloads]
    exact h.harmless
  · rw [hrecord]
    exact fades_ofFlow t s.record o i

/-- A round reads the status, which shows a check that is under way. -/
theorem Watches.of_read (h : Watches s ρ) {checking : Bool} {lastCheckTime : Int}
    (hok : s.record.checks = true → checking = true)
    (hrecord : s'.record = { s.record with readings := (i, lastCheckTime) :: s.record.readings }) :
    Watches s' (Function.update ρ (.idleLoop i)
      (some (next .unaware (.flow .getStatusCache) (checking, lastCheckTime)))) := by
  have hidle : checking = false → s'.record.checks = false := by
    rintro rfl
    rw [hrecord]
    exact Bool.eq_false_iff.mpr fun hc => Bool.noConfusion (hok hc)
  refine h.step (by rw [hrecord]; exact h.harmless) ?_ fun j hj => ?_
  · rintro j hj
    cases hj
    change Entitled _ _ (if lastCheckTime = -1 then if checking then .unaware else .unchecked else .read checking lastCheckTime)
    split
    · cases checking with
      | true => trivial
      | false => exact fun _ => hidle rfl
    · refine fun _ => ⟨?_, hidle⟩
      rw [hrecord]
      exact List.mem_cons_self ..
  · rw [hrecord]
    intro hc
    have hne : i ≠ j := fun he => hj (he ▸ rfl)
    refine ⟨?_, fun _ he => he, fun _ hl => List.mem_cons_of_mem _ hl⟩
    simpa [Record.current, hne] using hc

/-- A round that has read the status is told the time. -/
theorem Watches.of_now (h : Watches s ρ) {checking : Bool} {lastCheckTime now : Int}
    (hr : ρ (.idleLoop i) = some (.read checking lastCheckTime))
    (hok : s.record.checks = true → ∀ e ∈ s.record.readings, e.1 = i → (now - e.2).natAbs ≤ 300)
    (hrecord : s'.record = s.record) : Watches s' (Function.update ρ (.idleLoop i)
      (some (next (.read checking lastCheckTime) (.flow (.ask .now)) now))) := by
  refine h.step (by rw [hrecord]; exact h.harmless) ?_ fun j _ => by rw [hrecord]; exact fades_refl s.record j
  rintro j hj
  cases hj
  change Entitled _ _ (if letsIn checking lastCheckTime now then .unchecked else .unaware)
  split
  · rename_i hin
    rw [hrecord]
    intro hc
    obtain ⟨hread, hidle⟩ := h.entitled i _ hr hc
    cases checking with
    | false => exact hidle rfl
    | true =>
      refine Bool.eq_false_iff.mpr fun hchecks => ?_
      have hrecent := hok hchecks _ hread rfl
      simp only [letsIn, Bool.not_true, Bool.false_or, decide_eq_true_eq] at hin
      omega
  · trivial

/-- A round reads the task table, where every other flow has a row. -/
theorem Watches.of_tasks (h : Watches s ρ) {c : Caller} {tasks : List FirmwareTask} (hr : ρ (.idleLoop i) = some .unchecked)
    (hok : s.record.others = true → tasks.isEmpty = false) (hrecord : s'.record = s.record) :
    Watches s' (Function.update ρ (.idleLoop i) (some (next .unchecked (.flow (.queryTasks c)) tasks))) := by
  refine h.step (by rw [hrecord]; exact h.harmless) ?_ fun j _ => by rw [hrecord]; exact fades_refl s.record j
  rintro j hj
  cases hj
  change Entitled _ _ (if tasks.isEmpty then .idle else .unaware)
  split
  · rename_i hempty
    rw [hrecord]
    intro hc
    have hchecks := h.entitled i _ hr hc
    have hothers : s.record.others = false := Bool.eq_false_iff.mpr fun ho => by rw [hok ho] at hempty; cases hempty
    unfold Record.checks at hchecks
    unfold Record.others at hothers
    rw [List.any_eq_false] at hchecks hothers
    refine List.eq_nil_iff_forall_not_mem.mpr fun e he => ?_
    have hcheck := hchecks e he
    have hother := hothers e he
    simp only [decide_eq_true_eq, ne_eq, Decidable.not_not] at hcheck hother
    exact hcheck hother
  · trivial

/-- A round unloads the service, its reading being current. -/
theorem Watches.of_unload (h : Watches s ρ) (hr : ρ (.idleLoop i) = some .idle) (hok : s.record.current i = true)
    (hrecord : s'.record = { s.record with unloads := s.record.underWay :: s.record.unloads }) (r' : Watch) (hr' : r' = .idle) :
    Watches s' (Function.update ρ (.idleLoop i) (some r')) := by
  have hnone : s.record.underWay = [] := h.entitled i _ hr hok
  refine h.step ?_ ?_ fun j _ => ?_
  · intro l hl
    rw [hrecord] at hl
    rcases List.mem_cons.mp hl with rfl | hl
    · exact hnone
    · exact h.harmless l hl
  · rintro j -
    subst hr'
    rw [hrecord]
    exact fun _ => hnone
  · rw [hrecord]
    exact fun hc => ⟨hc, fun _ he => he, fun _ hl => hl⟩

/-- A round, or a client, does what concerns no flow. -/
theorem Watches.of_other (h : Watches s ρ) (hr : ρ n = some r) (hrecord : s'.record = s.record) :
    Watches s' (Function.update ρ n (some r)) := by
  refine h.step (by rw [hrecord]; exact h.harmless) ?_ fun j _ => by rw [hrecord]; exact fades_refl s.record j
  rintro j rfl
  rw [hrecord]
  exact h.entitled j r hr

/-- What a round does. -/
theorem round_watches {c : Config} {o : Op} {a : Answer} {x : o.Res} (h : Watches c.state ρ) (hr : ρ (.idleLoop i) = some r)
    (hn : c.next (.idleLoop i) = some o) (ha : allowed r o) (hok : accounted c (.run (.idleLoop i) a) = true)
    (hx : exec (.idleLoop i) o a c.state = some (x, s')) :
    Watches s' (Function.update ρ (.idleLoop i) (some (next r o x))) := by
  simp only [accounted, hn] at hok
  cases o with
  | flow o =>
    obtain ⟨-, hx⟩ := Option.ite_none_left_eq_some.mp hx
    obtain ⟨y, hanswer, hy⟩ := Option.map_eq_some_iff.mp hx
    cases hy
    cases o with
    | getStatusCache =>
      obtain rfl : r = .unaware := ha
      cases hanswer
      refine h.of_read ?_ rfl
      intro hchecks
      simpa [hchecks] using hok
    | queryTasks caller =>
      obtain rfl : r = .unchecked := ha
      cases hanswer
      refine h.of_tasks hr ?_ rfl
      intro hothers
      simpa [hothers] using hok
    | ask q =>
      cases q with
      | now =>
        obtain ⟨checking, lastCheckTime, rfl⟩ := ha
        refine h.of_now hr ?_ rfl
        intro hchecks e he hei
        simp only [hchecks, Bool.not_true, Bool.false_or] at hok
        split at hok
        · rename_i now hnow
          rw [hnow] at hanswer
          cases hanswer
          simpa [hei] using List.all_eq_true.mp hok e he
        · rename_i hnow
          cases hflow : a.flow with
          | int now => exact absurd hflow (hnow now)
          | _ =>
            rw [hflow] at hanswer
            cases hanswer
      | _ => exact ha.elim
    | _ => exact ha.elim
  | startup o =>
    obtain ⟨-, hx⟩ := Option.ite_none_left_eq_some.mp hx
    obtain ⟨y, -, hy⟩ := Option.map_eq_some_iff.mp hx
    cases hy
    cases o with
    | unloadSystemAbility =>
      obtain rfl : r = .idle := ha
      exact h.of_unload hr hok rfl _ rfl
    | _ =>
      cases r <;> exact h.of_other hr rfl
  | getRemoteIdle =>
    obtain ⟨-, hx⟩ := Option.ite_none_left_eq_some.mp hx
    cases hx
    cases r <;> exact h.of_other hr rfl
  | setRemoteIdle => cases hx

/-- An operation keeps the invariant. -/
theorem run_watches {c : Config} {o : Op} {a : Answer} {x : o.Res} (h : Watches c.state ρ) (hr : ρ n = some r)
    (hn : c.next n = some o) (ha : watching.allowed n r o) (hok : accounted c (.run n a) = true)
    (hx : exec n o a c.state = some (x, s')) : Watches s' (Function.update ρ n (some (watching.next n r o x))) := by
  cases n with
  | idleLoop i => exact round_watches h hr hn (ha i rfl) hok hx
  | flow t =>
    cases o with
    | flow o =>
      obtain ⟨y, -, hy⟩ := Option.map_eq_some_iff.mp hx
      cases hy
      exact h.of_flow rfl r
    | _ => cases hx
  | client j b =>
    cases o with
    | setRemoteIdle =>
      obtain ⟨-, hx⟩ := Option.ite_none_left_eq_some.mp hx
      cases hx
      exact h.of_other hr rfl
    | _ => cases hx

theorem watches_init (d : Store) : Watches (boot d).state fun _ => none where
  harmless := fun _ hl => by cases hl
  entitled := fun _ _ h => by cases h

/-- On runs whose flows are accounted for the invariant holds. -/
def simulation (P : Platform) (config : Startup.ScheduleConfig) (d : Store) :
    Simulation (machine P config) watching (fun c a => accounted c a = true) (boot d).state Watches where
  occurs := fun _ => True
  occurs_start := fun _ _ _ => trivial
  occurs_spawn := fun _ _ _ _ _ _ _ => trivial
  conforms := fun n _ => conforms P config n
  init := watches_init d
  start := fun c ρ n s hρ h _ _ _ hs => by
    cases n with
    | flow n =>
      obtain ⟨t, -, rfl⟩ := Option.map_eq_some_iff.mp hs
      refine h.begin ?_ _
      rfl
    | _ =>
      cases hs
      exact h.begin rfl _
  expected := fun _ _ _ _ _ _ _ _ _ _ _ _ _ _ _ _ => trivial
  run := fun c ρ n r o x a s hρ h _ hok hnext hr ha _ _ hx _ => by
    have hrun := run_watches h hr hnext ha hok hx
    unfold Protocol.spawn
    split
    · exact hrun.begin rfl _
    · exact hrun
  retire := fun s ρ n r h _ _ => ⟨h.harmless, fun i r' hi => h.entitled i r' (Protocol.role_retire hi).2⟩

end IdleAux

/-- As long as a flow that is under way shows in the status or in the task table whenever a round reads them, and none is accepted
between that and the exit, the service is unloaded only when no flow is under way. -/
theorem unloads_harmless (P : Platform) (config : Startup.ScheduleConfig) {d : Store} {c : Config}
    (h : Reach (machine P config) (fun c a => accounted c a = true) (boot d) c) : c.state.record.Harmless := by
  obtain ⟨⟨ρ, -, hJ⟩, -⟩ := (IdleAux.simulation P config d).invariant h
  exact hJ.harmless

/-! ## A check whose result is not stored yet -/

/-- A thread is started, and takes so many operations at a time. -/
def begins (n : Thread) (t : Int) (k : Nat) : List Action := .start n :: List.replicate k (.run n ⟨.int t, .int t⟩)

/-- The device has a network, and a check that was started at once finds no server, and sets the status back. -/
def failedCheck : List Action :=
  begins (.flow (.netChanged 0 .notMeteredWifi)) 0 5 ++ begins (.flow (.checkNewVersion 1)) 0 8 ++
    .run (.flow (.checkExecutor 1)) ⟨.bool false, .none⟩ :: List.replicate 2 (.run (.flow (.checkExecutor 1)) {})

/-- What is left of that check. -/
def storedResult : List Action := List.replicate 8 (.run (.flow (.checkExecutor 1)) {})

/-- Five minutes later a round finds the service idle, has it scheduled, and unloads it. -/
def idleRound : List Action := begins (.idleLoop 0) 300 8 ++ List.replicate 3 (.run (.idleLoop 0) ⟨.none, .int 0⟩)

/-- The service is unloaded after the check. -/
theorem unloads_harmless_after_check : ∃ c : Config, c.state.record.unloads = [[]] ∧ c.state.record.Harmless := by
  have h : ((machine .device {}).follow accounted (failedCheck ++ storedResult ++ idleRound) (boot {})).any
      (fun c => c.state.record.unloads = [[]]) = true := by decide
  obtain ⟨c, hc, hp⟩ := Reach.exists_of_follow h
  exact ⟨c, of_decide_eq_true hp, unloads_harmless .device {} hc⟩

/-- It is unloaded while the check is still to store its result: nobody is registered, the status has been set back, and there is no
task. -/
theorem unloaded_during_check : ∃ c : Config, Reach (machine .device {}) (fun _ _ => True) (boot {}) c ∧
    ¬c.state.record.Harmless := by
  have h : ((machine .device {}).follow (fun _ _ => true) (failedCheck ++ idleRound) (boot {})).any
      (fun c => c.state.record.unloads = [[(1, .checkStep)]]) = true := by decide
  obtain ⟨c, hc, hp⟩ := Reach.exists_of_follow h
  refine ⟨c, hc.mono fun _ _ _ => trivial, fun hharmless => ?_⟩
  unfold Record.Harmless at hharmless
  rw [of_decide_eq_true hp] at hharmless
  exact absurd (hharmless _ (List.mem_singleton_self _)) (List.cons_ne_nil _ _)

end UpdateEngine.Idle
