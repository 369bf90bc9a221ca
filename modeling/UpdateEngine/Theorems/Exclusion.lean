import UpdateEngine.Concurrent.Timed
import UpdateEngine.Firmware.Lives
import UpdateEngine.Lemmas.CheckingAux
import UpdateEngine.Lemmas.FlowsAux

/-!
# One check at a time

The status of checks is a flag and a time without an owner. It keeps a new check out while one that was started less than five minutes
ago goes on, as long as nobody sets the flag back for a check of another flow, and nobody starts a check between the test of another
one and its start. A check that takes longer than five minutes does the first when it ends.
-/

namespace UpdateEngine

open Concurrent

/-- What is known of the checks: those started and not completed, the newest first, each with the time it was started at; and the
threads whose last reading of the status is current: no check has been started since. -/
structure CheckNotes where
  underWay : List (Nat × Int) := []
  current : List Thread := []

/-- What an operation adds to that. -/
def CheckNotes.add (n : Thread) (o : Op) (k : CheckNotes) : CheckNotes :=
  match o with
  | .getStatusCache => { k with current := n :: k.current }
  | .setStatusCache true now => { underWay := (n.flow, now) :: k.underWay, current := [] }
  | .setStatusCache false _ => { k with underWay := k.underWay.filter fun e => e.1 ≠ n.flow }
  | _ => k

/-- Who asks for the time is told the time. -/
def timely : (o : Op) → o.Res → Int → Bool
  | .ask .now, now, t => now = t
  | _, _, _ => true

/-- The service in time. -/
def timedMachine (P : Platform) : Machine Op Op.Res (Timed State CheckNotes) (Answer × Int) Thread :=
  (machine P).timed timely fun n o _ _ k => k.add n o

/-- The configurations of the service in time. -/
abbrev TimedConfig := Concurrent.Config Op Op.Res (Timed State CheckNotes) Thread

/-- The actions of the service in time. -/
abbrev TimedAction := Concurrent.Action (Answer × Int) Thread

/-- The service at the start of its process, at a time. -/
def Store.bootAt (d : Store) (t : Int) : TimedConfig := ⟨⟨d.state, t, {}⟩, []⟩

/-- A check is started when no other one was since it was let in; and the status is set back when every other check that goes on was
started at least five minutes ago. -/
def exclusive (c : TimedConfig) : TimedAction → Bool
  | .start _ => true
  | .run n a => match c.next n with
    | some (.setStatusCache true _) => n ∈ c.state.notes.current
    | some (.setStatusCache false _) => c.state.notes.underWay.all fun e => e.1 = n.flow || 300 ≤ a.2 - e.2
    | _ => true

/-- Each check that goes on was started at least five minutes after those before it. -/
def CheckNotes.Spaced (k : CheckNotes) : Prop := k.underWay.Pairwise fun e e' => 300 ≤ e.2 - e'.2

namespace ExclusionAux

open CheckingAux

variable {P : Platform} {s s' : Timed State CheckNotes} {ρ : Thread → Option Testing} {n m : Thread} {r r' : Testing}
  {u u' : List (Nat × Int)} {checking : Bool} {lastCheckTime now now' : Int}

/-! ## What the status shows -/

/-- At a time, a status shows the checks that were started less than five minutes ago. -/
def Shown (now : Int) (u : List (Nat × Int)) (checking : Bool) (lastCheckTime : Int) : Prop :=
  ∀ e ∈ u, now - e.2 < 300 → checking = true ∧ e.2 ≤ lastCheckTime ∧ lastCheckTime ≤ now

/-- All checks were started at least five minutes ago. -/
def Old (now : Int) (u : List (Nat × Int)) : Prop := ∀ e ∈ u, 300 ≤ now - e.2

theorem Shown.mono (h : Shown now u checking lastCheckTime) (hnow : now ≤ now') (hu : u' ⊆ u) :
    Shown now' u' checking lastCheckTime := by
  intro e he hyoung
  obtain ⟨hc, hlast, hle⟩ := h e (hu he) (by omega)
  exact ⟨hc, hlast, by omega⟩

theorem Old.mono (h : Old now u) (hnow : now ≤ now') (hu : u' ⊆ u) : Old now' u' := by
  intro e he
  have := h e (hu he)
  omega

/-- Whom such a status lets in finds all checks old. -/
theorem Shown.old (h : Shown now u checking lastCheckTime) (hin : letsIn checking lastCheckTime now = true) : Old now u := by
  intro e he
  refine Decidable.byContradiction fun hyoung => ?_
  obtain ⟨rfl, hlast, hle⟩ := h e he (by omega)
  simp only [letsIn, Bool.not_true, Bool.false_or, decide_eq_true_eq] at hin
  omega

/-- So does one whom it lets in without asking for the time. -/
theorem Shown.old_of_idle (h : Shown now u false lastCheckTime) : Old now u := h.old rfl

/-! ## The invariant -/

/-- What a thread that has come so far may rely on. -/
def Entitled (s : Timed State CheckNotes) (n : Thread) : Testing → Prop
  | .read checking lastCheckTime => n ∈ s.notes.current → Shown s.clock s.notes.underWay checking lastCheckTime
  | .passed => n ∈ s.notes.current → Old s.clock s.notes.underWay
  | .starting now => now ≤ s.clock ∧ (n ∈ s.notes.current → Old now s.notes.underWay)
  | _ => True

/-- The checks that go on, the status and the threads between the test and the start fit together. -/
structure Excludes (s : Timed State CheckNotes) (ρ : Thread → Option Testing) : Prop where
  spaced : s.notes.Spaced
  shown : Shown s.clock s.notes.underWay s.state.isChecking s.state.lastCheckTime
  entitled : ∀ n r, ρ n = some r → Entitled s n r

/-- As long as a reading is current, no check is added. -/
theorem Entitled.mono (h : Entitled s n r) (hclock : s.clock ≤ s'.clock)
    (hcurrent : n ∈ s'.notes.current → n ∈ s.notes.current ∧ s'.notes.underWay ⊆ s.notes.underWay) : Entitled s' n r := by
  cases r with
  | read | passed =>
    intro hn
    obtain ⟨hn, hu⟩ := hcurrent hn
    exact (h hn).mono hclock hu
  | starting now =>
    refine ⟨Int.le_trans h.1 hclock, fun hn => ?_⟩
    obtain ⟨hn, hu⟩ := hcurrent hn
    exact (h.2 hn).mono (Int.le_refl now) hu
  | _ => trivial

/-- One thread goes on. -/
theorem Excludes.step (h : Excludes s ρ) (hclock : s.clock ≤ s'.clock) (hspaced : s'.notes.Spaced)
    (hshown : Shown s'.clock s'.notes.underWay s'.state.isChecking s'.state.lastCheckTime) (hr' : Entitled s' n r')
    (hcurrent : ∀ m, m ≠ n → m ∈ s'.notes.current → m ∈ s.notes.current ∧ s'.notes.underWay ⊆ s.notes.underWay) :
    Excludes s' (Function.update ρ n (some r')) := by
  refine ⟨hspaced, hshown, fun m r₁ hm => ?_⟩
  rcases Protocol.role_update hm with ⟨rfl, rfl⟩ | ⟨hne, hm⟩
  · exact hr'
  · exact (h.entitled m r₁ hm).mono hclock (hcurrent m hne)

/-- A thread begins. -/
theorem Excludes.begin (h : Excludes s ρ) (hclock : s'.clock = s.clock) (hnotes : s'.notes = s.notes)
    (hchecking : s'.state.isChecking = s.state.isChecking) (hlast : s'.state.lastCheckTime = s.state.lastCheckTime) (n : Thread) :
    Excludes s' (Function.update ρ n (some (entry n))) := by
  have hentry : Entitled s' n (entry n) := by
    cases n <;> trivial
  refine h.step (by omega) (by rw [hnotes]; exact h.spaced) ?_ hentry ?_
  · rw [hclock, hnotes, hchecking, hlast]
    exact h.shown
  · rw [hnotes]
    exact fun _ _ hm => ⟨hm, fun _ he => he⟩

/-! ## Every operation -/

/-- Only one operation sets the status. -/
theorem after_checking (n : Thread) (s : State) {o : Op} (ho : o.kind ≠ .cache) (x : o.Res) :
    (o.after n s x).isChecking = s.isChecking ∧ (o.after n s x).lastCheckTime = s.lastCheckTime := by
  cases o with
  | setStatusCache => exact absurd rfl ho
  | openFile p | saveDataToFile p d | awaitWake i => cases x <;> exact ⟨rfl, rfl⟩
  | enter m => cases m <;> exact ⟨rfl, rfl⟩
  | _ => exact ⟨rfl, rfl⟩

/-- The status is read. -/
theorem Excludes.of_read (h : Excludes s ρ) (hr : r = .request ∨ r = .running) (hclock : s.clock ≤ s'.clock)
    (hnotes : s'.notes = s.notes.add n .getStatusCache) (hstate : s'.state = Op.after n s.state .getStatusCache (checking, lastCheckTime))
    (hx : checking = s.state.isChecking ∧ lastCheckTime = s.state.lastCheckTime) :
    Excludes s' (Function.update ρ n (some (next r .getStatusCache (checking, lastCheckTime)))) := by
  have hrows : s'.notes.underWay = s.notes.underWay := by rw [hnotes]; rfl
  have hshown : Shown s'.clock s'.notes.underWay checking lastCheckTime := by
    rw [hrows, hx.1, hx.2]
    exact h.shown.mono hclock fun _ he => he
  have hstatus : s'.state.isChecking = checking ∧ s'.state.lastCheckTime = lastCheckTime := by
    rw [hstate, hx.1, hx.2]
    exact ⟨rfl, rfl⟩
  refine h.step hclock ?_ ?_ ?_ ?_
  · unfold CheckNotes.Spaced
    rw [hrows]
    exact h.spaced
  · rw [hstatus.1, hstatus.2]
    exact hshown
  · rcases hr with rfl | rfl
    · change Entitled s' n (if lastCheckTime = -1 then if checking then .apart else .passed else .read checking lastCheckTime)
      split
      · cases checking with
        | true => trivial
        | false => exact fun _ => hshown.old_of_idle
      · exact fun _ => hshown
    · trivial
  · intro m hne hm
    rw [hnotes] at hm
    exact ⟨(List.mem_cons.mp hm).resolve_left hne, by rw [hrows]; exact fun _ he => he⟩

/-- A check is started. -/
theorem Excludes.of_start (h : Excludes s ρ) (hr : ρ n = some (.starting now)) (hn : n ∈ s.notes.current)
    (hclock : s.clock ≤ s'.clock) (hnotes : s'.notes = s.notes.add n (.setStatusCache true now))
    (hstate : s'.state = Op.after n s.state (.setStatusCache true now) ()) :
    Excludes s' (Function.update ρ n (some .created)) := by
  obtain ⟨hnow, hold⟩ := h.entitled n _ hr
  have hold := hold hn
  have hrows : s'.notes.underWay = (n.flow, now) :: s.notes.underWay := by rw [hnotes]; rfl
  have hcurrent : s'.notes.current = [] := by rw [hnotes]; rfl
  have hstatus : s'.state.isChecking = true ∧ s'.state.lastCheckTime = now := by
    rw [hstate]
    exact ⟨rfl, rfl⟩
  refine h.step hclock ?_ ?_ trivial ?_
  · unfold CheckNotes.Spaced
    rw [hrows]
    exact List.pairwise_cons.mpr ⟨hold, h.spaced⟩
  · intro e he hyoung
    rw [hrows] at he
    rw [hstatus.1, hstatus.2]
    rcases List.mem_cons.mp he with rfl | he
    · exact ⟨rfl, Int.le_refl _, Int.le_trans hnow hclock⟩
    · have := hold e he
      omega
  · intro m _ hm
    rw [hcurrent] at hm
    cases hm

/-- The status is set back. -/
theorem Excludes.of_end (h : Excludes s ρ) (hothers : ∀ e ∈ s.notes.underWay, e.1 = n.flow ∨ 300 ≤ s'.clock - e.2)
    (hclock : s.clock ≤ s'.clock) (hnotes : s'.notes = s.notes.add n (.setStatusCache false lastCheckTime)) :
    Excludes s' (Function.update ρ n (some .apart)) := by
  have hrows : s'.notes.underWay = s.notes.underWay.filter fun e => e.1 ≠ n.flow := by rw [hnotes]; rfl
  have hcurrent : s'.notes.current = s.notes.current := by rw [hnotes]; rfl
  refine h.step hclock ?_ ?_ trivial ?_
  · unfold CheckNotes.Spaced
    rw [hrows]
    exact h.spaced.filter _
  · intro e he hyoung
    rw [hrows, List.mem_filter] at he
    rcases hothers e he.1 with hf | hold
    · exact absurd hf (of_decide_eq_true he.2)
    · omega
  · intro m _ hm
    rw [hcurrent] at hm
    rw [hrows]
    exact ⟨hm, fun _ he => (List.mem_filter.mp he).1⟩

/-- A thread that leaves the status alone: it is let in by what it has read, and is told the time. -/
theorem Excludes.of_other (h : Excludes s ρ) (hr : ρ n = some r) {o : Op} (ho : o.kind ≠ .cache) {x : o.Res}
    (hclock : s.clock ≤ s'.clock) (hfits : timely o x s'.clock = true) (hnotes : s'.notes = s.notes)
    (hstate : s'.state = o.after n s.state x) : Excludes s' (Function.update ρ n (some (next r o x))) := by
  have hstatus := after_checking n s.state ho x
  rw [← hstate] at hstatus
  have hlater : Entitled s' n r := (h.entitled n r hr).mono hclock fun hn => by
    rw [hnotes] at hn ⊢
    exact ⟨hn, fun _ he => he⟩
  refine h.step hclock (by rw [hnotes]; exact h.spaced) ?_ ?_ ?_
  · rw [hnotes, hstatus.1, hstatus.2]
    exact h.shown.mono hclock fun _ he => he
  · cases o with
    | getStatusCache | setStatusCache => exact absurd rfl ho
    | ask q =>
      cases q with
      | now =>
        obtain rfl : x = s'.clock := of_decide_eq_true hfits
        cases r with
        | read checking lastCheckTime =>
          change Entitled s' n (if letsIn checking lastCheckTime s'.clock then .passed else .apart)
          split
          · exact fun hn => (hlater hn).old ‹_›
          · trivial
        | passed => exact ⟨Int.le_refl _, hlater⟩
        | _ => exact hlater
      | _ => cases r <;> exact hlater
    | setFlow u =>
      cases u with
      | buildError =>
        cases r with
        | passed => trivial
        | _ => exact hlater
      | _ => cases r <;> exact hlater
    | spawn t =>
      cases r with
      | created => trivial
      | _ => exact hlater
    | _ => cases r <;> exact hlater
  · rw [hnotes]
    exact fun _ _ hm => ⟨hm, fun _ he => he⟩

/-- An operation keeps the invariant. -/
theorem run_excludes {o : Op} {a : Answer × Int} {x : o.Res} (h : Excludes s ρ) (hr : ρ n = some r) (ha : allowed n r o)
    (hstart : ∀ t, o = .setStatusCache true t → n ∈ s.notes.current)
    (hend : ∀ t, o = .setStatusCache false t → ∀ e ∈ s.notes.underWay, e.1 = n.flow ∨ 300 ≤ a.2 - e.2)
    (hx : (timedMachine P).exec n o a s = some (x, s')) : Excludes s' (Function.update ρ n (some (next r o x))) := by
  obtain ⟨hclock, hfits, htime, hnotes, hx⟩ := timed_exec hx
  obtain ⟨-, hanswer, hstate⟩ := exec_eq_some hx
  rw [← htime] at hclock hfits
  cases o with
  | getStatusCache =>
    obtain ⟨checking, lastCheckTime⟩ := x
    cases hanswer
    exact h.of_read ha hclock hnotes hstate ⟨rfl, rfl⟩
  | setStatusCache checking t =>
    rcases ha with ⟨rfl, rfl⟩ | ⟨rfl, rfl⟩
    · exact h.of_start hr (hstart t rfl) hclock hnotes hstate
    · refine h.of_end (fun e he => ?_) hclock hnotes
      rw [htime]
      exact hend t rfl e he
  | queryTasks | queryComponents => exact h.of_other hr (by cases ‹Caller› <;> exact OpKind.noConfusion) hclock hfits hnotes hstate
  | updateTasks c i u | setFlow u => exact h.of_other hr (by cases u <;> exact OpKind.noConfusion) hclock hfits hnotes hstate
  | updateComponents c u => exact h.of_other hr (by cases c <;> exact OpKind.noConfusion) hclock hfits hnotes hstate
  | ask q => exact h.of_other hr (by cases q <;> exact OpKind.noConfusion) hclock hfits hnotes hstate
  | enter m => exact h.of_other hr (by cases m <;> exact OpKind.noConfusion) hclock hfits hnotes hstate
  | _ => exact h.of_other hr OpKind.noConfusion hclock hfits hnotes hstate

/-- The executor of a check finds its flow past the first step. -/
theorem executor_expects {c : TimedConfig} (hf : FlowsAux.Fits P c.untimed) {f : Nat} {o : Op} (hn : c.next (.checkExecutor f) = some o)
    {a : Answer} {x : o.Res} (hx : o.answer (.checkExecutor f) a c.state.state = some x) : expects (.checkExecutor f) o x := by
  cases o with
  | getNextStep =>
    rintro g - rfl
    obtain ⟨ρ, hρ, hF⟩ := hf
    have hnext : c.untimed.next (.checkExecutor f) = some .getNextStep := hn
    obtain ⟨r, hr, -⟩ := hρ.allowed hnext
    have hpast : r.past = true := by
      have hplays := hF.plays _ r hr
      cases r with
      | checking | processing | cleared => rfl
      | _ => cases hplays
    exact hF.past _ r hr hpast (Option.some.inj hx)
  | _ => trivial

/-- At first there is no check. -/
theorem excludes_init (d : Store) (t : Int) : Excludes (d.bootAt t).state fun _ => none where
  spaced := List.Pairwise.nil
  shown := fun _ he => by cases he
  entitled := fun _ _ h => by cases h

/-- On runs whose steps are exclusive the invariant holds. -/
def simulation (P : Platform) (d : Store) (t : Int) :
    Simulation (timedMachine P) testing (fun c a => exclusive c a = true ∧ FlowsAux.Fits P c.untimed) (d.bootAt t).state Excludes where
  occurs := fun _ => True
  occurs_start := fun _ _ _ => trivial
  occurs_spawn := fun _ _ _ _ _ _ _ => trivial
  conforms := fun n _ => CheckingAux.conforms P n
  init := excludes_init d t
  start := fun c ρ n s hρ h _ _ _ hs => by
    obtain ⟨hs, hclock, hnotes⟩ := timed_starts hs
    rcases FlowsAux.starts_cases hs with ⟨-, hs, -⟩ | ⟨hs, -⟩
    · exact h.begin hclock hnotes (by rw [hs]) (by rw [hs]) n
    · exact h.begin hclock hnotes (by rw [hs]) (by rw [hs]) n
  expected := fun c ρ n r o x a s hρ h _ hok hnext hr ha hx => by
    obtain ⟨-, -, -, -, hx⟩ := timed_exec hx
    cases n with
    | checkExecutor f => exact executor_expects hok.2 hnext (exec_eq_some hx).2.1
    | _ =>
      cases o with
      | getNextStep => exact fun _ => Thread.noConfusion
      | _ => trivial
  run := fun c ρ n r o x a s hρ h _ hok hnext hr ha _ _ hx _ => by
    have hok := hok.1
    simp only [exclusive, hnext] at hok
    have hrun := run_excludes h hr ha
      (by rintro t rfl; exact of_decide_eq_true hok)
      (by
        rintro t rfl e he
        simpa using List.all_eq_true.mp hok e he) hx
    cases o with
    | spawn m => exact hrun.begin rfl rfl rfl rfl m
    | _ => exact hrun
  retire := fun s ρ n r h _ _ => ⟨h.spaced, h.shown, fun m r' hm => h.entitled m r' (Protocol.role_retire hm).2⟩

end ExclusionAux

/-- As long as every check is started without another one being started since it was let in, and the status is set back only when every
other check that goes on was started at least five minutes ago, no check is started while one that was started less than five minutes
ago goes on. -/
theorem checks_spaced (P : Platform) {d : Store} {t : Int} {c : TimedConfig}
    (h : Reach (timedMachine P) (fun c a => exclusive c a = true) (d.bootAt t) c) : c.state.notes.Spaced := by
  have hfits := Reach.strengthen (I := fun c => FlowsAux.Fits P c.untimed) (fun _ hc => FlowsAux.fits_of_reach hc.untimed) h
  obtain ⟨⟨ρ, -, hJ⟩, -⟩ := (ExclusionAux.simulation P d t).invariant hfits
  exact hJ.spaced

/-! ## A check that takes longer than five minutes -/

/-- A thread takes so many operations at a time. -/
def Thread.stepsAt (n : Thread) (t : Int) (k : Nat) : List TimedAction := List.replicate k (.run n (.int t, t))

/-- The device gets a network. -/
def connectedAt (t : Int) : List TimedAction :=
  .start (.netChanged 0 .notMeteredWifi) :: Thread.stepsAt (.netChanged 0 .notMeteredWifi) t 5

/-- A check is requested, let in and started. -/
def checkAt (f : Nat) (t : Int) (k : Nat) : List TimedAction := .start (.checkNewVersion f) :: Thread.stepsAt (.checkNewVersion f) t k

/-- A check finds no server, and sets the status back. -/
def completeAt (f : Nat) (t : Int) : List TimedAction :=
  .run (.checkExecutor f) (.bool false, t) :: Thread.stepsAt (.checkExecutor f) t 2

/-- A check goes on for longer than five minutes, and a second one is started. -/
def overrun : List TimedAction := connectedAt 0 ++ checkAt 1 0 8 ++ checkAt 2 301 9

/-- Two checks go on, and the second was started five minutes after the first. -/
theorem checks_spaced_overrun : ∃ c : TimedConfig, c.state.notes.underWay = [(2, 301), (1, 0)] ∧ c.state.notes.Spaced := by
  have h : ((timedMachine .device).follow exclusive overrun (Store.bootAt {} 0)).any
      (fun c => c.state.notes.underWay = [(2, 301), (1, 0)]) = true := by decide
  obtain ⟨c, hc, hp⟩ := Reach.exists_of_follow h
  exact ⟨c, of_decide_eq_true hp, checks_spaced .device hc⟩

/-- The first check completes, and sets the status back while the second goes on: a third one is started two seconds after it. -/
theorem check_not_refused : ∃ c : TimedConfig, Reach (timedMachine .device) (fun _ _ => True) (Store.bootAt {} 0) c ∧
    ¬c.state.notes.Spaced := by
  have h : ((timedMachine .device).follow (fun _ _ => true) (overrun ++ completeAt 1 302 ++ checkAt 3 303 9)
      (Store.bootAt {} 0)).any (fun c => c.state.notes.underWay = [(3, 303), (2, 301)]) = true := by decide
  obtain ⟨c, hc, hp⟩ := Reach.exists_of_follow h
  refine ⟨c, hc.mono fun _ _ _ => trivial, fun hspaced => ?_⟩
  unfold CheckNotes.Spaced at hspaced
  rw [of_decide_eq_true hp] at hspaced
  exact absurd (List.rel_of_pairwise_cons hspaced (List.mem_singleton_self _)) (by decide)

end UpdateEngine
