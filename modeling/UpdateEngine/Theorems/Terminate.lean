import UpdateEngine.Concurrent.Protocol
import UpdateEngine.Startup.Manager

/-!
# A request to terminate and the next start

`TerminateUpgrade` leaves its reason in the preferences and ends the process; the next start takes it from there and resets what the
service has stored. It does so once for each request, unless an idle exit is scheduled in between, the next start is the one of a
reboot, or it is stopped before it is done.
-/

namespace UpdateEngine.Startup

open Concurrent

/-- Every start that has come to its end has carried out the requests that were accepted before, and no start has begun a reset that no
request had asked for since the last one. -/
def TakesEffectOnce (s : Device) : Prop := s.history.missed = false ∧ s.history.repeated = false

/-- A request that has stored its reason, and is about to have the service scheduled. -/
def Config.asks (c : Config) (n : Thread) : Bool := match n with
  | .terminateUpgrade p _ => c.state.process = some p && (c.next n).any fun o => match o with
    | .startServiceByTimer _ => true
    | _ => false
  | _ => false

/-- While an accepted request waits to be carried out, or one is about to be accepted, no idle exit stores its reason; while an accepted
one waits, no process starts in the reboot duration, and none is stopped that has taken the reason from the preferences. -/
def undisturbed (c : Config) : Action → Bool
  | .start _ => true
  | .run n a => match c.next n with
    | some (.saveRestartReason r) => r = .processEnvReset || (!c.state.history.accepted && c.all fun m => !c.asks m)
    | some .isInRebootDuration => a ≠ .bool true || !c.state.history.accepted
    | some .exit | some .stop | some .reboot => !c.state.history.accepted || c.state.restartReason = some .processEnvReset
    | _ => true

namespace TerminateAux

/-! ## Stages -/

/-- How far a thread has come: it has not read or stored the reason yet; a start that is to reset, and one that has emptied the
preferences for that; a start that is not, or has done so; a request that has stored its reason. -/
inductive Stage where
  | fresh | resetting | cleared | calm | stored | over
  deriving DecidableEq

/-- A start that is on its way to reset. -/
def Stage.resets (r : Stage) : Prop := r = .resetting ∨ r = .cleared

/-- The thread of a start. -/
def IsStart (n : Thread) : Prop := ∃ p, n = .onStart p

/-- The thread of a request. -/
def IsRequest (n : Thread) : Prop := ∃ p i, n = .terminateUpgrade p i

/-- A round of the looper. -/
def IsRound (n : Thread) : Prop := ∃ p i, n = .idleLoop p i

/-- Which operations a stage allows. -/
def allowed (n : Thread) (r : Stage) : Op → Prop
  | .isInRebootDuration | .obtainRestartReason => IsStart n ∧ r = .fresh
  | .removeRestartReason => IsStart n ∧ (r = .resetting ∨ r = .calm)
  | .saveRestartReason x => (x = .processEnvReset ∧ IsRequest n ∧ r = .fresh) ∨ (x = .unknown ∧ IsRound n)
  | .removeAllPreferences | .destroyBaseDirs | .destroyFirmwareDirs => IsStart n ∧ r = .resetting
  | .deleteDbStore => IsStart n ∧ r = .cleared
  | .publish => IsStart n ∧ r = .calm
  | .startServiceByTimer _ => (IsRequest n ∧ r = .stored) ∨ IsRound n
  | .spawn t => r = .over ∧ ∃ p i, n = .terminateUpgrade p i ∧ t = .exit p i
  | _ => r ≠ .stored

/-- The stage after an answer. -/
def next (r : Stage) : (o : Op) → o.Res → Stage
  | .isInRebootDuration, b => if b then .calm else r
  | .obtainRestartReason, x => if x = .processEnvReset then .resetting else .calm
  | .saveRestartReason x, _ => if x = .processEnvReset then .stored else r
  | .startServiceByTimer _, _ => .over
  | .removeAllPreferences, _ => .cleared
  | .deleteDbStore, _ => .calm
  | .publish, _ => .over
  | _, _ => r

/-- The stages of the threads. -/
def stages : Protocol Op Op.Res Thread Stage where
  entry := fun _ => .fresh
  allowed := allowed
  expects := fun _ _ _ _ => True
  next := fun _ => next
  final := fun r => ¬r.resets

theorem schedule_spec {n : Thread} {r : Stage} (task : ScheduleTask) {Q : Bool → Stage → Prop}
    (hsave : allowed n r (.saveRestartReason task.startupReason))
    (hstart : ∀ t, allowed n (next r (.saveRestartReason task.startupReason) ()) (.startServiceByTimer t))
    (hQ : ∀ b, Q b .over) : stages.Spec n (StartupSchedule.schedule task) r Q :=
  ⟨hsave, fun _ _ => ⟨hstart (task.minDelayTime * ONE_SECOND_MILLISECONDS), fun _ _ => hQ _⟩⟩

theorem final_over : stages.final .over := by simp [stages, Stage.resets]

theorem final_fresh : stages.final .fresh := by simp [stages, Stage.resets]

theorem doTerminateUpgrade_conforms (p i : Nat) :
    stages.Conforms (.terminateUpgrade p i) (FirmwareManager.doTerminateUpgrade p i) .fresh := by
  have hrequest : IsRequest (.terminateUpgrade p i) := ⟨p, i, rfl⟩
  have hschedule : stages.Spec (.terminateUpgrade p i) (StartupSchedule.schedule
      { startupReason := .processEnvReset, minDelayTime := PULLUP_AFTER_TERMINATE_INTERVAL }) .fresh fun _ r => r = .over :=
    schedule_spec _ (.inl ⟨rfl, hrequest, rfl⟩) (fun _ => .inl ⟨hrequest, rfl⟩) fun _ => rfl
  refine Protocol.Spec.seq hschedule ?_
  rintro accepted r rfl
  cases accepted with
  | false => exact ⟨Stage.noConfusion, fun _ _ => final_over⟩
  | true => exact ⟨⟨rfl, p, i, rfl, rfl⟩, fun _ _ => ⟨Stage.noConfusion, fun _ _ => final_over⟩⟩

theorem idleLoop_conforms (config : ScheduleConfig) (p i : Nat) :
    stages.Conforms (.idleLoop p i) (StartupManager.idleLoop config) .fresh := by
  have hround : IsRound (.idleLoop p i) := ⟨p, i, rfl⟩
  have hcheck : stages.Spec (.idleLoop p i) (StartupManager.idleCheck config) .fresh fun _ r => r = .fresh := by
    refine ⟨Stage.noConfusion, fun now _ => ⟨Stage.noConfusion, fun last _ => ?_⟩⟩
    show stages.Spec _ (if (now - last).natAbs < config.idleCheckInterval.toNat then _ else _) _ _
    split
    · rfl
    · exact ⟨Stage.noConfusion, fun _ _ => ⟨Stage.noConfusion, fun _ _ => ⟨Stage.noConfusion, fun _ _ => rfl⟩⟩⟩
  have hexit : stages.Spec (.idleLoop p i) (StartupManager.preExit config) .fresh fun _ r => r = .over :=
    schedule_spec _ (.inr ⟨rfl, hround⟩) (fun _ => .inr hround) fun _ => rfl
  refine Protocol.Spec.seq hcheck ?_
  rintro idle r rfl
  cases idle with
  | false => exact final_fresh
  | true =>
    refine Protocol.Spec.seq hexit ?_
    rintro scheduled r rfl
    cases scheduled with
    | false => exact final_over
    | true => exact ⟨Stage.noConfusion, fun _ _ => final_over⟩

theorem onStart_conforms (p : Nat) : stages.Conforms (.onStart p) UpdateService.onStart .fresh := by
  have hstart : IsStart (.onStart p) := ⟨p, rfl⟩
  have hreason : stages.Spec (.onStart p) StartupManager.getStartupReason .fresh fun x r =>
      r = if x = .processEnvReset then .resetting else .calm := by
    refine ⟨⟨hstart, rfl⟩, fun rebooted _ => ?_⟩
    cases rebooted with
    | true => rfl
    | false =>
      refine ⟨⟨hstart, rfl⟩, fun reason _ => ?_⟩
      cases reason with
      | unknown => rfl
      | deviceReboot | scheduleTask => exact ⟨⟨hstart, .inr rfl⟩, fun _ _ => rfl⟩
      | processEnvReset => exact ⟨⟨hstart, .inl rfl⟩, fun _ _ => rfl⟩
  have hinit : stages.Spec (.onStart p) StartupManager.init .fresh fun _ r => r = .calm := by
    refine Protocol.Spec.seq hreason ?_
    rintro reason r rfl
    cases reason with
    | processEnvReset =>
      exact ⟨⟨hstart, rfl⟩, fun _ _ => ⟨⟨hstart, rfl⟩, fun _ _ => ⟨⟨hstart, rfl⟩, fun _ _ => ⟨⟨hstart, rfl⟩, fun _ _ => rfl⟩⟩⟩⟩
    | unknown | deviceReboot | scheduleTask => rfl
  refine ⟨Stage.noConfusion, fun _ _ => ⟨Stage.noConfusion, fun _ _ => ?_⟩⟩
  show stages.Spec _ (StartupManager.init >>= fun _ => call .publish) .fresh _
  refine Protocol.Spec.seq hinit ?_
  rintro _ r rfl
  exact ⟨⟨hstart, rfl⟩, fun _ _ => final_over⟩

theorem conforms (config : ScheduleConfig) (n : Thread) : stages.Conforms n (body config n) .fresh := by
  cases n with
  | onStart p => exact onStart_conforms p
  | terminateUpgrade p i => exact doTerminateUpgrade_conforms p i
  | idleLoop p i => exact idleLoop_conforms config p i
  | exit | stop | reboot => exact ⟨Stage.noConfusion, fun _ _ => final_fresh⟩

/-! ## What one operation does -/

/-- An operation is taken while the process of its thread runs, and has its answer, its effect and its place in the history. -/
theorem exec_eq {n : Thread} {o : Op} {a : Answer} {s s' : Device} {x : o.Res} (h : exec n o a s = some (x, s')) :
    (∀ p, n.process = some p → s.process = some p) ∧ o.answer a s = some x ∧
      s' = { o.effect s x with history := o.chronicle n s.history x } := by
  unfold exec at h
  split at h
  · rename_i hrun
    obtain ⟨y, hy, he⟩ := Option.map_eq_some_iff.mp h
    obtain ⟨rfl, rfl⟩ := Prod.mk.injEq .. ▸ he
    refine ⟨fun p hp => ?_, hy, rfl⟩
    simpa [hp] using hrun
  · cases h

/-! ## The invariant -/

/-- What holds of a device and of how far its threads have come, as long as it is undisturbed. A reason to reset is one that a request
has stored; an accepted request is remembered by the preferences or by the start that resets. -/
structure Consistent (s : Device) (ρ : Thread → Option Stage) : Prop where
  once : TakesEffectOnce s
  stored : s.restartReason = some .processEnvReset → s.history.stored = true
  accepted : s.history.accepted = true → s.restartReason = some .processEnvReset ∨
    ∃ p r, s.process = some p ∧ ρ (.onStart p) = some r ∧ r.resets
  resets : ∀ p r, s.process = some p → ρ (.onStart p) = some r → r.resets → s.history.stored = true
  cleared : ∀ p, s.process = some p → ρ (.onStart p) = some .cleared → s.restartReason ≠ some .processEnvReset
  calm : ∀ p, s.process = some p → ρ (.onStart p) = some .calm → s.history.accepted = false
  starting : ∀ p r, s.process = some p → ρ (.onStart p) = some r → r = .over ∨ s.published = false
  serving : ∀ n r p, ρ n = some r → IsRequest n ∨ IsRound n → n.process = some p → s.process = some p → s.published = true
  asking : ∀ p i, s.process = some p → ρ (.terminateUpgrade p i) = some .stored → s.restartReason = some .processEnvReset
  older : ∀ n r p, ρ n = some r → n.process = some p → p < s.nextProcess
  current : ∀ p, s.process = some p → p < s.nextProcess

variable {s s' : Device} {ρ : Thread → Option Stage} {n : Thread} {r r' : Stage} {p : Nat}

/-- An operation of the start of the running process, up to the one that publishes the service. -/
theorem Consistent.of_start (h : Consistent s ρ) (hp : s.process = some p) (hr : ρ (.onStart p) = some r) (hover : r ≠ .over)
    (hprocess : s'.process = s.process) (hnext : s'.nextProcess = s.nextProcess) (hpublished : r' = .over ∨ s'.published = s.published)
    (honce : TakesEffectOnce s') (hstored : s'.restartReason = some .processEnvReset → s'.history.stored = true)
    (haccepted : s'.history.accepted = true → s'.restartReason = some .processEnvReset ∨ r'.resets)
    (hresets : r'.resets → s'.history.stored = true) (hcleared : r' = .cleared → s'.restartReason ≠ some .processEnvReset)
    (hcalm : r' = .calm → s'.history.accepted = false) : Consistent s' (Function.update ρ (.onStart p) (some r')) := by
  have hunpublished : s.published = false := (h.starting p r hp hr).resolve_left hover
  have hown : ∀ q r₁, s'.process = some q → Function.update ρ (.onStart p) (some r') (.onStart q) = some r₁ → r₁ = r' := by
    intro q r₁ hq h₁
    rw [hprocess, hp] at hq
    cases hq
    rw [Function.update_self] at h₁
    exact (Option.some.inj h₁).symm
  have hnone : ∀ m r₁ q, m ≠ .onStart p → Function.update ρ (.onStart p) (some r') m = some r₁ → IsRequest m ∨ IsRound m →
      m.process = some q → s'.process ≠ some q := by
    intro m r₁ q hm h₁ hk hq hq'
    rw [Function.update_of_ne hm] at h₁
    rw [hprocess] at hq'
    rw [h.serving m r₁ q h₁ hk hq hq'] at hunpublished
    cases hunpublished
  refine ⟨honce, hstored, fun ha => ?_, fun q r₁ hq h₁ hk => ?_, fun q hq h₁ => ?_, fun q hq h₁ => ?_, fun q r₁ hq h₁ => ?_,
    fun m r₁ q h₁ hk hq hq' => ?_, fun q i hq h₁ => ?_, fun m r₁ q h₁ hq => ?_, fun q hq => ?_⟩
  · exact (haccepted ha).imp_right fun hr' => ⟨p, r', by rw [hprocess, hp], Function.update_self .., hr'⟩
  · rw [hown q r₁ hq h₁] at hk
    exact hresets hk
  · exact hcleared (hown q _ hq h₁).symm
  · exact hcalm (hown q _ hq h₁).symm
  · rw [hown q r₁ hq h₁]
    exact hpublished.imp_right fun hs' => by rw [hs', hunpublished]
  · refine absurd hq' (hnone m r₁ q ?_ h₁ hk hq)
    rintro rfl
    rcases hk with ⟨_, _, hk⟩ | ⟨_, _, hk⟩ <;> cases hk
  · refine absurd hq (hnone _ _ q ?_ h₁ (.inl ⟨q, i, rfl⟩) rfl)
    exact Thread.noConfusion
  · rw [hnext]
    by_cases hm : m = .onStart p
    · subst hm
      exact h.older _ r q hr hq
    · rw [Function.update_of_ne hm] at h₁
      exact h.older m r₁ q h₁ hq
  · rw [hprocess] at hq
    rw [hnext]
    exact h.current q hq

/-- An operation of a request or of a round of the looper of the running process. -/
theorem Consistent.of_service (h : Consistent s ρ) (hk : IsRequest n ∨ IsRound n) (hserving : s.published = true)
    (hn : n.process = some p) (hp : s.process = some p)
    (hprocess : s'.process = s.process) (hnext : s'.nextProcess = s.nextProcess) (hpublished : s'.published = s.published)
    (honce : TakesEffectOnce s') (hstored : s'.restartReason = some .processEnvReset → s'.history.stored = true)
    (haccepted : s'.history.accepted = true → s'.restartReason = some .processEnvReset)
    (hasking : ∀ i, Function.update ρ n (some r') (.terminateUpgrade p i) = some .stored →
      s'.restartReason = some .processEnvReset) : Consistent s' (Function.update ρ n (some r')) := by
  have hstart : ∀ q, n ≠ .onStart q := by
    rintro q rfl
    rcases hk with ⟨_, _, hk⟩ | ⟨_, _, hk⟩ <;> cases hk
  have hover : ∀ q r₁, s'.process = some q → Function.update ρ n (some r') (.onStart q) = some r₁ → r₁ = .over := by
    intro q r₁ hq h₁
    rw [Function.update_of_ne (hstart q).symm] at h₁
    rw [hprocess] at hq
    refine (h.starting q r₁ hq h₁).resolve_right ?_
    rw [hserving]
    exact Bool.noConfusion
  refine ⟨honce, hstored, fun ha => .inl (haccepted ha), fun q r₁ hq h₁ hk => ?_, fun q hq h₁ => ?_, fun q hq h₁ => ?_,
    fun q r₁ hq h₁ => .inl (hover q r₁ hq h₁), fun m r₁ q h₁ hk hq hq' => by rw [hpublished, hserving], fun q i hq h₁ => ?_,
    fun m r₁ q h₁ hq => ?_, fun q hq => ?_⟩
  · rw [hover q r₁ hq h₁] at hk
    exact absurd hk final_over
  · cases hover q _ hq h₁
  · cases hover q _ hq h₁
  · rw [hprocess, hp] at hq
    cases hq
    exact hasking i h₁
  · rw [hnext]
    by_cases hm : m = n
    · subst hm
      rw [hn] at hq
      cases hq
      exact h.current p hp
    · rw [Function.update_of_ne hm] at h₁
      exact h.older m r₁ q h₁ hq
  · rw [hprocess] at hq
    rw [hnext]
    exact h.current q hq

/-- The process ends. -/
theorem Consistent.of_leave (h : Consistent s ρ) (haccepted : s.history.accepted = true → s.restartReason = some .processEnvReset)
    (hprocess : s'.process = none) (hnext : s'.nextProcess = s.nextProcess) (hreason : s'.restartReason = s.restartReason)
    (hhistory : s'.history = s.history) : Consistent s' ρ := by
  have hnone : ∀ q, s'.process ≠ some q := by
    intro q hq
    rw [hprocess] at hq
    cases hq
  refine ⟨?_, ?_, ?_, fun q _ hq => absurd hq (hnone q), fun q hq => absurd hq (hnone q), fun q hq => absurd hq (hnone q),
    fun q _ hq => absurd hq (hnone q), fun _ _ q _ _ _ hq => absurd hq (hnone q), fun q _ hq => absurd hq (hnone q), ?_,
    fun q hq => absurd hq (hnone q)⟩
  · unfold TakesEffectOnce
    rw [hhistory]
    exact h.once
  · rw [hreason, hhistory]
    exact h.stored
  · rw [hreason, hhistory]
    exact fun ha => .inl (haccepted ha)
  · rw [hnext]
    exact h.older

/-- What no part of the invariant is about may change. -/
theorem Consistent.of_eq (h : Consistent s ρ) (hreason : s'.restartReason = s.restartReason) (hprocess : s'.process = s.process)
    (hnext : s'.nextProcess = s.nextProcess) (hpublished : s'.published = s.published) (hhistory : s'.history = s.history) :
    Consistent s' ρ := by
  obtain ⟨once, stored, accepted, resets, cleared, calm, starting, serving, asking, older, current⟩ := h
  unfold TakesEffectOnce at once
  rw [← hhistory] at once stored accepted resets calm
  rw [← hreason] at stored accepted cleared asking
  rw [← hprocess] at accepted resets cleared calm starting serving asking current
  rw [← hpublished] at starting serving
  rw [← hnext] at older current
  exact ⟨once, stored, accepted, resets, cleared, calm, starting, serving, asking, older, current⟩

/-- A thread that comes from outside, or the one that ends the process. -/
theorem Consistent.of_outside (h : Consistent s ρ) (hstart : ¬IsStart n) (hrequest : ¬IsRequest n) (hround : ¬IsRound n)
    (hn : ∀ q, n.process = some q → s.process = some q) : Consistent s (Function.update ρ n (some r')) := by
  have hstarts : ∀ q, Function.update ρ n (some r') (.onStart q) = ρ (.onStart q) := by
    refine fun q => Function.update_of_ne ?_ ..
    rintro rfl
    exact hstart ⟨q, rfl⟩
  have hrequests : ∀ q i, Function.update ρ n (some r') (.terminateUpgrade q i) = ρ (.terminateUpgrade q i) := by
    refine fun q i => Function.update_of_ne ?_ ..
    rintro rfl
    exact hrequest ⟨q, i, rfl⟩
  refine ⟨h.once, h.stored, ?_, ?_, ?_, ?_, ?_, fun m r₁ q h₁ hk hq => ?_, ?_, fun m r₁ q h₁ hq => ?_, h.current⟩
  · simpa only [hstarts] using h.accepted
  · simpa only [hstarts] using h.resets
  · simpa only [hstarts] using h.cleared
  · simpa only [hstarts] using h.calm
  · simpa only [hstarts] using h.starting
  · have hm : m ≠ n := by
      rintro rfl
      exact hk.elim hrequest hround
    rw [Function.update_of_ne hm] at h₁
    exact h.serving m r₁ q h₁ hk hq
  · simpa only [hrequests] using h.asking
  · by_cases hm : m = n
    · subst hm
      exact h.current q (hn q hq)
    · rw [Function.update_of_ne hm] at h₁
      exact h.older m r₁ q h₁ hq

/-- A process starts. -/
theorem Consistent.of_process (h : Consistent s ρ) (hnone : s.process = none) :
    Consistent { s with process := some s.nextProcess, nextProcess := s.nextProcess + 1, published := false }
      (Function.update ρ (.onStart s.nextProcess) (some .fresh)) := by
  have hown : ∀ q r₁, some s.nextProcess = some q →
      Function.update ρ (.onStart s.nextProcess) (some .fresh) (.onStart q) = some r₁ → r₁ = .fresh := by
    intro q r₁ hq h₁
    cases hq
    rw [Function.update_self] at h₁
    exact (Option.some.inj h₁).symm
  have hother : ∀ m r₁ q, m ≠ .onStart s.nextProcess → m.process = some q →
      Function.update ρ (.onStart s.nextProcess) (some .fresh) m = some r₁ → q < s.nextProcess := by
    intro m r₁ q hm hq h₁
    rw [Function.update_of_ne hm] at h₁
    exact h.older m r₁ q h₁ hq
  refine ⟨h.once, h.stored, fun ha => ?_, fun q r₁ hq h₁ hk => ?_, fun q hq h₁ => ?_, fun q hq h₁ => ?_, fun q r₁ hq h₁ => .inr rfl,
    fun m r₁ q h₁ hk hq hq' => ?_, fun q i hq h₁ => ?_, fun m r₁ q h₁ hq => ?_, fun q hq => ?_⟩
  · rcases h.accepted ha with hreason | ⟨q, _, hq, -⟩
    · exact .inl hreason
    · rw [hnone] at hq
      cases hq
  · rw [hown q r₁ hq h₁] at hk
    exact absurd hk final_fresh
  · cases hown q _ hq h₁
  · cases hown q _ hq h₁
  · have hm : m ≠ .onStart s.nextProcess := by
      rintro rfl
      rcases hk with ⟨_, _, hk⟩ | ⟨_, _, hk⟩ <;> cases hk
    have hlt := hother m r₁ q hm hq h₁
    cases hq'
    omega
  · have hlt := hother _ _ q Thread.noConfusion rfl h₁
    cases hq
    omega
  · show q < s.nextProcess + 1
    by_cases hm : m = .onStart s.nextProcess
    · subst hm
      cases hq
      omega
    · have hlt := hother m r₁ q hm hq h₁
      omega
  · cases hq
    exact Nat.lt_succ_self _

/-- A thread comes to its end. -/
theorem Consistent.of_retire (h : Consistent s ρ) (hr : ρ n = some r) (hfinal : ¬r.resets) :
    Consistent s (Function.update ρ n none) := by
  have hold : ∀ m r₁, Function.update ρ n none m = some r₁ → ρ m = some r₁ := fun m r₁ h₁ => (Protocol.role_retire h₁).2
  refine ⟨h.once, h.stored, fun ha => ?_, fun q r₁ hq h₁ => h.resets q r₁ hq (hold _ _ h₁), fun q hq h₁ => h.cleared q hq (hold _ _ h₁),
    fun q hq h₁ => h.calm q hq (hold _ _ h₁), fun q r₁ hq h₁ => h.starting q r₁ hq (hold _ _ h₁),
    fun m r₁ q h₁ => h.serving m r₁ q (hold _ _ h₁), fun q i hq h₁ => h.asking q i hq (hold _ _ h₁),
    fun m r₁ q h₁ => h.older m r₁ q (hold _ _ h₁), h.current⟩
  rcases h.accepted ha with hreason | ⟨q, r₁, hq, h₁, hk⟩
  · exact .inl hreason
  · refine .inr ⟨q, r₁, hq, ?_, hk⟩
    rw [Function.update_of_ne, h₁]
    rintro rfl
    rw [hr] at h₁
    cases h₁
    exact hfinal hk

/-- While the service is published, an accepted request is remembered by the preferences. -/
theorem Consistent.accepted_of_published (h : Consistent s ρ) (hpublished : s.published = true) (ha : s.history.accepted = true) :
    s.restartReason = some .processEnvReset := by
  rcases h.accepted ha with hreason | ⟨q, r₁, hq, h₁, hk⟩
  · exact hreason
  · rcases h.starting q r₁ hq h₁ with rfl | hs
    · exact absurd hk final_over
    · rw [hpublished] at hs
      cases hs

/-- A request that has stored its reason is one that had, unless it is the one of the last operation. -/
theorem stored_of_update {m : Thread} (h : Function.update ρ n (some r') m = some .stored) (hr' : r' ≠ .stored) :
    ρ m = some .stored := by
  rcases Protocol.role_update h with ⟨-, hr⟩ | ⟨-, hm⟩
  · exact absurd hr.symm hr'
  · exact hm

/-- A request or a round of the looper begins. -/
theorem Consistent.of_call (h : Consistent s ρ) (hk : IsRequest n ∨ IsRound n) (hn : n.process = some p) (hp : s.process = some p)
    (hpublished : s.published = true) : Consistent s (Function.update ρ n (some .fresh)) :=
  h.of_service hk hpublished hn hp rfl rfl rfl h.once h.stored (h.accepted_of_published hpublished) fun i hi =>
    h.asking p i hp (stored_of_update hi Stage.noConfusion)

/-- A thread that is started from outside keeps the invariant. -/
theorem start_consistent (h : Consistent s ρ) (hs : starts n s = some s') : Consistent s' (Function.update ρ n (some .fresh)) := by
  cases n with
  | onStart p =>
    obtain ⟨⟨hnone, rfl⟩, hs⟩ := Option.ite_none_right_eq_some.mp hs
    cases hs
    exact h.of_process hnone
  | terminateUpgrade p i =>
    obtain ⟨⟨hp, hpublished⟩, hs⟩ := Option.ite_none_right_eq_some.mp hs
    cases hs
    exact h.of_call (.inl ⟨p, i, rfl⟩) rfl hp hpublished
  | idleLoop p i =>
    obtain ⟨⟨hp, hpublished⟩, hs⟩ := Option.ite_none_right_eq_some.mp hs
    cases hs
    exact h.of_call (.inr ⟨p, i, rfl⟩) rfl hp hpublished
  | stop p =>
    obtain ⟨hp, hs⟩ := Option.ite_none_right_eq_some.mp hs
    cases hs
    refine h.of_outside (by rintro ⟨_, h⟩; cases h) (by rintro ⟨_, _, h⟩; cases h) (by rintro ⟨_, _, h⟩; cases h) fun q hq => ?_
    rw [hp]
    exact hq
  | reboot i =>
    cases hs
    refine h.of_outside (by rintro ⟨_, h⟩; cases h) (by rintro ⟨_, _, h⟩; cases h) (by rintro ⟨_, _, h⟩; cases h) fun q hq => ?_
    cases hq
  | exit p i => cases hs

/-- While a request has stored its reason and its process runs, it asks. -/
theorem asks_of_stored {c : Config} (hρ : stages.Tracks c ρ) {i : Nat} (hp : c.state.process = some p)
    (hr : ρ (.terminateUpgrade p i) = some .stored) : c.live (.terminateUpgrade p i) = true ∧ c.asks (.terminateUpgrade p i) = true := by
  have hlive := (hρ.live_iff (.terminateUpgrade p i)).mpr (by rw [hr]; rfl)
  obtain ⟨o, k, hf⟩ := Config.find_of_live hlive
  have hnext : c.next (.terminateUpgrade p i) = some o := by simp [Config.next, hf]
  obtain ⟨r₁, hr₁, ha⟩ := hρ.allowed hnext
  rw [hr] at hr₁
  cases hr₁
  refine ⟨hlive, ?_⟩
  show (c.state.process = some p && (c.next (.terminateUpgrade p i)).any _) = true
  rw [hnext]
  have hasks : ∃ t, o = .startServiceByTimer t := by
    cases o with
    | startServiceByTimer t => exact ⟨t, rfl⟩
    | isInRebootDuration | obtainRestartReason | removeRestartReason | removeAllPreferences | destroyBaseDirs | destroyFirmwareDirs
    | deleteDbStore | publish =>
      obtain ⟨⟨_, hn⟩, -⟩ := ha
      cases hn
    | saveRestartReason x =>
      rcases ha with ⟨-, -, hr⟩ | ⟨-, _, _, hn⟩
      · cases hr
      · cases hn
    | spawn t => cases ha.1
    | getTimestamp | getLastIdleCheckTime | setLastIdleCheckTime | isIdle | unloadSystemAbility | reply | exit | stop | reboot =>
      exact absurd rfl ha
  obtain ⟨t, rfl⟩ := hasks
  simp [hp]

/-- An operation keeps the invariant. -/
theorem run_consistent {c : Config} {o : Op} {a : Answer} {x : o.Res} (hρ : stages.Tracks c ρ) (h : Consistent c.state ρ)
    (hok : undisturbed c (.run n a) = true) (hnext : c.next n = some o) (hr : ρ n = some r) (ha : allowed n r o)
    (hx : exec n o a c.state = some (x, s')) : Consistent s' (Function.update ρ n (some (next r o x))) := by
  obtain ⟨hrun, hanswer, rfl⟩ := exec_eq hx
  have hsame : Function.update ρ n (some r) = ρ := by rw [← hr, Function.update_eq_self]
  simp only [undisturbed, hnext] at hok
  cases o with
  | getTimestamp | getLastIdleCheckTime | setLastIdleCheckTime | isIdle | destroyFirmwareDirs | unloadSystemAbility | reply | spawn =>
    rw [show next r _ x = r from rfl, hsame]
    exact h.of_eq rfl rfl rfl rfl rfl
  | isInRebootDuration =>
    obtain ⟨⟨p, rfl⟩, rfl⟩ := ha
    have hp := hrun p rfl
    cases x with
    | false =>
      rw [show next .fresh .isInRebootDuration false = .fresh from rfl, hsame]
      exact h.of_eq rfl rfl rfl rfl rfl
    | true =>
      have haccepted : c.state.history.accepted = false := by
        cases a with
        | bool b =>
          cases b with
          | true => simpa using hok
          | false => cases hanswer
        | none | int => cases hanswer
      have hresets : ¬Stage.calm.resets := by simp [Stage.resets]
      refine h.of_start hp hr Stage.noConfusion rfl rfl (.inr rfl) h.once h.stored (fun ha => ?_) (fun hk => absurd hk hresets)
        Stage.noConfusion fun _ => haccepted
      exact absurd ha (by simp [Op.chronicle, haccepted])
  | obtainRestartReason =>
    obtain ⟨⟨p, rfl⟩, rfl⟩ := ha
    have hp := hrun p rfl
    have hx : c.state.restartReason.getD .unknown = x := Option.some.inj hanswer
    by_cases hreset : x = .processEnvReset
    · have hreason : c.state.restartReason = some .processEnvReset := by
        cases hs : c.state.restartReason with
        | none =>
          rw [hs, hreset] at hx
          cases hx
        | some y =>
          rw [hs] at hx
          exact congrArg some (Eq.trans hx hreset)
      rw [show next .fresh .obtainRestartReason x = .resetting from if_pos hreset]
      exact h.of_start hp hr Stage.noConfusion rfl rfl (.inr rfl) h.once h.stored (fun _ => .inl hreason) (fun _ => h.stored hreason)
        Stage.noConfusion Stage.noConfusion
    · have hreason : c.state.restartReason ≠ some .processEnvReset := by
        intro hs
        rw [hs] at hx
        exact hreset hx.symm
      have haccepted : ¬c.state.history.accepted = true := by
        intro ha
        rcases h.accepted ha with hs | ⟨q, r₁, hq, h₁, hk⟩
        · exact hreason hs
        · rw [hp] at hq
          cases hq
          rw [hr] at h₁
          cases h₁
          exact absurd hk final_fresh
      have hresets : ¬Stage.calm.resets := by simp [Stage.resets]
      rw [show next .fresh .obtainRestartReason x = .calm from if_neg hreset]
      exact h.of_start hp hr Stage.noConfusion rfl rfl (.inr rfl) h.once h.stored (fun ha => absurd ha haccepted)
        (fun hk => absurd hk hresets) Stage.noConfusion fun _ => Bool.eq_false_iff.mpr haccepted
  | removeRestartReason =>
    obtain ⟨⟨p, rfl⟩, hstage⟩ := ha
    have hp := hrun p rfl
    have hover : r ≠ .over := by
      rintro rfl
      rcases hstage with h | h <;> cases h
    refine h.of_start hp hr hover rfl rfl (.inr rfl) h.once (fun hs => by cases hs) (fun ha => .inr ?_) (h.resets p r hp hr)
      (fun _ hs => by cases hs) ?_
    · rcases hstage with rfl | rfl
      · exact .inl rfl
      · exact absurd (h.calm p hp hr) (by simpa [Op.chronicle] using ha)
    · rintro hcalm
      obtain rfl : r = .calm := hcalm
      exact h.calm p hp hr
  | saveRestartReason reason =>
    rcases ha with ⟨rfl, hrequest, rfl⟩ | ⟨rfl, hround⟩
    · obtain ⟨p, i, rfl⟩ := hrequest
      have hp := hrun p rfl
      exact h.of_service (.inl ⟨p, i, rfl⟩) (h.serving _ _ p hr (.inl ⟨p, i, rfl⟩) rfl hp) rfl hp rfl rfl rfl h.once (fun _ => rfl)
        (fun _ => rfl) fun _ _ => rfl
    · obtain ⟨p, i, rfl⟩ := hround
      have hp := hrun p rfl
      obtain ⟨haccepted, hasks⟩ : c.state.history.accepted = false ∧ c.all (fun m => !c.asks m) = true := by simpa using hok
      refine h.of_service (.inr ⟨p, i, rfl⟩) (h.serving _ _ p hr (.inr ⟨p, i, rfl⟩) rfl hp) rfl hp rfl rfl rfl h.once
        (fun hs => by cases hs) (fun ha => ?_) fun j hj => ?_
      · exact absurd ha (by simp [Op.chronicle, haccepted])
      · rcases Protocol.role_update hj with ⟨hn, -⟩ | ⟨-, hj⟩
        · cases hn
        · obtain ⟨hlive, hask⟩ := asks_of_stored hρ hp hj
          have := Config.all_eq_true.mp hasks _ hlive
          rw [hask] at this
          cases this
  | removeAllPreferences =>
    obtain ⟨⟨p, rfl⟩, rfl⟩ := ha
    have hp := hrun p rfl
    exact h.of_start hp hr Stage.noConfusion rfl rfl (.inr rfl) h.once (fun hs => by cases hs) (fun _ => .inr (.inr rfl))
      (fun _ => h.resets p _ hp hr (.inl rfl)) (fun _ hs => by cases hs) Stage.noConfusion
  | destroyBaseDirs =>
    obtain ⟨⟨p, rfl⟩, rfl⟩ := ha
    have hp := hrun p rfl
    have hstored := h.resets p _ hp hr (.inl rfl)
    refine h.of_start hp hr Stage.noConfusion rfl rfl (.inr rfl) ⟨h.once.1, ?_⟩ (fun _ => hstored) (fun _ => .inr (.inl rfl))
      (fun _ => hstored) Stage.noConfusion Stage.noConfusion
    show (c.state.history.repeated || !c.state.history.stored) = false
    rw [h.once.2, hstored]
    rfl
  | deleteDbStore =>
    obtain ⟨⟨p, rfl⟩, rfl⟩ := ha
    have hp := hrun p rfl
    have hresets : ¬Stage.calm.resets := by simp [Stage.resets]
    exact h.of_start hp hr Stage.noConfusion rfl rfl (.inr rfl) h.once (fun hs => absurd hs (h.cleared p hp hr))
      (fun ha => by cases ha) (fun hk => absurd hk hresets) Stage.noConfusion fun _ => rfl
  | publish =>
    obtain ⟨⟨p, rfl⟩, rfl⟩ := ha
    have hp := hrun p rfl
    have haccepted := h.calm p hp hr
    refine h.of_start hp hr Stage.noConfusion rfl rfl (.inl rfl) ⟨?_, h.once.2⟩ h.stored (fun ha => ?_)
      (fun hk => absurd hk final_over) Stage.noConfusion Stage.noConfusion
    · show (c.state.history.missed || c.state.history.accepted) = false
      rw [h.once.1, haccepted]
      rfl
    · exact absurd ha (by simp [Op.chronicle, haccepted])
  | startServiceByTimer t =>
    rcases ha with ⟨⟨p, i, rfl⟩, rfl⟩ | ⟨p, i, rfl⟩
    · have hp := hrun p rfl
      have hserving := h.serving _ _ p hr (.inl ⟨p, i, rfl⟩) rfl hp
      have hreason := h.asking p i hp hr
      refine h.of_service (.inl ⟨p, i, rfl⟩) hserving rfl hp rfl rfl rfl ?_ (fun hs => ?_) (fun _ => hreason) fun _ _ => hreason
      · show TakesEffectOnce { c.state with history := if x = 0 then _ else _ }
        split
        · exact h.once
        · exact h.once
      · show History.stored (if x = 0 then _ else _) = true
        split
        · exact h.stored hs
        · exact h.stored hs
    · have hp := hrun p rfl
      have hserving := h.serving _ _ p hr (.inr ⟨p, i, rfl⟩) rfl hp
      exact h.of_service (.inr ⟨p, i, rfl⟩) hserving rfl hp rfl rfl rfl h.once h.stored (h.accepted_of_published hserving) fun j hj =>
        h.asking p j hp (stored_of_update hj Stage.noConfusion)
  | exit | stop | reboot =>
    rw [show next r _ x = r from rfl, hsame]
    refine h.of_leave (fun ha => ?_) rfl rfl rfl rfl
    simpa [ha] using hok

/-- At first there are no requests. -/
theorem consistent_new (store : Store) (rebooted : Bool) : Consistent (Device.new store rebooted) fun _ => none where
  once := ⟨rfl, rfl⟩
  stored := fun h => by cases h
  accepted := fun h => by cases h
  resets := fun _ _ h => by cases h
  cleared := fun _ h => by cases h
  calm := fun _ h => by cases h
  starting := fun _ _ h => by cases h
  serving := fun _ _ _ h => by cases h
  asking := fun _ _ h => by cases h
  older := fun _ _ _ h => by cases h
  current := fun _ h => by cases h

/-- On undisturbed runs the invariant holds. -/
def simulation (config : ScheduleConfig) (store : Store) (rebooted : Bool) :
    Simulation (machine config) stages (fun c a => undisturbed c a = true) (Device.new store rebooted) Consistent where
  occurs := fun _ => True
  occurs_start := fun _ _ _ => trivial
  occurs_spawn := fun _ _ _ _ _ _ _ => trivial
  conforms := fun n _ => conforms config n
  init := consistent_new store rebooted
  start := fun c ρ n s _ h _ _ _ hs => start_consistent h hs
  expected := fun _ _ _ _ _ _ _ _ _ _ _ _ _ _ _ _ => trivial
  run := fun c ρ n r o x a s hρ h _ hok hnext hr ha _ _ hx _ => by
    have hrun := run_consistent hρ h hok hnext hr ha hx
    cases o with
    | spawn t =>
      obtain ⟨-, p, i, rfl, rfl⟩ := ha
      obtain ⟨hp, -, rfl⟩ := exec_eq hx
      refine hrun.of_outside ?_ ?_ ?_ hp
      · rintro ⟨_, hn⟩
        cases hn
      · rintro ⟨_, _, hn⟩
        cases hn
      · rintro ⟨_, _, hn⟩
        cases hn
    | _ => exact hrun
  retire := fun s ρ n r h hr hfinal => h.of_retire hr hfinal

end TerminateAux

open TerminateAux in
/-- On every undisturbed run, each request that was accepted takes effect with the next start, and once. -/
theorem terminate_once (config : ScheduleConfig) (store : Store) (rebooted : Bool) {c : Config}
    (h : Reach (machine config) (fun c a => undisturbed c a = true) ⟨Device.new store rebooted, []⟩ c) : TakesEffectOnce c.state := by
  obtain ⟨⟨ρ, -, hJ⟩, -⟩ := (simulation config store rebooted).invariant h
  exact hJ.once

/-- A thread takes operations with the same answer. -/
def Thread.steps (n : Thread) (a : Answer) (count : Nat) : List Action := List.replicate count (.run n a)

/-- A start up to the reason in the preferences, which is past the reboot duration. -/
def begun (p : Nat) : List Action :=
  .start (.onStart p) :: .run (.onStart p) (.int 0) :: .run (.onStart p) .none :: .run (.onStart p) (.bool false) ::
    Thread.steps (.onStart p) .none 1

/-- A request that is accepted, up to its answer. -/
def terminated (p : Nat) : List Action :=
  .start (.terminateUpgrade p 0) :: .run (.terminateUpgrade p 0) .none :: .run (.terminateUpgrade p 0) (.int 0) ::
    Thread.steps (.terminateUpgrade p 0) .none 2

/-- A round of the looper that finds the service idle and schedules the next start. -/
def scheduled (p : Nat) : List Action :=
  .start (.idleLoop p 0) :: .run (.idleLoop p 0) (.int 300) :: .run (.idleLoop p 0) .none :: .run (.idleLoop p 0) (.int 300) ::
    .run (.idleLoop p 0) .none :: .run (.idleLoop p 0) (.bool true) :: Thread.steps (.idleLoop p 0) .none 1

/-- A version is stored when the request comes. -/
def oneStored : Store := { tasks := [{ taskId := "task" }], components := [{ url := "url" }] }

/-- The next start after a request empties the store. -/
theorem terminate_once_reset : ∃ c, Reach (machine {}) (fun c a => undisturbed c a = true) ⟨Device.new oneStored false, []⟩ c ∧
    (c.state.published = true ∧ c.state.nextProcess = 2 ∧ c.state.store.tasks = []) ∧ TakesEffectOnce c.state := by
  have h : ((machine {}).follow undisturbed (begun 0 ++ Thread.steps (.onStart 0) .none 1 ++ terminated 0 ++
      Thread.steps (.exit 0 0) .none 1 ++ begun 1 ++ Thread.steps (.onStart 1) .none 6) ⟨Device.new oneStored false, []⟩).any
      (fun c => c.state.published && c.state.nextProcess = 2 && c.state.store.tasks.isEmpty) = true := by decide
  obtain ⟨c, hc, hp⟩ := Reach.exists_of_follow h
  exact ⟨c, hc, by simpa [and_assoc] using hp, terminate_once {} oneStored false hc⟩

/-- An idle exit that is scheduled after the request takes the place of its reason: the next start resets nothing. -/
theorem terminate_lost : ¬ ∀ c, Reach (machine {}) (fun _ _ => True) ⟨Device.new oneStored false, []⟩ c → TakesEffectOnce c.state := by
  intro hall
  have h : ((machine {}).follow (fun _ _ => true) (begun 0 ++ Thread.steps (.onStart 0) .none 1 ++ terminated 0 ++ scheduled 0 ++
      Thread.steps (.exit 0 0) .none 1 ++ begun 1 ++ Thread.steps (.onStart 1) .none 1) ⟨Device.new oneStored false, []⟩).any
      (fun c => c.state.history.missed) = true := by decide
  obtain ⟨c, hc, hp⟩ := Reach.exists_of_follow h
  have hmissed := (hall c (hc.mono fun _ _ _ => trivial)).1
  rw [hp] at hmissed
  cases hmissed

end UpdateEngine.Startup
