import UpdateEngine.Theorems.Registry

/-!
# Whether the access manager agrees with the registry

A call that changes the map of the clients reads afterwards whether the map is empty and publishes what it has read. An unregistration
does all of this under the lock. A registration has given the lock back by then, and between its reading and its publication the map
can become empty, or be empty no longer.
-/

namespace UpdateEngine.Registry

open Concurrent
open Ipc (UpgradeInfo)

/-- The calls that change the map. -/
def Thread.isCall : Thread → Bool
  | .registerUpdateCallback _ _ _ | .unregisterUpdateCallback _ _ | .onRemoteDied _ _ _ => true
  | _ => false

/-- When no call is in progress, the access manager takes the clients for idle if and only if none is registered. -/
def IdleAgrees (c : Config) : Prop :=
  (∀ n, n.isCall = true → c.live n = false) → c.state.isRemoteIdle = c.state.clientProxyMap.isEmpty

/-- Whether an operation publishes whether the map is empty. -/
def Op.publishes : Op → Bool
  | .setRemoteIdle _ => true
  | _ => false

/-- The map does not become empty, and does not cease to be empty, while another thread is about to publish what it has read. -/
def undisturbed (c : Config) : Action → Bool
  | .start _ => true
  | .run n _ => match c.next n with
    | some o => (o.effect n c.state).clientProxyMap.isEmpty = c.state.clientProxyMap.isEmpty ||
      c.all fun m => m = n || !(c.next m).any (·.publishes)
    | none => true

namespace RemoteIdleAux

/-! ## What a call has still to do -/

/-- How far a call has come: it has changed the map; it has read whether the map is empty. -/
inductive Duty where
  | none
  | changed
  | read (empty : Bool)
  deriving DecidableEq

/-- Which operations a duty allows. -/
def allowed (n : Thread) (r : Duty) : Op → Prop
  | .eraseClient _ | .insertClient _ _ => r = .none ∧ n.isCall = true
  | .isEmpty => r = .changed
  | .setRemoteIdle empty => r = .read empty
  | _ => ∀ empty, r ≠ .read empty

/-- The duty after an answer. -/
def next (r : Duty) : (o : Op) → o.Res → Duty
  | .eraseClient _, found => if found then .changed else r
  | .insertClient _ _, _ => .changed
  | .isEmpty, empty => .read empty
  | .setRemoteIdle _, _ => .none
  | _, _ => r

/-- The duties of the threads: none is left at the end. -/
def duties : Protocol Op Op.Res Thread Duty where
  entry := fun _ => .none
  allowed := allowed
  expects := fun _ _ _ _ => True
  next := fun _ => next
  final := fun r => r = .none

theorem unregister_spec {n : Thread} (hn : n.isCall = true) (i : UpgradeInfo) :
    duties.Spec n (UpdateService.unregisterUpdateCallback i) .none fun _ r => r = .none := by
  refine ⟨nofun, fun _ _ => ⟨⟨rfl, hn⟩, fun found _ => ?_⟩⟩
  cases found with
  | false => exact ⟨nofun, fun _ _ => rfl⟩
  | true => exact ⟨rfl, fun _ _ => ⟨rfl, fun _ _ => ⟨nofun, fun _ _ => rfl⟩⟩⟩

theorem register_conforms (k : Nat) (i : UpgradeInfo) (updateCallback : Nat) :
    duties.Conforms (.registerUpdateCallback k i updateCallback) (UpdateService.registerUpdateCallback i updateCallback) .none := by
  refine Protocol.Spec.seq (unregister_spec rfl i) ?_
  rintro _ r rfl
  refine ⟨nofun, fun _ _ => ⟨⟨rfl, rfl⟩, fun _ _ => ⟨nofun, fun _ _ => ?_⟩⟩⟩
  cases hlocal : i.isLocal with
  | true => exact ⟨rfl, fun _ _ => ⟨rfl, fun _ _ => rfl⟩⟩
  | false => exact ⟨nofun, fun _ _ => ⟨rfl, fun _ _ => ⟨rfl, fun _ _ => rfl⟩⟩⟩

theorem conforms (n : Thread) : duties.Conforms n (body n) .none := by
  cases n with
  | registerUpdateCallback k i updateCallback => exact register_conforms k i updateCallback
  | unregisterUpdateCallback k i => exact unregister_spec rfl i
  | onRemoteDied r o i => exact unregister_spec rfl i
  | searchCallback k requested =>
    refine ⟨nofun, fun i _ => ⟨nofun, fun _ _ => ⟨nofun, fun callback _ => ⟨nofun, fun _ _ => ?_⟩⟩⟩⟩
    cases callback with
    | none => exact rfl
    | some callback => exact ⟨nofun, fun _ _ => rfl⟩
  | callbackToHap k requested =>
    refine ⟨nofun, fun i _ => ⟨nofun, fun _ _ => ⟨nofun, fun callback _ => ⟨nofun, fun _ _ => ?_⟩⟩⟩⟩
    cases callback with
    | none => exact ⟨nofun, fun _ _ => rfl⟩
    | some callback => exact ⟨nofun, fun _ _ => rfl⟩
  | dies o => exact rfl

/-! ## The flag -/

/-- The flag is right, or some call has still to publish; what a call has read is right; and only calls have anything to do. -/
structure Tracked (s : Service) (ρ : Thread → Option Duty) : Prop where
  right : s.isRemoteIdle = s.clientProxyMap.isEmpty ∨ ∃ m r, ρ m = some r ∧ r ≠ .none
  current : ∀ m empty, ρ m = some (.read empty) → empty = s.clientProxyMap.isEmpty
  calls : ∀ m r, ρ m = some r → r ≠ .none → m.isCall = true

variable {s : Service} {ρ : Thread → Option Duty} {n : Thread} {r : Duty}

/-- A client that is not there is not erased. -/
theorem eraseClient_none (n : Thread) {i : UpgradeInfo} (h : s.client i = none) :
    (s.eraseClient n i).clientProxyMap = s.clientProxyMap := by
  refine List.filter_eq_self.mpr ?_
  intro e he
  have hne := List.lookup_eq_none_iff.mp h e he
  refine decide_eq_true fun heq => ?_
  simp [heq] at hne

/-- A thread whose duty stays as it is goes on, and neither the map nor the flag is touched. -/
theorem Tracked.of_same (h : Tracked s ρ) (hr : ρ n = some r) {s' : Service} (hmap : s'.clientProxyMap = s.clientProxyMap)
    (hflag : s'.isRemoteIdle = s.isRemoteIdle) : Tracked s' (Function.update ρ n (some r)) := by
  have hsame : Function.update ρ n (some r) = ρ := by rw [← hr, Function.update_eq_self]
  rw [hsame]
  exact ⟨by rw [hmap, hflag]; exact h.right, by rw [hmap]; exact h.current, h.calls⟩

/-- A call has changed the map, and no other thread has read what it was. -/
theorem Tracked.of_change (h : Tracked s ρ) (hn : n.isCall = true) {s' : Service}
    (hcurrent : ∀ m empty, m ≠ n → ρ m = some (.read empty) → empty = s'.clientProxyMap.isEmpty) :
    Tracked s' (Function.update ρ n (some .changed)) := by
  refine ⟨Or.inr ⟨n, .changed, Function.update_self .., by simp⟩, ?_, ?_⟩
  · intro m empty hm
    rcases Protocol.role_update hm with ⟨-, hread⟩ | ⟨hne, hold⟩
    · cases hread
    · exact hcurrent m empty hne hold
  · intro m r' hm hr'
    rcases Protocol.role_update hm with ⟨rfl, -⟩ | ⟨-, hold⟩
    · exact hn
    · exact h.calls m r' hold hr'

/-- A thread that has read whether the map is empty publishes next. -/
theorem publishes_of_read {c : Config} (h : duties.Tracks c ρ) {m : Thread} {empty : Bool} (hm : ρ m = some (.read empty)) :
    c.live m = true ∧ (c.next m).any (·.publishes) = true := by
  have hlive : c.live m = true := (h.live_iff m).mpr (by rw [hm]; rfl)
  obtain ⟨o, k, hfind⟩ := Config.find_of_live hlive
  obtain ⟨r, hr, ha, -⟩ := h.role hfind
  rw [hm] at hr
  cases hr
  refine ⟨hlive, ?_⟩
  rw [show c.next m = some o by simp [Config.next, hfind]]
  cases o with
  | setRemoteIdle => rfl
  | eraseClient | insertClient => cases ha.1
  | isEmpty => cases ha
  | _ => exact absurd rfl (ha empty)

/-- An operation keeps the invariant. -/
theorem run_tracked {c : Config} {o : Op} {a : Unit} {x : o.Res} {s' : Service} (hρ : duties.Tracks c ρ) (h : Tracked c.state ρ)
    (hok : undisturbed c (.run n a) = true) (hnext : c.next n = some o) (hr : ρ n = some r) (ha : allowed n r o)
    (hx : exec n o a c.state = some (x, s')) : Tracked s' (Function.update ρ n (some (next r o x))) := by
  obtain ⟨hanswer, rfl⟩ := RegistryAux.exec_eq hx
  -- what another thread has read stays right
  have hcurrent : ∀ m empty, m ≠ n → ρ m = some (.read empty) → empty = (o.effect n c.state).clientProxyMap.isEmpty := by
    intro m empty hne hm
    simp only [undisturbed, hnext, Bool.or_eq_true, decide_eq_true_eq, Config.all_eq_true] at hok
    obtain ⟨hlive, hpublishes⟩ := publishes_of_read hρ hm
    rcases hok with hsame | hall
    · rw [hsame]
      exact h.current m empty hm
    · have := hall m hlive
      simp [hne, hpublishes] at this
  cases o with
  | eraseClient i =>
    obtain ⟨rfl, hn⟩ := ha
    cases x with
    | true => exact h.of_change hn hcurrent
    | false =>
      have hnone : c.state.client i = none := by
        have := Option.some.inj hanswer
        simpa using this
      exact h.of_same hr (eraseClient_none n hnone) rfl
  | insertClient i updateCallback =>
    obtain ⟨rfl, hn⟩ := ha
    exact h.of_change hn hcurrent
  | isEmpty =>
    obtain rfl : r = .changed := ha
    obtain rfl : c.state.clientProxyMap.isEmpty = x := Option.some.inj hanswer
    refine ⟨Or.inr ⟨n, _, Function.update_self .., by simp [next]⟩, ?_, ?_⟩
    · intro m empty hm
      rcases Protocol.role_update hm with ⟨rfl, hread⟩ | ⟨-, hold⟩
      · exact (Duty.read.inj hread)
      · exact h.current m empty hold
    · intro m r' hm hr'
      rcases Protocol.role_update hm with ⟨rfl, -⟩ | ⟨-, hold⟩
      · exact h.calls m .changed hr (by simp)
      · exact h.calls m r' hold hr'
  | setRemoteIdle empty =>
    obtain rfl : r = .read empty := ha
    refine ⟨Or.inl (h.current n empty hr), ?_, ?_⟩
    · intro m empty' hm
      rcases Protocol.role_update hm with ⟨-, hread⟩ | ⟨-, hold⟩
      · cases hread
      · exact h.current m empty' hold
    · intro m r' hm hr'
      rcases Protocol.role_update hm with ⟨-, rfl⟩ | ⟨-, hold⟩
      · exact absurd rfl hr'
      · exact h.calls m r' hold hr'
  | setUpgradeInfo i =>
    refine h.of_same hr (RegistryAux.setUpgradeInfo_same c.state i).1 ?_
    simp only [Op.effect, Service.setUpgradeInfo]
    split
    · rfl
    · split <;> rfl
  | lock | unlock | getClient | getUpgradeInfo | onCheckVersionDone | onEvent | notifyToHap => exact h.of_same hr rfl rfl

/-- The invariant of the runs in which no reading is overtaken. -/
def tracked : Simulation machine duties (fun c a => undisturbed c a = true) {} Tracked where
  occurs := fun _ => True
  occurs_start := fun _ _ _ => trivial
  occurs_spawn := fun _ _ _ _ _ _ _ => trivial
  conforms := fun n _ => conforms n
  init := by
    refine ⟨Or.inl rfl, ?_, ?_⟩
    · intro m empty hm
      cases hm
    · intro m r hm
      cases hm
  start := by
    intro c ρ n s _ h _ hn _ hs
    have hsame : s.clientProxyMap = c.state.clientProxyMap ∧ s.isRemoteIdle = c.state.isRemoteIdle := by
      cases n with
      | onRemoteDied =>
        obtain ⟨-, hs⟩ := Option.ite_none_right_eq_some.mp hs
        cases hs
        exact ⟨rfl, rfl⟩
      | dies =>
        obtain ⟨-, hs⟩ := Option.ite_none_left_eq_some.mp hs
        cases hs
        exact ⟨rfl, rfl⟩
      | _ =>
        cases hs
        exact ⟨rfl, rfl⟩
    have hold {m : Thread} {r : Duty} (hm : Function.update ρ n (some .none) m = some r) (hr : r ≠ .none) : ρ m = some r := by
      rcases Protocol.role_update hm with ⟨-, rfl⟩ | ⟨-, hold⟩
      · exact absurd rfl hr
      · exact hold
    refine ⟨?_, ?_, ?_⟩
    · rw [hsame.1, hsame.2]
      refine h.right.imp_right ?_
      rintro ⟨m, r, hm, hr⟩
      refine ⟨m, r, ?_, hr⟩
      rwa [Function.update_of_ne]
      rintro rfl
      rw [hn] at hm
      cases hm
    · intro m empty hm
      rw [hsame.1]
      exact h.current m empty (hold hm (by simp))
    · intro m r hm hr
      exact h.calls m r (hold hm hr) hr
  expected := fun _ _ _ _ _ _ _ _ _ _ _ _ _ _ _ _ => trivial
  run := fun _ _ _ _ _ _ _ _ hρ h _ hok hnext hr ha _ _ hx _ => run_tracked hρ h hok hnext hr ha hx
  retire := by
    intro s ρ n r h hr hfinal
    refine ⟨?_, ?_, ?_⟩
    · refine h.right.imp_right ?_
      rintro ⟨m, r', hm, hr'⟩
      refine ⟨m, r', ?_, hr'⟩
      rwa [Function.update_of_ne]
      rintro rfl
      rw [hr] at hm
      cases hm
      exact hr' hfinal
    · intro m empty hm
      exact h.current m empty (Protocol.role_retire hm).2
    · intro m r' hm
      exact h.calls m r' (Protocol.role_retire hm).2

end RemoteIdleAux

open RemoteIdleAux

/-- In every run in which the map becomes empty or ceases to be empty only while no other thread stands between its reading of that
and its publication, the access manager agrees with the registry whenever no call is in progress. -/
theorem idle_agrees {c : Config} (h : Reach machine (fun c a => undisturbed c a = true) ⟨{}, []⟩ c) : IdleAgrees c := by
  obtain ⟨⟨ρ, hρ, htracked⟩, -⟩ := tracked.invariant h
  intro hquiet
  rcases htracked.right with hright | ⟨m, r, hm, hr⟩
  · exact hright
  · have hlive := (hρ.live_iff m).mpr (by rw [hm]; rfl)
    rw [hquiet m (htracked.calls m r hm hr)] at hlive
    cases hlive

/-- A client is registered and unregistered. -/
theorem idle_agrees_one : ∃ c, Reach machine (fun c a => undisturbed c a = true) ⟨{}, []⟩ c ∧ c.state.isRemoteIdle = true ∧
    c.started (.unregisterUpdateCallback 1 app) = true ∧ IdleAgrees c := by
  have h : (machine.follow undisturbed (turnsOf [(.registerUpdateCallback 0 app 1, 10), (.unregisterUpdateCallback 1 app, 6)])
      ⟨{}, []⟩).any (fun c => c.state.isRemoteIdle && c.started (.unregisterUpdateCallback 1 app)) = true := by decide
  obtain ⟨c, hc, hp⟩ := Reach.exists_of_follow h
  obtain ⟨hidle, hstarted⟩ := (Bool.and_eq_true _ _).mp hp
  exact ⟨c, hc, hidle, hstarted, idle_agrees hc⟩

/-- A registration whose client is removed reads that the map is empty, and publishes it when another client is registered. -/
theorem idle_disagrees : ¬ ∀ c, Reach machine (fun _ _ => True) ⟨{}, []⟩ c → IdleAgrees c := by
  intro hall
  have h : (machine.follow (fun _ _ => true) (turnsOf [(.registerUpdateCallback 0 app 1, 8), (.unregisterUpdateCallback 1 app, 6),
      (.registerUpdateCallback 0 app 1, 1), (.registerUpdateCallback 2 app2 2, 10), (.registerUpdateCallback 0 app 1, 1)])
      ⟨{}, []⟩).any (fun c => c.all (fun n => !n.isCall) && c.state.isRemoteIdle && !c.state.clientProxyMap.isEmpty) = true := by
    decide
  obtain ⟨c, hc, hp⟩ := Reach.exists_of_follow h
  simp only [Bool.and_eq_true, Bool.not_eq_true', Config.all_eq_true] at hp
  obtain ⟨⟨hquiet, hidle⟩, hregistered⟩ := hp
  have hagrees := hall c (hc.mono fun _ _ _ => trivial) ?_
  · rw [hidle, hregistered] at hagrees
    cases hagrees
  · intro n hcall
    cases hlive : c.live n with
    | false => rfl
    | true => exact absurd (hquiet n hlive) (by simp [hcall])

end UpdateEngine.Registry
