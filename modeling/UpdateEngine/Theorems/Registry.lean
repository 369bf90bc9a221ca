import UpdateEngine.Engine.Registry

/-!
# The callbacks that are removed, and the callbacks that are found

A callback is removed by the death of its own object, and an event finds the callback of the client that has requested it, as long as
clients follow each other as the service expects them to: a client is registered under an `UpgradeInfo` when no notice of a dead one is
on its way for it, and only the last client that has registered makes requests.
-/

namespace UpdateEngine.Registry

open Concurrent
open Ipc (UpgradeInfo BusinessSubType)

/-- A callback is removed by an unregistration or a later registration of its `UpgradeInfo`, or by the notice that its own object has
died. -/
def Removal.Legitimate (r : Removal) : Prop :=
  match r.thread with
  | .registerUpdateCallback _ info _ | .unregisterUpdateCallback _ info => info = r.info
  | .onRemoteDied _ object upgradeInfo => upgradeInfo = r.info ∧ object = r.object
  | _ => False

/-- When a client is inserted under an `UpgradeInfo`, no notice is on its way for that, and no client is registered under it. -/
def succeeded (c : Config) : Action → Bool
  | .start _ => true
  | .run n _ => match c.next n with
    | some (.insertClient info _) =>
      (c.state.notices.all fun d => d.upgradeInfo ≠ info) && (c.state.client info).isNone
    | _ => true

/-- Each callback is registered under one `UpgradeInfo`. -/
def own (owner : Nat → UpgradeInfo) (_ : Config) : Action → Bool
  | .start (.registerUpdateCallback _ info updateCallback) => owner updateCallback = info
  | _ => true

namespace RegistryAux

/-! ## Stages -/

/-- How far a thread has come: it has removed what it is to remove; a delivery has read the cache, or found a callback. -/
inductive Stage where
  | fresh
  | erased
  | looked (info : UpgradeInfo)
  | found (callback : Option Nat)
  deriving DecidableEq

/-- The `UpgradeInfo` a thread registers or removes. -/
def info : Thread → Option UpgradeInfo
  | .registerUpdateCallback _ info _ | .unregisterUpdateCallback _ info | .onRemoteDied _ _ info => some info
  | _ => none

/-- Which operations a stage allows. -/
def allowed (n : Thread) (r : Stage) : Op → Prop
  | .eraseClient i => r = .fresh ∧ info n = some i
  | .insertClient i updateCallback => ∃ k, n = .registerUpdateCallback k i updateCallback
  | .getUpgradeInfo subType => subType = .FIRMWARE
  | .getClient i => r = .looked i
  | .onCheckVersionDone callback | .onEvent callback => r = .found (some callback)
  | .notifyToHap => r = .found none
  | _ => True

/-- The stage after an answer. -/
def next (r : Stage) : (o : Op) → o.Res → Stage
  | .eraseClient _, _ => .erased
  | .getUpgradeInfo _, i => .looked i
  | .getClient _, callback => .found callback
  | _, _ => r

/-- The stages of the threads. -/
def stages : Protocol Op Op.Res Thread Stage where
  entry := fun _ => .fresh
  allowed := allowed
  expects := fun _ _ _ _ => True
  next := fun _ => next
  final := fun _ => True

theorem unregister_spec {n : Thread} {i : UpgradeInfo} (hn : info n = some i) :
    stages.Spec n (UpdateService.unregisterUpdateCallback i) .fresh fun _ r => r = .erased := by
  refine ⟨trivial, fun _ _ => ⟨⟨rfl, hn⟩, fun found _ => ?_⟩⟩
  cases found with
  | false => exact ⟨trivial, fun _ _ => rfl⟩
  | true => exact ⟨trivial, fun _ _ => ⟨trivial, fun _ _ => ⟨trivial, fun _ _ => rfl⟩⟩⟩

theorem register_conforms (k : Nat) (i : UpgradeInfo) (updateCallback : Nat) :
    stages.Conforms (.registerUpdateCallback k i updateCallback) (UpdateService.registerUpdateCallback i updateCallback) .fresh := by
  refine Protocol.Spec.seq (unregister_spec rfl) ?_
  rintro _ r rfl
  refine ⟨trivial, fun _ _ => ⟨⟨k, rfl⟩, fun _ _ => ⟨trivial, fun _ _ => ?_⟩⟩⟩
  cases hlocal : i.isLocal with
  | true => exact ⟨trivial, fun _ _ => ⟨trivial, fun _ _ => trivial⟩⟩
  | false => exact ⟨trivial, fun _ _ => ⟨trivial, fun _ _ => ⟨trivial, fun _ _ => trivial⟩⟩⟩

theorem conforms (n : Thread) : stages.Conforms n (body n) .fresh := by
  cases n with
  | registerUpdateCallback k i updateCallback => exact register_conforms k i updateCallback
  | unregisterUpdateCallback k i => exact (unregister_spec rfl).mono fun _ _ _ => trivial
  | onRemoteDied r o i => exact (unregister_spec rfl).mono fun _ _ _ => trivial
  | searchCallback k requested =>
    refine ⟨rfl, fun i _ => ⟨trivial, fun _ _ => ⟨rfl, fun callback _ => ⟨trivial, fun _ _ => ?_⟩⟩⟩⟩
    cases callback with
    | none => trivial
    | some callback => exact ⟨rfl, fun _ _ => trivial⟩
  | callbackToHap k requested =>
    refine ⟨rfl, fun i _ => ⟨trivial, fun _ _ => ⟨rfl, fun callback _ => ⟨trivial, fun _ _ => ?_⟩⟩⟩⟩
    cases callback with
    | none => exact ⟨rfl, fun _ _ => trivial⟩
    | some callback => exact ⟨rfl, fun _ _ => trivial⟩
  | dies o => trivial

/-! ## What one operation does -/

/-- An operation has its answer and its effect. -/
theorem exec_eq {n : Thread} {o : Op} {a : Unit} {s s' : Service} {x : o.Res} (h : exec n o a s = some (x, s')) :
    o.answer s = some x ∧ s' = o.effect n s := by
  obtain ⟨y, hy, he⟩ := Option.map_eq_some_iff.mp h
  obtain ⟨rfl, rfl⟩ := Prod.mk.inj he
  exact ⟨hy, rfl⟩

/-- Who is left when the client of an `UpgradeInfo` is taken out. -/
theorem lookup_filter {β : Type} (l : List (UpgradeInfo × β)) (i j : UpgradeInfo) :
    (l.filter fun e => e.1 ≠ i).lookup j = if j = i then none else l.lookup j := by
  induction l with
  | nil => simp
  | cons e l ih =>
    obtain ⟨k, c⟩ := e
    by_cases hk : k = i
    · subst hk
      rw [List.filter_cons_of_neg (by simp), ih]
      by_cases hj : j = k
      · simp [hj]
      · simp [hj, List.lookup_cons, beq_eq_false_iff_ne.mpr hj]
    · rw [List.filter_cons_of_pos (by simpa using hk), List.lookup_cons, List.lookup_cons, ih]
      by_cases hj : j = k
      · subst hj
        simp [hk]
      · simp [beq_eq_false_iff_ne.mpr hj]

variable {s : Service} {ρ : Thread → Option Stage} {n : Thread} {r : Stage} {i : UpgradeInfo}

theorem client_eraseClient (n : Thread) (s : Service) (i j : UpgradeInfo) :
    (s.eraseClient n i).client j = if j = i then none else s.client j :=
  lookup_filter s.clientProxyMap i j

theorem client_insertClient (s : Service) (i : UpgradeInfo) (updateCallback : Nat) (j : UpgradeInfo) :
    (s.insertClient i updateCallback).client j =
      (s.client j).or (if j = i then some { proxy := updateCallback, deathRecipient := s.nextRecipient } else none) := by
  unfold Service.insertClient Service.client
  dsimp only
  split
  · rename_i hi
    by_cases hj : j = i
    · obtain ⟨c, hc⟩ := Option.isSome_iff_exists.mp hi
      rw [hj, hc]
      rfl
    · rw [if_neg hj, Option.or_none]
  · rw [List.lookup_append, List.lookup_cons]
    by_cases hj : j = i
    · simp [hj]
    · simp [hj, beq_eq_false_iff_ne.mpr hj]

/-- The recipients that still wait after the client of an `UpgradeInfo` was removed. -/
theorem recipients_eraseClient {d : DeathNotice} (h : d ∈ (s.eraseClient n i).recipients) :
    d ∈ s.recipients ∧ ∀ c, s.client i = some c → d.recipient ≠ c.deathRecipient := by
  obtain ⟨hd, hne⟩ := List.mem_filter.mp h
  refine ⟨hd, fun c hc => ?_⟩
  simpa [hc] using hne

/-- The notices that are on their way after that: those the thread does not handle. -/
theorem mem_notices_eraseClient (n : Thread) (s : Service) (i : UpgradeInfo) (d : DeathNotice) :
    d ∈ (s.eraseClient n i).notices ↔ d ∈ s.notices ∧ n.notice ≠ some d := by
  simp [Service.eraseClient]

/-- A removal after that is an old one, or that of the client that was registered. -/
theorem removals_eraseClient {x : Removal} (h : x ∈ (s.eraseClient n i).history.removals) :
    x ∈ s.history.removals ∨ ∃ c, s.client i = some c ∧ x = { info := i, object := c.proxy, thread := n } := by
  refine (List.mem_append.mp h).imp_right fun h => ?_
  obtain ⟨c, hc, rfl⟩ := Option.map_eq_some_iff.mp (Option.mem_toList.mp h)
  exact ⟨c, hc, rfl⟩

/-- What entering a client in the cache leaves as it is. -/
theorem setUpgradeInfo_same (s : Service) (i : UpgradeInfo) :
    (s.setUpgradeInfo i).clientProxyMap = s.clientProxyMap ∧ (s.setUpgradeInfo i).recipients = s.recipients ∧
      (s.setUpgradeInfo i).notices = s.notices ∧ (s.setUpgradeInfo i).history.removals = s.history.removals ∧
      (s.setUpgradeInfo i).history.lastRead = s.history.lastRead ∧
      (s.setUpgradeInfo i).history.deliveries = s.history.deliveries := by
  unfold Service.setUpgradeInfo
  split
  · exact ⟨rfl, rfl, rfl, rfl, rfl, rfl⟩
  · split
    · exact ⟨rfl, rfl, rfl, rfl, rfl, rfl⟩
    · exact ⟨rfl, rfl, rfl, rfl, rfl, rfl⟩

/-! ## The clients that are removed -/

/-- What holds of the service and of how far its threads have come: a recipient waits for the object that is registered, a notice on
its way is about the object that is registered, if there is one, and every thread of a notice that has removed nothing yet handles one
that is on its way. -/
structure Sound (s : Service) (ρ : Thread → Option Stage) : Prop where
  waiting : ∀ d ∈ s.recipients, s.client d.upgradeInfo = some { proxy := d.object, deathRecipient := d.recipient }
  noticed : ∀ d ∈ s.notices, ∀ c, s.client d.upgradeInfo = some c → c.proxy = d.object
  handling : ∀ m d, ρ m = some .fresh → m.notice = some d → d ∈ s.notices
  legitimate : ∀ x ∈ s.history.removals, x.Legitimate

/-- An operation that leaves the clients and the notices as they are. -/
theorem Sound.of_eq {s' : Service} (h : Sound s ρ) (hmap : s'.clientProxyMap = s.clientProxyMap)
    (hrecipients : s'.recipients = s.recipients) (hnotices : s'.notices = s.notices)
    (hremovals : s'.history.removals = s.history.removals) : Sound s' ρ := by
  obtain ⟨waiting, noticed, handling, legitimate⟩ := h
  have hclient : ∀ j, s'.client j = s.client j := by
    intro j
    simp only [Service.client, hmap]
  refine ⟨?_, ?_, ?_, ?_⟩
  · simpa only [hrecipients, hclient] using waiting
  · simpa only [hnotices, hclient] using noticed
  · simpa only [hnotices] using handling
  · simpa only [hremovals] using legitimate

/-- A thread that goes on. -/
theorem Sound.of_stage (h : Sound s ρ) {r' : Stage} (hr : ρ n = some r) (hr' : r' = .fresh → r = .fresh) :
    Sound s (Function.update ρ n (some r')) := by
  refine ⟨h.waiting, h.noticed, ?_, h.legitimate⟩
  intro m d hm hd
  rcases Protocol.role_update hm with ⟨rfl, hfresh⟩ | ⟨-, hm⟩
  · rw [hr' hfresh.symm] at hr
    exact h.handling m d hr hd
  · exact h.handling m d hm hd

/-- The client of an `UpgradeInfo` is removed. -/
theorem Sound.of_erase (h : Sound s ρ) (hr : ρ n = some .fresh) (hn : info n = some i) :
    Sound (s.eraseClient n i) (Function.update ρ n (some .erased)) := by
  refine ⟨?_, ?_, ?_, ?_⟩
  · intro d hd
    obtain ⟨hd, hne⟩ := recipients_eraseClient hd
    have hclient := h.waiting d hd
    rw [client_eraseClient, if_neg, hclient]
    intro hi
    rw [hi] at hclient
    exact hne _ hclient rfl
  · intro d hd c hc
    rw [client_eraseClient] at hc
    split at hc
    · cases hc
    · exact h.noticed d ((mem_notices_eraseClient ..).mp hd).1 c hc
  · intro m d hm hd
    rcases Protocol.role_update hm with ⟨-, hstage⟩ | ⟨hmn, hm⟩
    · cases hstage
    · refine (mem_notices_eraseClient ..).mpr ⟨h.handling m d hm hd, ?_⟩
      intro hnd
      apply hmn
      -- a notice tells the thread that handles it
      cases m with
      | onRemoteDied =>
        cases n with
        | onRemoteDied =>
          cases hd
          cases hnd
          rfl
        | _ => cases hnd
      | _ => cases hd
  · intro x hx
    rcases removals_eraseClient hx with hx | ⟨c, hc, rfl⟩
    · exact h.legitimate x hx
    · cases n with
      | registerUpdateCallback | unregisterUpdateCallback => exact Option.some.inj hn
      | onRemoteDied r o j =>
        cases hn
        exact ⟨rfl, (h.noticed _ (h.handling _ _ hr rfl) c hc).symm⟩
      | _ => cases hn

/-- A client is inserted under an `UpgradeInfo` that has none, with no notice on its way. -/
theorem Sound.of_insert (h : Sound s ρ) (updateCallback : Nat) (hnotices : ∀ d ∈ s.notices, d.upgradeInfo ≠ i)
    (hnone : s.client i = none) : Sound (s.insertClient i updateCallback) ρ := by
  have hold : ∀ d ∈ s.recipients, d.upgradeInfo ≠ i := by
    intro d hd hi
    have hclient := h.waiting d hd
    rw [hi, hnone] at hclient
    cases hclient
  have hclient : ∀ j, j ≠ i → (s.insertClient i updateCallback).client j = s.client j := by
    intro j hj
    rw [client_insertClient, if_neg hj, Option.or_none]
  refine ⟨?_, ?_, h.handling, h.legitimate⟩
  · intro d hd
    have hcases : d ∈ s.recipients ∨ d = { object := updateCallback, recipient := s.nextRecipient, upgradeInfo := i } := by
      unfold Service.insertClient at hd
      dsimp only at hd
      split at hd
      · exact .inl hd
      · exact (List.mem_append.mp hd).imp_right List.mem_singleton.mp
    rcases hcases with hd | rfl
    · rw [hclient _ (hold d hd)]
      exact h.waiting d hd
    · rw [client_insertClient, hnone, if_pos rfl, Option.none_or]
  · intro d hd c hc
    rw [hclient _ (hnotices d hd)] at hc
    exact h.noticed d hd c hc

/-- An object dies: those that waited for it are on their way. -/
theorem Sound.of_death (h : Sound s ρ) (o : Nat) {s' : Service} (hs : starts (.dies o) s = some s') : Sound s' ρ := by
  obtain ⟨-, hs⟩ := Option.ite_none_left_eq_some.mp hs
  cases hs
  refine ⟨?_, ?_, ?_, h.legitimate⟩
  · intro d hd
    exact h.waiting d (List.mem_filter.mp hd).1
  · intro d hd c hc
    rcases List.mem_append.mp hd with hd | hd
    · exact h.noticed d hd c hc
    · have hclient := h.waiting d (List.mem_filter.mp hd).1
      rw [Option.some.inj (hc.symm.trans hclient)]
  · intro m d hm hd
    exact List.mem_append.mpr (.inl (h.handling m d hm hd))

/-- A thread that is started keeps the invariant. -/
theorem start_sound (h : Sound s ρ) {s' : Service} (hs : starts n s = some s') : Sound s' (Function.update ρ n (some .fresh)) := by
  have hbegin : ∀ {s : Service}, Sound s ρ → (∀ d, n.notice = some d → d ∈ s.notices) →
      Sound s (Function.update ρ n (some .fresh)) := by
    intro s h hn
    refine ⟨h.waiting, h.noticed, ?_, h.legitimate⟩
    intro m d hm hd
    rcases Protocol.role_update hm with ⟨rfl, -⟩ | ⟨-, hm⟩
    · exact hn d hd
    · exact h.handling m d hm hd
  cases n with
  | onRemoteDied r o i =>
    obtain ⟨hmem, hs⟩ := Option.ite_none_right_eq_some.mp hs
    cases hs
    refine hbegin h ?_
    rintro d hd
    cases hd
    exact hmem
  | dies o => exact hbegin (h.of_death o hs) fun d hd => by cases hd
  | registerUpdateCallback | unregisterUpdateCallback | searchCallback | callbackToHap =>
    cases hs
    exact hbegin h fun d hd => by cases hd

/-- An operation keeps the invariant. -/
theorem run_sound {c : Config} {o : Op} {a : Unit} {x : o.Res} {s' : Service} (h : Sound c.state ρ)
    (hok : succeeded c (.run n a) = true) (hnext : c.next n = some o) (hr : ρ n = some r) (ha : allowed n r o)
    (hx : exec n o a c.state = some (x, s')) : Sound s' (Function.update ρ n (some (next r o x))) := by
  obtain ⟨-, rfl⟩ := exec_eq hx
  simp only [succeeded, hnext] at hok
  cases o with
  | eraseClient i =>
    obtain ⟨rfl, hi⟩ := ha
    exact h.of_erase hr hi
  | insertClient i updateCallback =>
    rw [Bool.and_eq_true, List.all_eq_true, Option.isNone_iff_eq_none] at hok
    have hnotices : ∀ d ∈ c.state.notices, d.upgradeInfo ≠ i := fun d hd => of_decide_eq_true (hok.1 d hd)
    exact (h.of_insert updateCallback hnotices hok.2).of_stage hr id
  | setUpgradeInfo i =>
    obtain ⟨hmap, hrecipients, hnotices, hremovals, -⟩ := setUpgradeInfo_same c.state i
    exact Sound.of_stage (h.of_eq hmap hrecipients hnotices hremovals) hr id
  | getUpgradeInfo | getClient =>
    refine Sound.of_stage ?_ hr ?_
    · exact h.of_eq rfl rfl rfl rfl
    · intro hstage
      cases hstage
  | lock | unlock | isEmpty | setRemoteIdle | onCheckVersionDone | onEvent | notifyToHap =>
    refine Sound.of_stage ?_ hr id
    exact h.of_eq rfl rfl rfl rfl

/-- The invariant of the runs in which clients succeed each other. -/
def sound : Simulation machine stages (fun c a => succeeded c a = true) {} Sound where
  occurs := fun _ => True
  occurs_start := fun _ _ _ => trivial
  occurs_spawn := fun _ _ _ _ _ _ _ => trivial
  conforms := fun n _ => conforms n
  init := by
    refine ⟨?_, ?_, ?_, ?_⟩
    · intro d hd
      exact absurd hd List.not_mem_nil
    · intro d hd
      exact absurd hd List.not_mem_nil
    · intro m d hm
      cases hm
    · intro d hd
      exact absurd hd List.not_mem_nil
  start := fun _ _ _ _ _ h _ _ _ hs => start_sound h hs
  expected := fun _ _ _ _ _ _ _ _ _ _ _ _ _ _ _ _ => trivial
  run := fun _ _ _ _ _ _ _ _ _ h _ hok hnext hr ha _ _ hx _ => run_sound h hok hnext hr ha hx
  retire := by
    intro s ρ n r h _ _
    refine ⟨h.waiting, h.noticed, ?_, h.legitimate⟩
    intro m d hm hd
    exact h.handling m d (Protocol.role_retire hm).2 hd

/-! ## The callbacks that are found -/

/-- What holds of the service and of how far its threads have come, when each callback is registered under one `UpgradeInfo`: the cache
holds the firmware client that has entered itself last, a delivery that has read it remembers which one that was, and one that has looked
up its receiver has noted it. -/
structure Routed (owner : Nat → UpgradeInfo) (s : Service) (ρ : Thread → Option Stage) : Prop where
  cached : s.upgradeInfo = s.history.registered.getLast?.getD {}
  owned : ∀ j c, s.client j = some c → owner c.proxy = j
  registering : ∀ k j updateCallback, ρ (.registerUpdateCallback k j updateCallback) ≠ none → owner updateCallback = j
  looked : ∀ m j, ρ m = some (.looked j) → j = (s.history.lastRead m).getD {}
  found : ∀ m callback requested, ρ m = some (.found callback) → m.requested = some requested →
    ∃ d ∈ s.history.deliveries, d.thread = m ∧ d.requested = requested ∧ d.receiver = callback
  reached : ∀ d ∈ s.history.deliveries, ∀ callback, d.client = some callback →
    (d.receiver = some callback ↔ d.last.getD {} = d.requested)

variable {owner : Nat → UpgradeInfo}

/-- A registered callback is found under one `UpgradeInfo` only. -/
theorem Routed.client_inj (h : Routed owner s ρ) {j k : UpgradeInfo} {callback : Nat}
    (hj : (s.client j).map (·.proxy) = some callback) (hk : (s.client k).map (·.proxy) = some callback) : j = k := by
  obtain ⟨c, hc, hcallback⟩ := Option.map_eq_some_iff.mp hj
  obtain ⟨c', hc', hcallback'⟩ := Option.map_eq_some_iff.mp hk
  rw [← h.owned j c hc, ← h.owned k c' hc', hcallback, hcallback']

/-- A thread goes on, by an operation that leaves what is looked up as it is. -/
theorem Routed.of_stage (h : Routed owner s ρ) {s' : Service} {r' : Stage} (hr : ρ n = some r) (hr' : r' = r ∨ r' = .erased)
    (hupgradeInfo : s'.upgradeInfo = s.upgradeInfo) (hclient : ∀ j c, s'.client j = some c → owner c.proxy = j)
    (hregistered : s'.history.registered = s.history.registered) (hlastRead : s'.history.lastRead = s.history.lastRead)
    (hdeliveries : s'.history.deliveries = s.history.deliveries) : Routed owner s' (Function.update ρ n (some r')) := by
  have hold : ∀ m r₁, Function.update ρ n (some r') m = some r₁ → r₁ = .erased ∨ ρ m = some r₁ := by
    intro m r₁ hm
    rcases Protocol.role_update hm with ⟨rfl, rfl⟩ | ⟨-, hm⟩
    · rcases hr' with rfl | rfl
      · exact .inr hr
      · exact .inl rfl
    · exact .inr hm
  refine ⟨?_, hclient, ?_, ?_, ?_, ?_⟩
  · rw [hupgradeInfo, hregistered]
    exact h.cached
  · intro k j updateCallback hm
    refine h.registering k j updateCallback ?_
    intro hnone
    by_cases hn : Thread.registerUpdateCallback k j updateCallback = n
    · rw [hn, hr] at hnone
      cases hnone
    · rw [Function.update_of_ne hn, hnone] at hm
      exact hm rfl
  · intro m j hm
    rw [hlastRead]
    exact h.looked m j ((hold m _ hm).resolve_left Stage.noConfusion)
  · intro m callback requested hm hrequested
    rw [hdeliveries]
    exact h.found m callback requested ((hold m _ hm).resolve_left Stage.noConfusion) hrequested
  · rw [hdeliveries]
    exact h.reached

/-- The roles that a thread has not given up are those it had. -/
theorem role_ne_none {r' : Stage} (hr : ρ n = some r) {m : Thread} (hm : Function.update ρ n (some r') m ≠ none) : ρ m ≠ none := by
  by_cases hn : m = n
  · rw [hn, hr]
    exact Option.some_ne_none r
  · rwa [Function.update_of_ne hn] at hm

/-- A delivery reads the cache. -/
theorem Routed.of_look (h : Routed owner s ρ) (hr : ρ n = some r) :
    Routed owner (Op.effect n s (.getUpgradeInfo .FIRMWARE)) (Function.update ρ n (some (.looked s.upgradeInfo))) := by
  refine ⟨h.cached, h.owned, ?_, ?_, ?_, h.reached⟩
  · intro k j updateCallback hm
    exact h.registering k j updateCallback (role_ne_none hr hm)
  · intro m j hm
    unfold Op.effect
    dsimp only
    rcases Protocol.role_update hm with ⟨rfl, hj⟩ | ⟨hmn, hm⟩
    · cases hj
      rw [Function.update_self]
      exact h.cached
    · rw [Function.update_of_ne hmn]
      exact h.looked m j hm
  · intro m callback requested hm hrequested
    rcases Protocol.role_update hm with ⟨-, hcallback⟩ | ⟨-, hm⟩
    · cases hcallback
    · exact h.found m callback requested hm hrequested

/-- A delivery looks up its receiver: it is found when it is the client that has entered itself last, and only then. -/
theorem Routed.of_find (h : Routed owner s ρ) (hr : ρ n = some (.looked i)) :
    Routed owner (Op.effect n s (.getClient i)) (Function.update ρ n (some (.found ((s.client i).map (·.proxy))))) := by
  have hi := h.looked n i hr
  refine ⟨h.cached, h.owned, ?_, ?_, ?_, ?_⟩
  · intro k j updateCallback hm
    exact h.registering k j updateCallback (role_ne_none hr hm)
  · intro m j hm
    rcases Protocol.role_update hm with ⟨-, hj⟩ | ⟨-, hm⟩
    · cases hj
    · exact h.looked m j hm
  · intro m callback requested hm hrequested
    rcases Protocol.role_update hm with ⟨rfl, hcallback⟩ | ⟨-, hm⟩
    · cases hcallback
      have hd : s.delivery m i = some (.mk m requested ((s.client requested).map (·.proxy)) (s.history.lastRead m)
          ((s.client i).map (·.proxy))) := by
        rw [Service.delivery, hrequested, Option.map_some]
      exact ⟨_, List.mem_append_right _ (Option.mem_toList.mpr hd), rfl, rfl, rfl⟩
    · obtain ⟨d, hd, hnoted⟩ := h.found m callback requested hm hrequested
      exact ⟨d, List.mem_append_left _ hd, hnoted⟩
  · intro d hd callback hcallback
    rcases List.mem_append.mp hd with hd | hd
    · exact h.reached d hd callback hcallback
    · obtain ⟨requested, -, rfl⟩ := Option.map_eq_some_iff.mp (Option.mem_toList.mp hd)
      dsimp only at hcallback ⊢
      rw [← hi]
      constructor
      · intro hreceiver
        exact h.client_inj hreceiver hcallback
      · rintro rfl
        exact hcallback

/-- A client enters itself in the cache. -/
theorem Routed.of_enter (h : Routed owner s ρ) (hr : ρ n = some r) (i : UpgradeInfo) :
    Routed owner (s.setUpgradeInfo i) (Function.update ρ n (some r)) := by
  obtain ⟨hmap, -, -, -, hlastRead, hdeliveries⟩ := setUpgradeInfo_same s i
  have hcached : (s.setUpgradeInfo i).upgradeInfo = (s.setUpgradeInfo i).history.registered.getLast?.getD {} := by
    unfold Service.setUpgradeInfo
    split
    · exact h.cached
    · split
      · exact h.cached
      · simp
  have hrole : Function.update ρ n (some r) = ρ := by rw [← hr, Function.update_eq_self]
  rw [hrole]
  refine ⟨hcached, ?_, h.registering, ?_, ?_, ?_⟩
  · intro j c hc
    rw [Service.client, hmap] at hc
    exact h.owned j c hc
  · rw [hlastRead]
    exact h.looked
  · rw [hdeliveries]
    exact h.found
  · rw [hdeliveries]
    exact h.reached

/-- An operation keeps the invariant. -/
theorem run_routed {o : Op} {x : o.Res} {s' : Service} (h : Routed owner s ρ) (hr : ρ n = some r) (ha : allowed n r o)
    (hx : exec n o () s = some (x, s')) : Routed owner s' (Function.update ρ n (some (next r o x))) := by
  obtain ⟨hanswer, rfl⟩ := exec_eq hx
  cases o with
  | getUpgradeInfo subType =>
    obtain rfl : subType = .FIRMWARE := ha
    cases hanswer
    exact h.of_look hr
  | getClient i =>
    obtain rfl : r = .looked i := ha
    cases hanswer
    exact h.of_find hr
  | setUpgradeInfo i => exact h.of_enter hr i
  | eraseClient i =>
    refine h.of_stage hr (.inr rfl) rfl ?_ rfl rfl rfl
    intro j c hc
    rw [Op.effect, client_eraseClient] at hc
    split at hc
    · cases hc
    · exact h.owned j c hc
  | insertClient i updateCallback =>
    refine h.of_stage hr (.inl rfl) rfl ?_ rfl rfl rfl
    intro j c hc
    rw [Op.effect, client_insertClient, Option.or_eq_some_iff] at hc
    rcases hc with hc | ⟨-, hc⟩
    · exact h.owned j c hc
    · obtain ⟨rfl, hproxy⟩ := Option.ite_none_right_eq_some.mp hc
      obtain ⟨k, rfl⟩ := ha
      obtain rfl := Option.some.inj hproxy
      refine h.registering k j updateCallback ?_
      rw [hr]
      exact Option.some_ne_none r
  | lock | unlock | isEmpty | setRemoteIdle | onCheckVersionDone | onEvent | notifyToHap =>
    exact h.of_stage hr (.inl rfl) rfl h.owned rfl rfl rfl

/-- A thread that is started keeps the invariant, when it registers a callback under its own `UpgradeInfo`. -/
theorem start_routed {c : Config} (h : Routed owner c.state ρ) (hok : own owner c (.start n) = true) {s' : Service}
    (hs : starts n c.state = some s') : Routed owner s' (Function.update ρ n (some .fresh)) := by
  have hbegin : ∀ {s : Service}, Routed owner s ρ → Routed owner s (Function.update ρ n (some .fresh)) := by
    intro s h
    have hold : ∀ m r₁, Function.update ρ n (some .fresh) m = some r₁ → r₁ = .fresh ∨ ρ m = some r₁ := by
      intro m r₁ hm
      exact (Protocol.role_update hm).imp And.right And.right
    refine ⟨h.cached, h.owned, ?_, ?_, ?_, h.reached⟩
    · intro k j updateCallback hm
      by_cases hn : Thread.registerUpdateCallback k j updateCallback = n
      · subst hn
        exact of_decide_eq_true hok
      · rw [Function.update_of_ne hn] at hm
        exact h.registering k j updateCallback hm
    · intro m j hm
      exact h.looked m j ((hold m _ hm).resolve_left Stage.noConfusion)
    · intro m callback requested hm hrequested
      exact h.found m callback requested ((hold m _ hm).resolve_left Stage.noConfusion) hrequested
  cases n with
  | onRemoteDied r o i =>
    obtain ⟨-, hs⟩ := Option.ite_none_right_eq_some.mp hs
    cases hs
    exact hbegin h
  | dies o =>
    obtain ⟨-, hs⟩ := Option.ite_none_left_eq_some.mp hs
    cases hs
    obtain ⟨cached, owned, registering, looked, found, reached⟩ := h
    exact hbegin ⟨cached, owned, registering, looked, found, reached⟩
  | registerUpdateCallback | unregisterUpdateCallback | searchCallback | callbackToHap =>
    cases hs
    exact hbegin h

/-- The invariant of the runs in which each callback is registered under one `UpgradeInfo`. -/
def routed (owner : Nat → UpgradeInfo) : Simulation machine stages (fun c a => own owner c a = true) {} (Routed owner) where
  occurs := fun _ => True
  occurs_start := fun _ _ _ => trivial
  occurs_spawn := fun _ _ _ _ _ _ _ => trivial
  conforms := fun n _ => conforms n
  init := by
    refine ⟨rfl, ?_, ?_, ?_, ?_, ?_⟩
    · intro j c hc
      cases hc
    · intro k j updateCallback hm
      exact absurd rfl hm
    · intro m j hm
      cases hm
    · intro m callback requested hm
      cases hm
    · intro d hd
      exact absurd hd List.not_mem_nil
  start := fun _ _ _ _ _ h hok _ _ hs => start_routed h hok hs
  expected := fun _ _ _ _ _ _ _ _ _ _ _ _ _ _ _ _ => trivial
  run := fun _ _ _ _ _ _ _ _ _ h _ _ _ hr ha _ _ hx _ => run_routed h hr ha hx
  retire := by
    intro s ρ n r h _ _
    refine ⟨h.cached, h.owned, ?_, ?_, ?_, h.reached⟩
    · intro k j updateCallback hm
      obtain ⟨r', hr'⟩ := Option.ne_none_iff_exists'.mp hm
      refine h.registering k j updateCallback ?_
      rw [(Protocol.role_retire hr').2]
      exact Option.some_ne_none r'
    · intro m j hm
      exact h.looked m j (Protocol.role_retire hm).2
    · intro m callback requested hm hrequested
      exact h.found m callback requested (Protocol.role_retire hm).2 hrequested

end RegistryAux

open RegistryAux

/-- In every run in which a client is registered under an `UpgradeInfo` only when no notice of death is on its way for that and no other
client is registered under it, a callback is removed by an unregistration or a later registration of its `UpgradeInfo`, or by the death
of its own object. -/
theorem callbacks_removed {c : Config} (h : Reach machine (fun c a => succeeded c a = true) ⟨{}, []⟩ c) :
    ∀ r ∈ c.state.history.removals, r.Legitimate := by
  obtain ⟨⟨ρ, -, hsound⟩, -⟩ := sound.invariant h
  exact hsound.legitimate

/-! ### A client that is replaced -/

/-- The client of the examples. -/
def app : UpgradeInfo := { upgradeApp := "app" }

/-- The actions of threads, each with the number of turns it takes, one after the other. -/
def turnsOf (l : List (Thread × Nat)) : List Action :=
  machine.turns (fun _ => ()) (l.flatMap fun e => List.replicate e.2 e.1) ⟨{}, []⟩

/-- A client dies, its notice is handled, and another one is registered in its place. -/
theorem callbacks_removed_successor : ∃ c, Reach machine (fun c a => succeeded c a = true) ⟨{}, []⟩ c ∧
    c.state.history.removals = [{ info := app, object := 1, thread := .onRemoteDied 0 1 app }] ∧
    ∀ r ∈ c.state.history.removals, r.Legitimate := by
  have h : (machine.follow succeeded (turnsOf [(.registerUpdateCallback 0 app 1, 10), (.dies 1, 1), (.onRemoteDied 0 1 app, 6),
      (.registerUpdateCallback 1 app 2, 10)]) ⟨{}, []⟩).any (fun c =>
        c.state.history.removals = [{ info := app, object := 1, thread := .onRemoteDied 0 1 app }]) = true := by decide
  obtain ⟨c, hc, hp⟩ := Reach.exists_of_follow h
  exact ⟨c, hc, of_decide_eq_true hp, callbacks_removed hc⟩

/-- The other one is registered while the notice is on its way: it is the one that is removed. -/
theorem successor_removed : ¬ ∀ c, Reach machine (fun _ _ => True) ⟨{}, []⟩ c → ∀ r ∈ c.state.history.removals, r.Legitimate := by
  intro hall
  have h : (machine.follow (fun _ _ => true) (turnsOf [(.registerUpdateCallback 0 app 1, 10), (.dies 1, 1),
      (.registerUpdateCallback 1 app 2, 12), (.onRemoteDied 0 1 app, 6)]) ⟨{}, []⟩).any (fun c =>
        { info := app, object := 2, thread := .onRemoteDied 0 1 app } ∈ c.state.history.removals) = true := by decide
  obtain ⟨c, hc, hp⟩ := Reach.exists_of_follow h
  have hlegitimate := hall c (hc.mono fun _ _ _ => trivial) _ (of_decide_eq_true hp)
  exact absurd hlegitimate.2 (by decide)

/-- What a thread that delivers sends next: to a callback, or to nobody. -/
def Op.receiver : Op → Option (Option Nat)
  | .onCheckVersionDone callback | .onEvent callback => some (some callback)
  | .notifyToHap => some none
  | _ => none

/-- In every run in which each callback is registered under one `UpgradeInfo`, when what a client has requested is delivered while its
callback is registered, that callback is found if and only if the client is the last firmware client that had entered itself in the
cache when the cache was read; and what is sent goes to the callback that was found. -/
theorem event_routed_iff (owner : Nat → UpgradeInfo) {c : Config} (h : Reach machine (fun c a => own owner c a = true) ⟨{}, []⟩ c) :
    (∀ d ∈ c.state.history.deliveries, ∀ callback, d.client = some callback →
      (d.receiver = some callback ↔ d.last.getD {} = d.requested)) ∧
    ∀ n requested o receiver, n.requested = some requested → c.next n = some o → o.receiver = some receiver →
      ∃ d ∈ c.state.history.deliveries, d.thread = n ∧ d.requested = requested ∧ d.receiver = receiver := by
  obtain ⟨⟨ρ, hρ, hrouted⟩, -⟩ := (routed owner).invariant h
  refine ⟨hrouted.reached, ?_⟩
  intro n requested o receiver hrequested hnext hreceiver
  obtain ⟨r, hr, ha⟩ := hρ.allowed hnext
  obtain rfl : r = .found receiver := by
    cases o with
    | onCheckVersionDone | onEvent | notifyToHap =>
      cases hreceiver
      exact ha
    | _ => cases hreceiver
  exact hrouted.found n receiver requested hr hrequested

/-- The one client gets the events of what it has requested. -/
theorem event_routed_iff_alone : ∃ c, Reach machine (fun c a => own (fun _ => app) c a = true) ⟨{}, []⟩ c ∧
    c.next (.callbackToHap 0 app) = some (.onEvent 1) ∧
    ∀ d ∈ c.state.history.deliveries, ∀ callback, d.client = some callback →
      (d.receiver = some callback ↔ d.last.getD {} = d.requested) := by
  have h : (machine.follow (own fun _ => app) (turnsOf [(.registerUpdateCallback 0 app 1, 10), (.callbackToHap 0 app, 5)])
      ⟨{}, []⟩).any (fun c => c.next (.callbackToHap 0 app) = some (.onEvent 1)) = true := by decide
  obtain ⟨c, hc, hp⟩ := Reach.exists_of_follow h
  exact ⟨c, hc, of_decide_eq_true hp, (event_routed_iff (fun _ => app) hc).1⟩

/-- A second client, and which client has registered a callback. -/
def app2 : UpgradeInfo := { upgradeApp := "app2" }

def ownerOf (callback : Nat) : UpgradeInfo := if callback = 1 then app else app2

/-- An event of what the first one has requested, for which the callback of the second one is found. -/
def misrouted : Delivery :=
  { thread := .callbackToHap 0 app, requested := app, client := some 1, last := some app2, receiver := some 2 }

/-- When both are registered, that event can occur. -/
theorem event_misrouted : ¬ ∀ c, Reach machine (fun c a => own ownerOf c a = true) ⟨{}, []⟩ c →
    ∀ d ∈ c.state.history.deliveries, ∀ callback, d.client = some callback → d.receiver = some callback := by
  intro hall
  have h : (machine.follow (own ownerOf) (turnsOf [(.registerUpdateCallback 0 app 1, 10), (.registerUpdateCallback 1 app2 2, 10),
      (.callbackToHap 0 app, 5)]) ⟨{}, []⟩).any (fun c => misrouted ∈ c.state.history.deliveries) = true := by decide
  obtain ⟨c, hc, hp⟩ := Reach.exists_of_follow h
  exact absurd (hall c hc _ (of_decide_eq_true hp) 1 rfl) (by decide)

end UpdateEngine.Registry
