import Mathlib.Data.List.Induction
import UpdateEngine.Engine.Kits
import UpdateEngine.Theorems.Registry

/-!
# The registries of a client and of the service

The service has the callbacks of a client that the client itself has, whenever the client holds a live handle: over every sequence of
calls, deaths and starts of the service exactly when nothing is unregistered while the handle is live, for an unregistration is not
passed on.
-/

namespace UpdateEngine.Registry.Kits

open Ipc (UpgradeInfo INT_CALL_SUCCESS INT_CALL_IPC_ERR)

/-- The service has nothing that the kit has not, and with a live handle everything that the kit has. -/
def World.Agrees (w : World) : Prop :=
  (∀ info, w.inService info = true → w.inKit info = true) ∧
    (w.live = true → ∀ info, w.inKit info = true → w.inService info = true)

/-- The event is no unregistration of a registered `UpgradeInfo` with a live handle. -/
def World.allows (w : World) : Event → Bool
  | .unregisterUpdateCallback info => !(w.live && w.inKit info)
  | _ => true

namespace KitsAux

open Concurrent

/-! ## The service alone -/

section Service

variable {n : Thread} {s : Service}

/-- A thread of the service that is alone. -/
abbrev alone (n : Thread) (o : Op) (s : Service) : Option (o.Res × Service) := exec n o () s

/-- An operation has its answer and its effect. -/
theorem ends_op {α : Type} {o : Op} {k : o.Res → Registry.Prog α} {Q : α → Service → Prop} {x : o.Res} (hx : o.answer s = some x)
    (h : (k x).Ends (alone n) (o.effect n s) Q) : (Concurrent.Prog.op o k).Ends (alone n) s Q :=
  ⟨x, o.effect n s, by simp [alone, exec, hx], h⟩

/-- An unregistration takes out its client. -/
theorem unregister_ends (n : Thread) (hs : s.locked = false) (info : UpgradeInfo) :
    (Registry.UpdateService.unregisterUpdateCallback info).Ends (alone n) s fun _ s' =>
      s'.locked = false ∧ ∀ j, s'.client j = if j = info then none else s.client j := by
  refine ends_op (x := ()) (by rw [Op.answer, if_neg (by simp [hs])]) (ends_op rfl ?_)
  have herased := RegistryAux.client_eraseClient n (Op.effect n s .lock) info
  rw [Concurrent.Prog.bind]
  split
  · exact ends_op rfl ⟨rfl, herased⟩
  · exact ends_op rfl (ends_op rfl (ends_op rfl ⟨rfl, herased⟩))

theorem locked_setUpgradeInfo (s : Service) (info : UpgradeInfo) : (s.setUpgradeInfo info).locked = s.locked := by
  unfold Service.setUpgradeInfo
  split
  · rfl
  · split
    · rfl
    · rfl

/-- A registration puts in its client. -/
theorem register_ends (n : Thread) (hs : s.locked = false) (info : UpgradeInfo) (updateCallback : Nat) :
    (Registry.UpdateService.registerUpdateCallback info updateCallback).Ends (alone n) s fun _ s' =>
      s'.locked = false ∧ ∀ j, (s'.client j).isSome = (decide (j = info) || (s.client j).isSome) := by
  refine Concurrent.Prog.Ends.seq (unregister_ends n hs info) ?_
  rintro _ s₁ ⟨hs₁, hclient⟩
  refine ends_op (x := ()) (by rw [Op.answer, if_neg (by simp [hs₁])]) (ends_op rfl (ends_op rfl ?_))
  have hinserted : ∀ j, ((s₁.insertClient info updateCallback).client j).isSome = (decide (j = info) || (s.client j).isSome) := by
    intro j
    rw [RegistryAux.client_insertClient, hclient]
    by_cases hj : j = info
    · simp [hj]
    · simp [hj]
  cases hlocal : info.isLocal with
  | true => exact ends_op rfl (ends_op rfl ⟨rfl, hinserted⟩)
  | false =>
    refine ends_op rfl (ends_op rfl (ends_op rfl ⟨locked_setUpgradeInfo _ info, ?_⟩))
    intro j
    have hmap := (RegistryAux.setUpgradeInfo_same (Op.effect n (s₁.insertClient info updateCallback) .unlock) info).1
    rw [← hinserted]
    exact congrArg (fun l => (l.lookup j).isSome) hmap

/-- What is registered after that. -/
theorem register_spec (hs : s.locked = false) (info : UpgradeInfo) (updateCallback : Nat) :
    (register s info updateCallback).locked = false ∧
      ∀ j, ((register s info updateCallback).client j).isSome = (decide (j = info) || (s.client j).isSome) := by
  obtain ⟨_, s', hr, h⟩ := Concurrent.Prog.ends_iff_run.mp (register_ends (.registerUpdateCallback 0 info updateCallback) hs info updateCallback)
  rw [register, hr]
  exact h

end Service

/-! ## The invariant -/

/-- What holds of the world as long as nothing is unregistered with a live handle: what is registered at the service is what is
registered in the kit, when the handle is live, and nothing otherwise; the numbers are those of instances, and a notice is about one
that has died. -/
structure Sound (w : World) : Prop where
  unlocked : w.service.locked = false
  registered : ∀ info, w.inService info = (w.live && w.inKit info)
  running : ∀ o, w.running = some o → o < w.nextInstance ∧ o ∉ w.notices
  known : ∀ o, w.updateService = some o → o < w.nextInstance
  noticed : ∀ o ∈ w.notices, o < w.nextInstance
  awaited : ∀ o ∈ w.recipients, o < w.nextInstance

variable {w : World} {a : Answers}

theorem Sound.agrees (h : Sound w) : w.Agrees := by
  constructor
  · intro info hinfo
    rw [h.registered, Bool.and_eq_true] at hinfo
    exact hinfo.2
  · intro hlive info hinfo
    rw [h.registered, hlive, hinfo]
    rfl

/-- A handle that is not that of the running instance is not live. -/
theorem live_eq_false (h : w.updateService = none ∨ w.running = none) : w.live = false := by
  unfold World.live
  rcases h with h | h
  · rw [h]
    cases w.running with
    | none => rfl
    | some o => rfl
  · rw [h]
    rfl

theorem live_eq_true {o : Nat} (h : w.running = some o) (hu : w.updateService = some o) : w.live = true := by
  simp [World.live, h, hu]

/-- An instance that is started has nothing registered, and no handle. -/
theorem Sound.start (h : Sound w) : Sound w.start := by
  have hlive : w.start.live = false := by
    unfold World.live World.start
    dsimp only
    cases hu : w.updateService with
    | none => rfl
    | some o =>
      have := h.known o hu
      simp only [Option.isSome_some, Bool.true_and, decide_eq_false_iff_not, Option.some.injEq]
      omega
  refine ⟨rfl, ?_, ?_, ?_, ?_, ?_⟩
  · intro info
    rw [hlive]
    rfl
  · intro o ho
    cases ho
    refine ⟨Nat.lt_succ_self _, ?_⟩
    intro hmem
    exact Nat.lt_irrefl _ (h.noticed _ hmem)
  · intro o ho
    exact Nat.lt_succ_of_lt (h.known o ho)
  · intro o ho
    exact Nat.lt_succ_of_lt (h.noticed o ho)
  · intro o ho
    exact Nat.lt_succ_of_lt (h.awaited o ho)

/-- The object of the service, when there is one, is that of the running instance. -/
theorem getObject_spec (h : Sound w) (hu : w.updateService = none) :
    Sound (UpdateServiceKitsImpl.getObject a w).2 ∧ (UpdateServiceKitsImpl.getObject a w).2.updateService = none ∧
      (UpdateServiceKitsImpl.getObject a w).2.running = (UpdateServiceKitsImpl.getObject a w).1 := by
  cases hr : w.running with
  | some o => simp [UpdateServiceKitsImpl.getObject, getSystemAbility, hr, h, hu]
  | none =>
    cases hl : a.isUpdaterSaLoaded with
    | false => simp [UpdateServiceKitsImpl.getObject, getSystemAbility, tryLoadUpdaterSa, hr, hl, h, hu]
    | true =>
      have hstart : w.start.updateService = none := hu
      simp [UpdateServiceKitsImpl.getObject, getSystemAbility, tryLoadUpdaterSa, hr, hl, h.start, hstart]

/-- The callbacks of the kit are registered one after the other. -/
theorem registerAll_spec {object : Nat} (hr : w.running = some object) (hs : w.service.locked = false)
    (l : List (UpgradeInfo × Nat)) :
    ∃ s', UpdateServiceKitsImpl.registerAll a object l w = ((), { w with service := s' }) ∧
      s'.locked = false ∧ ∀ j, (s'.client j).isSome = ((l.lookup j).isSome || (w.service.client j).isSome) := by
  induction l generalizing w with
  | nil => exact ⟨w.service, rfl, hs, fun j => rfl⟩
  | cons e l ih =>
    obtain ⟨info, updateCallback⟩ := e
    obtain ⟨hlocked, hclient⟩ := register_spec hs info updateCallback
    obtain ⟨s', hl, hs', hclients⟩ := @ih { w with service := register w.service info updateCallback } hr hlocked
    refine ⟨s', ?_, hs', ?_⟩
    · simpa [UpdateServiceKitsImpl.registerAll, UpdateService.registerUpdateCallback, hr] using hl
    · intro j
      rw [hclients, hclient, List.lookup_cons]
      by_cases hj : j = info
      · simp [hj]
      · simp [hj, beq_eq_false_iff_ne.mpr hj]

/-- A handle of the running instance is held, with the callbacks registered again. -/
theorem Sound.of_handle (h : Sound w) (hu : w.updateService = none) {object : Nat} (hr : w.running = some object) {s' : Service}
    (hs' : s'.locked = false)
    (hclients : ∀ j, (s'.client j).isSome = ((w.remoteUpdateCallbackMap.lookup j).isSome || (w.service.client j).isSome)) :
    Sound { w.addDeathRecipient a object with updateService := some object, service := s' } := by
  have hobject := (h.running object hr).1
  refine ⟨hs', ?_, h.running, ?_, h.noticed, ?_⟩
  · intro info
    have hnone : (w.service.client info).isSome = false := by
      have := h.registered info
      rwa [live_eq_false (.inl hu), Bool.false_and] at this
    have hlive := @live_eq_true { w.addDeathRecipient a object with updateService := some object, service := s' } object hr rfl
    rw [hlive, Bool.true_and, World.inService, hclients, hnone, Bool.or_false]
    rfl
  · rintro o ⟨⟩
    exact hobject
  · intro o ho
    unfold World.addDeathRecipient at ho
    dsimp only at ho
    split at ho
    · rcases List.mem_append.mp ho with ho | ho
      · exact h.awaited o ho
      · rw [List.mem_singleton.mp ho]
        exact hobject
    · exact h.awaited o ho

/-- A handle is got, and with a new one the callbacks are registered again. -/
theorem getService_spec (h : Sound w) :
    Sound (UpdateServiceKitsImpl.getService a w).2 ∧
      (UpdateServiceKitsImpl.getService a w).2.updateService = (UpdateServiceKitsImpl.getService a w).1 := by
  cases hu : w.updateService with
  | some o => simp [UpdateServiceKitsImpl.getService, hu, h]
  | none =>
    obtain ⟨h₁, hu₁, hr₁⟩ := getObject_spec (a := a) h hu
    generalize hg : UpdateServiceKitsImpl.getObject a w = g at h₁ hu₁ hr₁
    obtain ⟨object, w₁⟩ := g
    dsimp only at h₁ hu₁ hr₁
    cases object with
    | none => simp [UpdateServiceKitsImpl.getService, hu, hg, h₁, hu₁]
    | some object =>
      let w₂ : World := { w₁.addDeathRecipient a object with updateService := some object }
      obtain ⟨s', hl, hs', hclients⟩ := @registerAll_spec w₂ a object hr₁ h₁.unlocked w₁.remoteUpdateCallbackMap
      have hget : UpdateServiceKitsImpl.getService a w =
          (some object, (UpdateServiceKitsImpl.registerAll a object w₁.remoteUpdateCallbackMap w₂).2) := by
        simp [UpdateServiceKitsImpl.getService, hu, hg, World.addDeathRecipient, w₂]
      rw [hget, hl]
      exact ⟨h₁.of_handle hu₁ hr₁ hs' hclients, rfl⟩

/-- What is registered in the kit after an unregistration, and after a registration. -/
theorem isSome_lookup_erase (l : List (UpgradeInfo × Nat)) (info j : UpgradeInfo) :
    ((l.filter fun e => e.1 ≠ info).lookup j).isSome = (!decide (j = info) && (l.lookup j).isSome) := by
  rw [RegistryAux.lookup_filter]
  by_cases hj : j = info
  · simp [hj]
  · simp [hj]

theorem isSome_lookup_insert (l : List (UpgradeInfo × Nat)) (info j : UpgradeInfo) (updateCallback : Nat) :
    ((l.filter (fun e => e.1 ≠ info) ++ [(info, updateCallback)]).lookup j).isSome =
      (decide (j = info) || (l.lookup j).isSome) := by
  rw [List.lookup_append, Option.isSome_or, isSome_lookup_erase, List.lookup_cons]
  by_cases hj : j = info
  · simp [hj]
  · simp [hj, beq_eq_false_iff_ne.mpr hj]

/-- A registration with a handle is known on both sides, when the handle is live. -/
theorem Sound.of_register (h : Sound w) {object : Nat} (hr : w.running = some object) (hu : w.updateService = some object)
    (info : UpgradeInfo) (updateCallback : Nat) :
    Sound { w with
      nextCallback := w.nextCallback + 1
      service := register w.service info updateCallback
      remoteUpdateCallbackMap := w.remoteUpdateCallbackMap.filter (fun e => e.1 ≠ info) ++ [(info, updateCallback)] } := by
  obtain ⟨hlocked, hclient⟩ := register_spec h.unlocked info updateCallback
  refine ⟨hlocked, ?_, h.running, h.known, h.noticed, h.awaited⟩
  intro j
  have hj : w.inService j = w.inKit j := by
    rw [h.registered, live_eq_true hr hu, Bool.true_and]
  change _ = (w.live && _)
  rw [live_eq_true hr hu, Bool.true_and, World.inService, World.inKit, hclient, isSome_lookup_insert]
  exact congrArg (decide (j = info) || ·) hj

theorem registerUpdateCallback_sound (h : Sound w) (info : UpgradeInfo) :
    Sound (UpdateServiceKitsImpl.registerUpdateCallback a info w).2 := by
  obtain ⟨h₁, hu₁⟩ := getService_spec (a := a) h
  generalize hg : UpdateServiceKitsImpl.getService a w = g at h₁ hu₁
  obtain ⟨object, w₁⟩ := g
  dsimp only at h₁ hu₁
  cases object with
  | none => simp [UpdateServiceKitsImpl.registerUpdateCallback, hg, h₁]
  | some object =>
    by_cases hr : w₁.running = some object
    · simpa [UpdateServiceKitsImpl.registerUpdateCallback, UpdateService.registerUpdateCallback, hg, hr] using
        h₁.of_register hr hu₁ info w₁.nextCallback
    · obtain ⟨unlocked, registered, running, known, noticed, awaited⟩ := h₁
      have h₁ : Sound { w₁ with nextCallback := w₁.nextCallback + 1 } := ⟨unlocked, registered, running, known, noticed, awaited⟩
      simpa [UpdateServiceKitsImpl.registerUpdateCallback, UpdateService.registerUpdateCallback, hg, hr, a.deadObject.2] using h₁

theorem inKit_unregister (w : World) (info j : UpgradeInfo) :
    (UpdateServiceKitsImpl.unregisterUpdateCallback info w).2.inKit j = (!decide (j = info) && w.inKit j) :=
  isSome_lookup_erase w.remoteUpdateCallbackMap info j

/-- An unregistration that the handle does not see keeps the invariant. -/
theorem unregisterUpdateCallback_sound (h : Sound w) {info : UpgradeInfo} (hallows : w.live = false ∨ w.inKit info = false) :
    Sound (UpdateServiceKitsImpl.unregisterUpdateCallback info w).2 := by
  obtain ⟨unlocked, registered, running, known, noticed, awaited⟩ := h
  refine ⟨unlocked, ?_, running, known, noticed, awaited⟩
  intro j
  have hlive : (UpdateServiceKitsImpl.unregisterUpdateCallback info w).2.live = w.live := rfl
  rw [inKit_unregister, hlive]
  refine (registered j).trans ?_
  rcases hallows with hlive | hin
  · simp [hlive]
  · by_cases hj : j = info
    · simp [hj, hin]
    · simp [hj]

/-- A notice that an instance has died. -/
theorem resetService_sound (h : Sound w) {remote : Nat} (hremote : remote ∈ w.notices) :
    Sound (UpdateServiceKitsImpl.resetService remote { w with notices := w.notices.filter fun o => o ≠ remote }).2 := by
  have hkept : ∀ o ∈ w.notices.filter (fun o => o ≠ remote), o ∈ w.notices := fun o ho => (List.mem_filter.mp ho).1
  have hrunning : ∀ o, w.running = some o → o < w.nextInstance ∧ o ∉ w.notices.filter fun o => o ≠ remote :=
    fun o ho => ⟨(h.running o ho).1, fun hmem => (h.running o ho).2 (hkept o hmem)⟩
  simp only [UpdateServiceKitsImpl.resetService, Wire.modify_apply]
  split
  · rename_i hu
    -- the instance that has died is not the one that runs
    have hlive : w.live = false := by
      unfold World.live
      rw [hu, Bool.and_eq_false_iff, decide_eq_false_iff_not]
      refine .inr fun hr => ?_
      exact (h.running remote hr.symm).2 hremote
    refine ⟨h.unlocked, ?_, hrunning, ?_, fun o ho => h.noticed o (hkept o ho), ?_⟩
    · intro info
      have hinfo := h.registered info
      rw [hlive, Bool.false_and] at hinfo
      rw [live_eq_false (.inl rfl), Bool.false_and]
      exact hinfo
    · intro o ho
      cases ho
    · intro o ho
      exact h.awaited o (List.mem_filter.mp ho).1
  · exact ⟨h.unlocked, h.registered, hrunning, h.known, fun o ho => h.noticed o (hkept o ho), h.awaited⟩

/-- The running instance dies. -/
theorem Sound.die (h : Sound w) : Sound w.die := by
  unfold World.die
  split
  · exact h
  · rename_i object hr
    refine ⟨rfl, ?_, ?_, h.known, ?_, ?_⟩
    · intro info
      rw [live_eq_false (.inr rfl), Bool.false_and]
      rfl
    · intro o ho
      cases ho
    · intro o ho
      rcases List.mem_append.mp ho with ho | ho
      · exact h.noticed o ho
      · exact h.awaited o (List.mem_filter.mp ho).1
    · intro o ho
      exact h.awaited o (List.mem_filter.mp ho).1

/-- An event keeps the invariant. -/
theorem Sound.step (h : Sound w) {e : Event} (hallows : w.allows e = true) : Sound (w.step e) := by
  cases e with
  | registerUpdateCallback a info => exact registerUpdateCallback_sound h info
  | unregisterUpdateCallback info =>
    refine unregisterUpdateCallback_sound h ?_
    simpa [World.allows] using hallows
  | request a => exact (getService_spec h).1
  | onRemoteDied remote =>
    unfold World.step
    dsimp only
    split
    · rename_i hremote
      exact resetService_sound h hremote
    · exact h
  | dies => exact h.die
  | starts =>
    unfold World.step
    dsimp only
    split
    · exact h.start
    · exact h

/-- The sequences that keep to the condition keep the invariant. -/
theorem after_sound (l : List Event) (hl : ∀ p e, p ++ [e] <+: l → (World.after {} p).allows e = true) : Sound (World.after {} l) := by
  induction l using List.reverseRecOn with
  | nil =>
    refine ⟨rfl, fun info => rfl, ?_, ?_, ?_, ?_⟩
    · intro o ho
      cases ho
    · intro o ho
      cases ho
    · intro o ho
      cases ho
    · intro o ho
      cases ho
  | append_singleton l e ih =>
    have h := ih fun p e' hp => hl p e' (hp.trans (List.prefix_append l [e]))
    rw [World.after, List.foldl_append]
    exact h.step (hl l e (List.prefix_refl _))

end KitsAux

open KitsAux

/-- After every sequence of registrations, unregistrations, requests, deaths and starts of the service, from the first event to the last
one, the service has the callbacks that the kit has, if and only if no registered `UpgradeInfo` is unregistered with a live handle. -/
theorem registries_agree_iff (l : List Event) :
    (∀ p, p <+: l → (World.after {} p).Agrees) ↔ ∀ p e, p ++ [e] <+: l → (World.after {} p).allows e = true := by
  constructor
  · intro hagrees p e hp
    cases e with
    | unregisterUpdateCallback info =>
      by_cases hallows : (World.after {} p).allows (.unregisterUpdateCallback info) = true
      · exact hallows
      · exfalso
        have hlive : (World.after {} p).live = true ∧ (World.after {} p).inKit info = true := by
          simpa [World.allows] using hallows
        have hbefore := (hagrees p ((List.prefix_append p _).trans hp)).2 hlive.1 info hlive.2
        -- the service still has it, and the kit has not
        have hafter := (hagrees _ hp).1 info
        rw [World.after, List.foldl_append] at hafter
        have hkit := (inKit_unregister (World.after {} p) info info).symm.trans (hafter hbefore)
        simp at hkit
    | _ => rfl
  · intro hallows p hp
    exact (after_sound p fun p' e hp' => hallows p' e (hp'.trans hp)).agrees

/-- A client registers and unregisters: the service has its callback still. -/
theorem unregistration_not_passed_on : ¬ ∀ l, (World.after {} l).Agrees := by
  intro hall
  have h : (World.after {} [.registerUpdateCallback {} app, .unregisterUpdateCallback app]).inService app = true ∧
      (World.after {} [.registerUpdateCallback {} app, .unregisterUpdateCallback app]).inKit app = false := by decide
  exact absurd ((hall _).1 app h.1) (by simp [h.2])

end UpdateEngine.Registry.Kits
