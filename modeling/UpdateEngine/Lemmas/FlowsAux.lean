import UpdateEngine.Lemmas.InstallAux
import UpdateEngine.Lemmas.StepAux

/-!
# What holds of the flows on every run

Every request works on a flow of its own; a flow that has not been given its first step belongs to its request alone; every other
thread finds its flow past the first step. This is what makes the answers the outline expects, on every run.
-/

namespace UpdateEngine

open Concurrent StepAux

namespace FlowsAux

/-- The invariant of the flows. -/
structure Flows (s : State) (ρ : Thread → Option Role) : Prop where
  lt : ∀ n r, ρ n = some r → n.flow < s.nextFlow
  fresh : ∀ f, s.nextFlow ≤ f → s.flows f = {} ∧ s.journals f = {}
  entering : ∀ n r, ρ n = some r → r.entering = true → (s.flows n.flow).nextStep = .init ∧ (s.flows n.flow).sysCallback = none
  alone : ∀ n r m r', ρ n = some r → r.entering = true → ρ m = some r' → m.flow = n.flow → m = n
  past : ∀ n r, ρ n = some r → r.past = true → (s.flows n.flow).nextStep ≠ .init
  callback : ∀ f, (s.flows f).sysCallback ≠ none → (s.flows f).nextStep ≠ .init
  apply : ∀ n r, ρ n = some r → (r = .applying ∨ (r = .ready ∧ n.order = some .apply)) →
    (s.flows n.flow).nextStep ≠ .installStep
  status : ∀ f, (s.flows f).taskProgress.status.isInstallStatus = true
  plays : ∀ n r, ρ n = some r → plays n r = true
  captured : ∀ f, (s.flows f).sysCallback ≠ none → ∃ n, ρ n = some (.performing true) ∧ n.flow = f
  performing : ∀ f, (s.journals f).performing = true → ∃ n given, ρ n = some (.performing given) ∧ n.flow = f
  kind : ∀ n r m r', ρ n = some r → ρ m = some r' → n.flow = m.flow → n.kind = m.kind

/-- Only an install executor is inside an installer. -/
theorem kind_of_performing {n : Thread} {given : Bool} (h : StepAux.plays n (.performing given) = true) : n.kind = .install := by
  cases n <;> first | rfl | cases h

/-! ## Starts -/

/-- A thread started from outside is a request with a new flow, or a callback into a flow that has given one. -/
theorem starts_cases {n : Thread} {s s' : State} (h : starts n s = some s') :
    (n.flow = s.nextFlow ∧ s' = { s with nextFlow := n.flow + 1 } ∧ (Outline.entry n).past = false) ∨
      (s' = s ∧ Outline.entry n = .installed ∧ (s.flows n.flow).sysCallback ≠ none ∧ n.kind = .install) := by
  cases n with
  | checkNewVersion f | download f o | upgrade f o | cancel f | netChanged f t | clearError f =>
    simp only [starts, Option.ite_none_right_eq_some, Option.some.injEq] at h
    exact .inl ⟨h.1, h.2.symm, rfl⟩
  | delayInit f reason =>
    simp only [starts, Option.ite_none_right_eq_some, Option.some.injEq] at h
    exact .inl ⟨h.1.1.trans h.1.2.symm, by rw [← h.2, h.1.1]; rfl, rfl⟩
  | installerCallback f o i u p m =>
    simp only [starts, Option.ite_none_right_eq_some, Option.some.injEq] at h
    refine .inr ⟨h.2.symm, rfl, fun hn => ?_, rfl⟩
    have hn : (s.flows f).sysCallback = none := hn
    simp [hn] at h
  | _ => exact absurd h (by simp [starts])

/-- A start keeps the invariant. -/
theorem flows_start {s s' : State} {ρ : Thread → Option Role} {n : Thread} (hJ : Flows s ρ) (hn : ρ n = none)
    (h : starts n s = some s') : Flows s' (Function.update ρ n (some (Outline.entry n))) := by
  have hplays (m : Thread) (r : Role) (hm : Function.update ρ n (some (Outline.entry n)) m = some r) :
      StepAux.plays m r = true := by
    rcases Protocol.role_update hm with ⟨rfl, rfl⟩ | ⟨-, hm'⟩
    · exact plays_entry m
    · exact hJ.plays m r hm'
  have hcaptured (f : Nat) (hf : (s.flows f).sysCallback ≠ none) :
      ∃ m, Function.update ρ n (some (Outline.entry n)) m = some (.performing true) ∧ m.flow = f := by
    obtain ⟨m, hm, hmf⟩ := hJ.captured f hf
    refine ⟨m, ?_, hmf⟩
    rw [Function.update_of_ne (by rintro rfl; simp [hn] at hm)]
    exact hm
  have hperforming (f : Nat) (hf : (s.journals f).performing = true) :
      ∃ m given, Function.update ρ n (some (Outline.entry n)) m = some (.performing given) ∧ m.flow = f := by
    obtain ⟨m, given, hm, hmf⟩ := hJ.performing f hf
    refine ⟨m, given, ?_, hmf⟩
    rw [Function.update_of_ne (by rintro rfl; simp [hn] at hm)]
    exact hm
  rcases starts_cases h with ⟨hf, rfl, hp⟩ | ⟨rfl, he, hc, hi⟩
  · have hfresh := hJ.fresh n.flow (by omega)
    have hother {m : Thread} {r : Role} (hm : ρ m = some r) : m.flow ≠ n.flow := by
      have := hJ.lt m r hm
      omega
    refine ⟨fun m r hm => ?_, fun f hf' => hJ.fresh f ?_, fun m r hm hr => ?_, fun m r k r' hm hr hk hmk => ?_,
      fun m r hm hr => ?_, hJ.callback, fun m r hm hr => ?_, hJ.status, hplays, hcaptured, hperforming, ?_⟩
    · show m.flow < n.flow + 1
      rcases Protocol.role_update hm with ⟨rfl, -⟩ | ⟨-, hm'⟩
      · omega
      · have := hJ.lt m r hm'
        omega
    · have : n.flow + 1 ≤ f := hf'
      omega
    · rcases Protocol.role_update hm with ⟨rfl, -⟩ | ⟨-, hm'⟩
      · show ((s.flows m.flow).nextStep = .init ∧ _)
        rw [hfresh.1]
        exact ⟨rfl, rfl⟩
      · exact hJ.entering m r hm' hr
    · rcases Protocol.role_update hm with ⟨rfl, -⟩ | ⟨hmn, hm'⟩
      · rcases Protocol.role_update hk with ⟨rfl, -⟩ | ⟨-, hk'⟩
        · rfl
        · exact absurd hmk (hother hk')
      · rcases Protocol.role_update hk with ⟨rfl, -⟩ | ⟨-, hk'⟩
        · exact absurd hmk.symm (hother hm')
        · exact hJ.alone m r k r' hm' hr hk' hmk
    · rcases Protocol.role_update hm with ⟨rfl, rfl⟩ | ⟨-, hm'⟩
      · exact absurd hr (by simp [hp])
      · exact hJ.past m r hm' hr
    · rcases Protocol.role_update hm with ⟨rfl, rfl⟩ | ⟨-, hm'⟩
      · rcases hr with hr | ⟨hr, -⟩ <;> exact absurd hp (by simp [hr, Role.past])
      · exact hJ.apply m r hm' hr
    · intro m r k r' hm hk hmk
      rcases Protocol.role_update hm with ⟨rfl, -⟩ | ⟨hmn, hm'⟩
      · rcases Protocol.role_update hk with ⟨rfl, -⟩ | ⟨-, hk'⟩
        · rfl
        · exact absurd hmk.symm (hother hk')
      · rcases Protocol.role_update hk with ⟨rfl, -⟩ | ⟨-, hk'⟩
        · exact absurd hmk (hother hm')
        · exact hJ.kind m r k r' hm' hk' hmk
  · have hflow {m : Thread} {r : Role} (hm : ρ m = some r) (hr : r.entering = true) : m.flow ≠ n.flow := fun hmn =>
      hc (hmn ▸ (hJ.entering m r hm hr).2)
    refine ⟨fun m r hm => ?_, hJ.fresh, fun m r hm hr => ?_, fun m r k r' hm hr hk hmk => ?_, fun m r hm hr => ?_, hJ.callback,
      fun m r hm hr => ?_, hJ.status, hplays, hcaptured, hperforming, ?_⟩
    · rcases Protocol.role_update hm with ⟨rfl, -⟩ | ⟨-, hm'⟩
      · by_contra hge
        exact hc (by rw [(hJ.fresh m.flow (Nat.le_of_not_lt hge)).1])
      · exact hJ.lt m r hm'
    · rcases Protocol.role_update hm with ⟨rfl, rfl⟩ | ⟨-, hm'⟩
      · exact absurd hr (by simp [he, Role.entering])
      · exact hJ.entering m r hm' hr
    · rcases Protocol.role_update hm with ⟨rfl, rfl⟩ | ⟨-, hm'⟩
      · exact absurd hr (by simp [he, Role.entering])
      · rcases Protocol.role_update hk with ⟨rfl, -⟩ | ⟨-, hk'⟩
        · exact absurd hmk.symm (hflow hm' hr)
        · exact hJ.alone m r k r' hm' hr hk' hmk
    · rcases Protocol.role_update hm with ⟨rfl, rfl⟩ | ⟨-, hm'⟩
      · exact hJ.callback m.flow hc
      · exact hJ.past m r hm' hr
    · rcases Protocol.role_update hm with ⟨rfl, rfl⟩ | ⟨-, hm'⟩
      · rcases hr with hr | ⟨hr, -⟩ <;> exact absurd hr (by simp [he])
      · exact hJ.apply m r hm' hr
    · have hinstall {k : Thread} {r : Role} (hk : ρ k = some r) (hkn : k.flow = n.flow) : k.kind = n.kind := by
        obtain ⟨l, hl, hlf⟩ := hJ.captured n.flow hc
        rw [hi, hJ.kind k r l _ hk hl (hkn.trans hlf.symm), kind_of_performing (hJ.plays l _ hl)]
      intro m r k r' hm hk hmk
      rcases Protocol.role_update hm with ⟨rfl, -⟩ | ⟨hmn, hm'⟩
      · rcases Protocol.role_update hk with ⟨rfl, -⟩ | ⟨-, hk'⟩
        · rfl
        · exact (hinstall hk' hmk.symm).symm
      · rcases Protocol.role_update hk with ⟨rfl, -⟩ | ⟨-, hk'⟩
        · exact hinstall hm' hmk
        · exact hJ.kind m r k r' hm' hk' hmk

/-! ## Operations -/

/-- The step an operation gives its flow. -/
def stepOf : Op → Option FirmwareStep
  | .setFlow (.nextStep s) => some s
  | _ => none

/-- What an operation makes the callback of its flow capture. -/
def callbackOf : Op → Option (Option (UpgradeOptions × FirmwareComponent))
  | .setFlow (.sysCallback c) => some c
  | _ => none

theorem after_nextStep {n : Thread} {s : State} (o : Op) (x : o.Res) (f : Nat) :
    ((o.after n s x).flows f).nextStep = if f = n.flow then (stepOf o).getD (s.flows f).nextStep else (s.flows f).nextStep := by
  split
  · rename_i hf
    subst hf
    cases o with
    | setFlow u => cases u <;> simp [Op.after, Op.effect, State.setFlow, FlowUpdate.apply, stepOf]
    | openFile p | saveDataToFile p d => cases x <;> rfl
    | awaitWake i => cases x <;> simp [Op.after, Op.effect, State.setFlow, FlowUpdate.apply, stepOf]
    | enter m => cases m <;> rfl
    | _ => rfl
  · rename_i hf
    rw [after_flows_of_ne o x hf]

theorem after_sysCallback {n : Thread} {s : State} (o : Op) (x : o.Res) (f : Nat) :
    ((o.after n s x).flows f).sysCallback =
      if f = n.flow then (callbackOf o).getD (s.flows f).sysCallback else (s.flows f).sysCallback := by
  split
  · rename_i hf
    subst hf
    cases o with
    | setFlow u => cases u <;> simp [Op.after, Op.effect, State.setFlow, FlowUpdate.apply, callbackOf]
    | openFile p | saveDataToFile p d => cases x <;> rfl
    | awaitWake i => cases x <;> simp [Op.after, Op.effect, State.setFlow, FlowUpdate.apply, callbackOf]
    | enter m => cases m <;> rfl
    | _ => rfl
  · rename_i hf
    rw [after_flows_of_ne o x hf]

/-- A callback is captured inside the installer. -/
theorem performing_of_callbackOf {P : Platform} {n : Thread} {r : Role} {o : Op} (ha : Outline.allowed P n r o)
    (ho : callbackOf o ≠ none) : ∃ given, r = .performing given := by
  cases o with
  | setFlow u =>
    cases u with
    | sysCallback c => exact ha
    | _ => exact absurd rfl ho
  | _ => exact absurd rfl ho

/-- A step is given by a request that has not given one yet, or is the last one. -/
theorem sets_of_stepOf {P : Platform} {n : Thread} {r : Role} {o : Op} (ha : Outline.allowed P n r o) {t : FirmwareStep}
    (ho : stepOf o = some t) : t ≠ .init ∧
      (r.entering = true ∧ (r = .accepted → n.order = some .apply → t ≠ .installStep) ∨ (r.past = true ∧ t = .complete)) := by
  cases o with
  | setFlow u =>
    cases u with
    | nextStep t' =>
      cases ho
      obtain ⟨h, ⟨rfl, ht⟩ | rfl | rfl | ⟨rfl, -⟩ | ⟨-, hp, ht⟩⟩ := ha
      · exact ⟨h, .inl ⟨rfl, fun _ => ht⟩⟩
      · exact ⟨h, .inl ⟨rfl, nofun⟩⟩
      · exact ⟨h, .inl ⟨rfl, nofun⟩⟩
      · exact ⟨h, .inl ⟨rfl, nofun⟩⟩
      · exact ⟨h, .inr ⟨hp, ht⟩⟩
    | _ => cases ho
  | _ => cases ho

/-- A thread moves within the entering roles without giving its flow a step. -/
theorem entering_move {n : Thread} {r : Role} {o : Op} (hm : Move n r o) (x : o.Res)
    (h : (Outline.nextRole r o x).entering = true) : r.entering = true ∧ stepOf o = none ∧ callbackOf o = none := by
  cases hm with
  | downloadMode hd => exact ⟨rfl, rfl, rfl⟩
  | installApplyMode hr ho => exact ⟨by rcases hr with rfl | rfl <;> rfl, rfl, rfl⟩
  | hasUndoneTask =>
    simp only [Outline.nextRole] at h
    split at h <;> cases h
  | clear hd => cases r <;> first | exact ⟨rfl, rfl, rfl⟩ | cases h
  | record hc => cases r <;> first | exact ⟨rfl, rfl, rfl⟩ | cases h
  | step hs =>
    obtain ⟨-, ⟨rfl, -⟩ | rfl | rfl | ⟨rfl, -⟩ | ⟨-, hp, -⟩⟩ := hs
    · cases h
    · cases h
    · cases h
    · cases h
    · cases r <;> first | exact (Bool.false_ne_true h).elim | exact (Bool.false_ne_true hp).elim
  | clearing hc hcl hr =>
    rw [nextRole_clearing hc] at h
    cases h
  | components | callback | start | handled | perform | performEnd => cases h

/-- An entering thread was entering before, and its operation has not given its flow a step. -/
theorem entering_next {P : Platform} {n : Thread} {r : Role} {o : Op} {x : o.Res} (ha : Outline.allowed P n r o)
    (h : (Outline.next n r o x).entering = true) : r.entering = true ∧ stepOf o = none ∧ callbackOf o = none := by
  rcases next_cases ha x with ⟨w, -, hn⟩ | ⟨hm, hn⟩ | ⟨-, hmove, hn⟩
  · rw [hn] at h
    cases h
  · rw [hn] at h
    refine ⟨h, ?_, ?_⟩
    · cases o with
      | setFlow u => cases u <;> first | rfl | cases hm
      | _ => rfl
    · cases o with
      | setFlow u => cases u <;> first | rfl | cases hm
      | _ => rfl
  · rw [hn] at h
    exact entering_move hmove x h

/-- A thread past the first step was so before, or has just given the step. -/
theorem past_next {P : Platform} {n : Thread} {r : Role} {o : Op} {x : o.Res} (ha : Outline.allowed P n r o)
    (h : (Outline.next n r o x).past = true) : r.past = true ∨ ∃ t, stepOf o = some t := by
  rcases next_cases ha x with ⟨w, rfl, -⟩ | ⟨-, hn⟩ | ⟨-, hmove, hn⟩
  · exact .inl rfl
  · exact .inl (hn ▸ h)
  · rw [hn] at h
    cases hmove with
    | downloadMode hd =>
      simp only [Outline.nextRole, Outline.decide] at h
      split at h <;> cases h
    | installApplyMode hr ho =>
      simp only [Outline.nextRole, Outline.decide] at h
      split at h <;> cases h
    | clear hd => cases r <;> first | exact .inl rfl | cases h
    | record hc => cases r <;> first | exact .inl rfl | cases h
    | step hs => exact .inr ⟨_, rfl⟩
    | start hs => cases h
    | handled hh => exact .inl (by rcases hh with rfl | rfl <;> rfl)
    | clearing hc hcl hr =>
      rw [nextRole_clearing hc] at h
      cases h
    | hasUndoneTask | components | callback | perform | performEnd => exact .inl rfl

/-- A thread comes to order an apply executor, or to be one, in no other way than these. -/
theorem apply_next {P : Platform} {n : Thread} {r : Role} {o : Op} {x : o.Res} (ha : Outline.allowed P n r o)
    (h : Outline.next n r o x = .applying ∨ (Outline.next n r o x = .ready ∧ n.order = some .apply)) :
    Outline.next n r o x = r ∨ ∃ t, stepOf o = some t ∧ t ≠ .installStep := by
  rcases next_cases ha x with ⟨w, rfl, hn⟩ | ⟨-, hn⟩ | ⟨-, hmove, hn⟩
  · rw [hn] at h
    rcases h with h | ⟨h, -⟩ <;> cases h
  · exact .inl hn
  · rw [hn] at h ⊢
    cases hmove with
    | downloadMode hd =>
      simp only [Outline.nextRole, Outline.decide] at h
      split at h <;> rcases h with h | ⟨h, -⟩ <;> cases h
    | installApplyMode hr ho =>
      simp only [Outline.nextRole, Outline.decide] at h
      split at h <;> rcases h with h | ⟨h, -⟩ <;> cases h
    | hasUndoneTask =>
      simp only [Outline.nextRole] at h
      split at h <;> rcases h with h | ⟨h, -⟩ <;> cases h
    | clear hd => cases r <;> first | exact .inl rfl | (rcases h with h | ⟨h, -⟩ <;> cases h)
    | record hc => cases r <;> first | exact .inl rfl | (rcases h with h | ⟨h, -⟩ <;> cases h)
    | step hs =>
      obtain ⟨-, ⟨rfl, ht⟩ | rfl | rfl | ⟨rfl, f, rfl⟩ | ⟨-, hp, -⟩⟩ := hs
      · rcases h with h | ⟨-, h⟩
        · cases h
        · exact .inr ⟨_, rfl, ht h⟩
      · rcases h with h | ⟨h, -⟩ <;> cases h
      · rcases h with h | ⟨h, -⟩ <;> cases h
      · rcases h with h | ⟨-, h⟩ <;> cases h
      · cases r <;> first | exact .inl rfl | cases hp
    | clearing hc hcl hr =>
      rw [nextRole_clearing hc] at h
      rcases h with h | ⟨h, -⟩ <;> cases h
    | components | callback | start | handled | perform | performEnd => rcases h with h | ⟨h, -⟩ <;> cases h

/-! ## The invariant -/

/-- A started executor belongs to the flow that starts it, which is past its first step. -/
theorem spawns_cases {P : Platform} {n m : Thread} {r : Role} (ha : Outline.allowed P n r (.spawn m)) :
    m.flow = n.flow ∧ r.past = true ∧ (Outline.entry m).entering = false ∧
      (Outline.entry m ≠ .ready) ∧ (Outline.entry m = .applying → r = .ready ∧ n.order = some .apply) ∧
      m.kind = n.kind := by
  rcases ha with ⟨rfl, hs⟩ | ⟨f, o, i, c, l, w, rfl, rfl, -, -, rfl⟩
  · cases n with
    | checkNewVersion f =>
      cases m with
      | checkExecutor g => exact ⟨(of_decide_eq_true hs).symm, rfl, rfl, (fun h => by cases h), (fun h => by cases h), rfl⟩
      | _ => cases hs
    | download f o =>
      cases m with
      | downloadExecutor g o' =>
        simp only [Thread.starts, Bool.and_eq_true, decide_eq_true_eq] at hs
        exact ⟨hs.1.symm, rfl, rfl, (fun h => by cases h), (fun h => by cases h), rfl⟩
      | _ => cases hs
    | upgrade f o =>
      cases m with
      | installExecutor g o' t =>
        simp only [Thread.starts, Bool.and_eq_true, decide_eq_true_eq] at hs
        exact ⟨hs.1.1.symm, rfl, rfl, (fun h => by cases h), (fun h => by cases h), by rw [Thread.kind, Thread.kind, if_pos hs.2]⟩
      | applyExecutor g o' t =>
        simp only [Thread.starts, Bool.and_eq_true, decide_eq_true_eq] at hs
        refine ⟨hs.1.1.symm, rfl, rfl, (fun h => by cases h), fun _ => ⟨rfl, congrArg some hs.2⟩, ?_⟩
        rw [Thread.kind, Thread.kind, hs.2]
        rfl
      | _ => cases hs
    | delayInit f reason =>
      cases m with
      | installExecutor g o' t =>
        simp only [Thread.starts, Bool.and_eq_true, decide_eq_true_eq] at hs
        exact ⟨hs.1.symm, rfl, rfl, (fun h => by cases h), (fun h => by cases h), rfl⟩
      | _ => cases hs
    | _ => cases m <;> cases hs
  · exact ⟨rfl, rfl, rfl, (fun h => by cases h), (fun h => by cases h), rfl⟩

/-- A thread past the first step has not been entering. -/
theorem not_entering_of_past {r : Role} (h : r.past = true) : r.entering = false := by
  cases r <;> first | rfl | cases h

/-- What an assignment leaves behind, and what allowed it. -/
theorem after_flow_cases {n : Thread} {s : State} (o : Op) (x : o.Res) (f : Nat) :
    (o.after n s x).flows f = s.flows f ∨ ∃ u, flowUpdate o x = some u ∧ (o.after n s x).flows f = u.apply (s.flows f) := by
  by_cases hf : f = n.flow
  · subst hf
    cases hu : flowUpdate o x with
    | none => exact .inl (by rw [after_flows, hu])
    | some u => exact .inr ⟨u, rfl, by rw [after_flows, hu]; exact Function.update_self ..⟩
  · exact .inl (after_flows_of_ne o x hf)

theorem sets_of_flowUpdate {P : Platform} {n : Thread} {r : Role} {o : Op} {x : o.Res} {u : FlowUpdate}
    (ha : Outline.allowed P n r o) (hu : flowUpdate o x = some u) : r.sets n u ∨ ∃ i, u = .wake i {} := by
  cases o with
  | setFlow v =>
    cases hu
    exact .inl ha
  | awaitWake i =>
    cases x with
    | true => cases hu
    | false =>
      cases hu
      exact .inr ⟨i, rfl⟩
  | _ => cases hu

/-- A flow past its first step stays so. -/
theorem after_ne_init {P : Platform} {n : Thread} {r : Role} {s : State} {o : Op} {x : o.Res} (ha : Outline.allowed P n r o)
    {f : Nat} (h : (s.flows f).nextStep ≠ .init) : ((o.after n s x).flows f).nextStep ≠ .init := by
  rw [after_nextStep]
  split
  · cases ho : stepOf o with
    | none => exact h
    | some t => exact (sets_of_stepOf ha ho).1
  · exact h

/-- A thread leaves its installer only at its end, and the callback only by taking it back. -/
theorem performing_next {P : Platform} {n : Thread} {given : Bool} {o : Op} {x : o.Res}
    (ha : Outline.allowed P n (.performing given) o) (ho : performs o = none) :
    Outline.next n (.performing given) o x = .performing ((callbackOf o).elim given Option.isSome) := by
  rcases next_cases ha x with ⟨w, hw, -⟩ | ⟨hm, hn⟩ | ⟨-, hmove, hn⟩
  · cases hw
  · have hc : callbackOf o = none := by
      cases o with
      | setFlow u => cases u <;> first | rfl | cases hm
      | _ => rfl
    rw [hn, hc]
    rfl
  · rw [hn]
    cases hmove with
    | installApplyMode hr ho => rcases hr with hr | hr <;> cases hr
    | clear hd => cases hd
    | performEnd => cases ho
    | handled hh => rcases hh with hh | hh <;> cases hh
    | clearing hc hcl hr => rcases hr with hr | hr | hr | hr <;> cases hr
    | record | step | callback => rfl

/-- An operation keeps the invariant. -/
theorem flows_run {P : Platform} {s : State} {ρ : Thread → Option Role} {n : Thread} {r : Role} {o : Op} {x : o.Res}
    (hJ : Flows s ρ) (hr : ρ n = some r) (ha : Outline.allowed P n r o) (hsp : ∀ m, o = .spawn m → m ≠ n ∧ ρ m = none) :
    Flows (o.after n s x) ((outline P).spawn (machine P) o (Function.update ρ n (some (Outline.next n r o x)))) := by
  have hcases {m : Thread} {r' : Role}
      (hm : (outline P).spawn (machine P) o (Function.update ρ n (some (Outline.next n r o x))) m = some r') :
      (∃ m', o = .spawn m' ∧ m = m' ∧ r' = Outline.entry m) ∨ (m = n ∧ r' = Outline.next n r o x) ∨
        (m ≠ n ∧ ρ m = some r') := by
    rcases Protocol.role_spawn (machine P) hm with ⟨hs, rfl⟩ | h
    · cases o with
      | spawn m' => exact .inl ⟨m', rfl, (Option.some.inj hs).symm, rfl⟩
      | _ => cases hs
    · exact .inr h
  have hkeep {m : Thread} {r' : Role} (hm : Function.update ρ n (some (Outline.next n r o x)) m = some r')
      (hne : m = n ∨ ρ m ≠ none) :
      (outline P).spawn (machine P) o (Function.update ρ n (some (Outline.next n r o x))) m = some r' := by
    rw [Protocol.spawn_apply]
    · exact hm
    · intro hs
      cases o with
      | spawn m' =>
        obtain rfl : m' = m := Option.some.inj hs
        exact hne.elim (hsp m' rfl).1 fun h => h (hsp m' rfl).2
      | _ => cases hs
  have hflow {m : Thread} {r' : Role}
      (hm : (outline P).spawn (machine P) o (Function.update ρ n (some (Outline.next n r o x))) m = some r') :
      m.flow < s.nextFlow := by
    rcases hcases hm with ⟨m', rfl, rfl, -⟩ | ⟨rfl, -⟩ | ⟨-, hm⟩
    · rw [(spawns_cases ha).1]
      exact hJ.lt n r hr
    · exact hJ.lt m r hr
    · exact hJ.lt m r' hm
  refine ⟨fun m r' hm => ?_, fun f hf => ?_, fun m r' hm hr' => ?_, fun m r' k r'' hm hr' hk hmk => ?_, fun m r' hm hr' => ?_,
    fun f hf => ?_, fun m r' hm hr' => ?_, fun f => ?_, fun m r' hm => ?_, fun f hf => ?_, fun f hf => ?_,
    fun m r' k r'' hm hk hmk => ?_⟩
  · rw [after_nextFlow]
    exact hflow hm
  · have hf : s.nextFlow ≤ f := by rwa [after_nextFlow] at hf
    have hne : f ≠ n.flow := fun h => absurd (hJ.lt n r hr) (by omega)
    rw [after_flows_of_ne o x hne, after_journals_of_ne o x hne]
    exact hJ.fresh f hf
  · rw [after_nextStep, after_sysCallback]
    rcases hcases hm with ⟨m', rfl, rfl, rfl⟩ | ⟨rfl, rfl⟩ | ⟨hmn, hm⟩
    · exact absurd hr' (by simp [(spawns_cases ha).2.2.1])
    · obtain ⟨hr', h₁, h₂⟩ := entering_next ha hr'
      simpa [h₁, h₂] using hJ.entering m r hr hr'
    · have hne : m.flow ≠ n.flow := fun h => hmn (hJ.alone m r' n r hm hr' hr h.symm).symm
      simpa [hne] using hJ.entering m r' hm hr'
  · have hold {m : Thread} {r' : Role} (hm : m ≠ n) (hr' : ρ m = some r') (he : r'.entering = true) : n.flow ≠ m.flow :=
      fun h => hm (hJ.alone m r' n r hr' he hr h).symm
    rcases hcases hm with ⟨m', rfl, rfl, rfl⟩ | ⟨rfl, rfl⟩ | ⟨hmn, hm'⟩
    · exact absurd hr' (by simp [(spawns_cases ha).2.2.1])
    · have he := (entering_next ha hr').1
      rcases hcases hk with ⟨m', rfl, rfl, rfl⟩ | ⟨rfl, rfl⟩ | ⟨-, hk⟩
      · exact absurd he (by simp [not_entering_of_past (spawns_cases ha).2.1])
      · rfl
      · exact hJ.alone m r k r'' hr he hk hmk
    · rcases hcases hk with ⟨m', rfl, rfl, rfl⟩ | ⟨rfl, rfl⟩ | ⟨-, hk⟩
      · exact absurd ((spawns_cases ha).1.symm.trans hmk) (hold hmn hm' hr')
      · exact absurd hmk (hold hmn hm' hr')
      · exact hJ.alone m r' k r'' hm' hr' hk hmk
  · rcases hcases hm with ⟨m', rfl, rfl, rfl⟩ | ⟨rfl, rfl⟩ | ⟨-, hm⟩
    · refine after_ne_init ha ?_
      rw [(spawns_cases ha).1]
      exact hJ.past n r hr (spawns_cases ha).2.1
    · rcases past_next ha hr' with hp | ⟨t, ht⟩
      · exact after_ne_init ha (hJ.past m r hr hp)
      · rw [after_nextStep, if_pos rfl, ht]
        exact (sets_of_stepOf ha ht).1
    · exact after_ne_init ha (hJ.past m r' hm hr')
  · rw [after_sysCallback] at hf
    by_cases hfn : f = n.flow
    · rw [if_pos hfn] at hf
      cases hc : callbackOf o with
      | none =>
        rw [hc] at hf
        exact after_ne_init ha (hJ.callback f hf)
      | some c =>
        obtain ⟨given, rfl⟩ := performing_of_callbackOf ha (by simp [hc])
        rw [hfn]
        exact after_ne_init ha (hJ.past n _ hr rfl)
    · rw [if_neg hfn] at hf
      exact after_ne_init ha (hJ.callback f hf)
  · rw [after_nextStep]
    rcases hcases hm with ⟨m', rfl, rfl, rfl⟩ | ⟨rfl, rfl⟩ | ⟨hmn, hm⟩
    · obtain ⟨hflow, -, -, hready, happly, -⟩ := spawns_cases ha
      rw [if_pos hflow, hflow]
      rcases hr' with hr' | ⟨hr', -⟩
      · exact hJ.apply n r hr (.inr (happly hr'))
      · exact absurd hr' hready
    · rw [if_pos rfl]
      rcases apply_next ha hr' with hn | ⟨t, ht, hti⟩
      · rw [hn] at hr'
        have hold := hJ.apply m r hr hr'
        cases ho : stepOf o with
        | none => exact hold
        | some t =>
          rcases (sets_of_stepOf ha ho).2 with ⟨he, -⟩ | ⟨-, rfl⟩
          · rcases hr' with rfl | ⟨rfl, -⟩ <;> cases he
          · nofun
      · rw [ht]
        exact hti
    · have hold := hJ.apply m r' hm hr'
      split
      · rename_i hmf
        cases ho : stepOf o with
        | none => exact hold
        | some t =>
          rcases (sets_of_stepOf ha ho).2 with ⟨he, -⟩ | ⟨-, rfl⟩
          · exact absurd (hJ.alone n r m r' hr he hm hmf) hmn
          · nofun
      · exact hold
  · rcases after_flow_cases o x f with h | ⟨u, hu, h⟩
    · rw [h]
      exact hJ.status f
    · rw [h]
      cases u with
      | taskProgress p =>
        rcases sets_of_flowUpdate ha hu with hs | ⟨i, hi⟩
        · exact hs.2
        · cases hi
      | _ => exact hJ.status f
  · rcases hcases hm with ⟨m', rfl, rfl, rfl⟩ | ⟨rfl, rfl⟩ | ⟨-, hm⟩
    · exact plays_entry m
    · exact plays_next (hJ.plays m r hr) ha x
    · exact hJ.plays m r' hm
  · rw [after_sysCallback] at hf
    cases hc : callbackOf o with
    | none =>
      have hf : (s.flows f).sysCallback ≠ none := by simpa [hc] using hf
      obtain ⟨m, hm, hmf⟩ := hJ.captured f hf
      refine ⟨m, ?_, hmf⟩
      by_cases hmn : m = n
      · subst hmn
        obtain rfl : r = .performing true := Option.some.inj (hr.symm.trans hm)
        have hp : performs o = none := by
          cases o with
          | enter k => cases k <;> first | rfl | cases ha
          | _ => rfl
        exact hkeep (by rw [Function.update_self, performing_next ha hp, hc]; rfl) (.inl rfl)
      · exact hkeep (by rw [Function.update_of_ne hmn, hm]) (.inr (by simp [hm]))
    | some c =>
      by_cases hfn : f = n.flow
      · rw [if_pos hfn, hc] at hf
        obtain ⟨given, rfl⟩ := performing_of_callbackOf ha (by simp [hc])
        have hp : performs o = none := by
          cases o with
          | enter k => cases hc
          | _ => rfl
        have hsome : c.isSome = true := Option.isSome_iff_ne_none.mpr hf
        refine ⟨n, hkeep ?_ (.inl rfl), hfn.symm⟩
        rw [Function.update_self, performing_next ha hp, hc]
        exact congrArg (some ∘ Role.performing) hsome
      · rw [if_neg hfn] at hf
        obtain ⟨m, hm, hmf⟩ := hJ.captured f hf
        have hmn : m ≠ n := fun h => hfn (h ▸ hmf.symm)
        exact ⟨m, hkeep (by rw [Function.update_of_ne hmn, hm]) (.inr (by simp [hm])), hmf⟩
  · rw [after_journals] at hf
    by_cases hp : f = n.flow ∧ performs o ≠ none
    · obtain ⟨rfl, hp⟩ := hp
      rw [if_pos rfl, noteOf_performing] at hf
      cases o with
      | enter k =>
        cases k with
        | performInstall l =>
          obtain rfl : r = .install (some l) := ha
          exact ⟨n, false, hkeep (Function.update_self ..) (.inl rfl), rfl⟩
        | performInstallEnd => cases hf
        | _ => exact absurd rfl hp
      | _ => exact absurd rfl hp
    · have hold : (s.journals f).performing = true := by
        split at hf
        · rename_i hfn
          rw [noteOf_performing] at hf
          have hpn : performs o = none := by
            by_contra h
            exact hp ⟨hfn, h⟩
          simpa [hpn] using hf
        · exact hf
      obtain ⟨m, given, hm, hmf⟩ := hJ.performing f hold
      by_cases hmn : m = n
      · subst hmn
        obtain rfl : r = .performing given := Option.some.inj (hr.symm.trans hm)
        have hpn : performs o = none := by
          by_contra h
          exact hp ⟨hmf.symm, h⟩
        exact ⟨m, _, hkeep (by rw [Function.update_self, performing_next ha hpn]) (.inl rfl), hmf⟩
      · exact ⟨m, given, hkeep (by rw [Function.update_of_ne hmn, hm]) (.inr (by simp [hm])), hmf⟩
  · -- every thread is of the kind of one that was there before, in its flow
    have hkind {m : Thread} {r' : Role}
        (hm : (outline P).spawn (machine P) o (Function.update ρ n (some (Outline.next n r o x))) m = some r') :
        ∃ l r'', ρ l = some r'' ∧ m.flow = l.flow ∧ m.kind = l.kind := by
      rcases hcases hm with ⟨m', rfl, rfl, -⟩ | ⟨rfl, -⟩ | ⟨-, hm⟩
      · exact ⟨n, r, hr, (spawns_cases ha).1, (spawns_cases ha).2.2.2.2.2⟩
      · exact ⟨m, r, hr, rfl, rfl⟩
      · exact ⟨m, r', hm, rfl, rfl⟩
    obtain ⟨l, rl, hl, hlf, hlk⟩ := hkind hm
    obtain ⟨j, rj, hj, hjf, hjk⟩ := hkind hk
    rw [hlk, hjk]
    exact hJ.kind l rl j rj hl hj (hlf.symm.trans (hmk.trans hjf))

/-- It holds at the start of the process. -/
theorem flows_init (d : Store) : Flows d.state fun _ => none where
  lt := fun _ _ h => by cases h
  fresh := fun _ _ => ⟨rfl, rfl⟩
  entering := fun _ _ h => by cases h
  alone := fun _ _ _ _ h => by cases h
  past := fun _ _ h => by cases h
  callback := fun _ h => absurd rfl h
  apply := fun _ _ h => by cases h
  status := fun _ => rfl
  plays := fun _ _ h => by cases h
  captured := fun _ h => absurd rfl h
  performing := fun _ h => by cases h
  kind := fun _ _ _ _ h => by cases h

/-- A thread coming to its end keeps it. -/
theorem flows_retire {s : State} {ρ : Thread → Option Role} {n : Thread} {r : Role} (hJ : Flows s ρ) (hr : ρ n = some r)
    (hp : ∀ given, r ≠ .performing given) : Flows s (Function.update ρ n none) where
  lt := fun m r hm => hJ.lt m r (Protocol.role_retire hm).2
  fresh := hJ.fresh
  entering := fun m r hm => hJ.entering m r (Protocol.role_retire hm).2
  alone := fun m r k r' hm hr hk => hJ.alone m r k r' (Protocol.role_retire hm).2 hr (Protocol.role_retire hk).2
  past := fun m r hm => hJ.past m r (Protocol.role_retire hm).2
  callback := hJ.callback
  apply := fun m r hm => hJ.apply m r (Protocol.role_retire hm).2
  status := hJ.status
  plays := fun m r hm => hJ.plays m r (Protocol.role_retire hm).2
  captured := fun f hf => by
    obtain ⟨m, hm, hmf⟩ := hJ.captured f hf
    refine ⟨m, ?_, hmf⟩
    rw [Function.update_of_ne (by rintro rfl; exact hp true (Option.some.inj (hr.symm.trans hm)))]
    exact hm
  kind := fun m r' k r'' hm hk => hJ.kind m r' k r'' (Protocol.role_retire hm).2 (Protocol.role_retire hk).2
  performing := fun f hf => by
    obtain ⟨m, given, hm, hmf⟩ := hJ.performing f hf
    refine ⟨m, given, ?_, hmf⟩
    rw [Function.update_of_ne (by rintro rfl; exact hp given (Option.some.inj (hr.symm.trans hm)))]
    exact hm

/-- It makes the answers expected. -/
theorem flows_expected {P : Platform} {s : State} {ρ : Thread → Option Role} {n : Thread} {r : Role} {o : Op} {x : o.Res}
    {a : Answer} (hJ : Flows s ρ) (hr : ρ n = some r) (ha : Outline.allowed P n r o) (hx : o.answer n a s = some x) :
    Outline.expects r o x := by
  cases o with
  | getNextStep =>
    obtain rfl : (s.flows n.flow).nextStep = x := by simpa [Op.answer] using hx
    refine ⟨⟨fun h => ?_, fun h => (hJ.entering n r hr h).1⟩, fun h => hJ.apply n r hr (.inl h)⟩
    rcases ha with rfl | rfl | ⟨-, hp⟩
    · rfl
    · rfl
    · exact absurd h (hJ.past n r hr hp)
  | getFlow =>
    obtain rfl : s.flows n.flow = x := by simpa [Op.answer] using hx
    exact hJ.status n.flow
  | _ => trivial

/-- On every run the threads keep to the outline and the invariant of the flows holds. -/
def simulation (P : Platform) (d : Store) :
    Simulation (machine P) (outline P) (fun _ _ => True) d.state Flows where
  occurs := fun _ => True
  occurs_start := fun _ _ _ => trivial
  occurs_spawn := fun _ _ _ _ _ _ _ => trivial
  conforms := fun n _ => Outline.conforms P n
  init := flows_init d
  start := fun _ _ _ _ _ hJ _ hn _ hs => flows_start hJ hn hs
  expected := fun _ _ _ _ _ _ _ _ _ hJ _ _ _ hr ha hx => flows_expected hJ hr ha (exec_eq_some hx).2.1
  run := fun _ _ _ _ _ _ _ _ hρ hJ _ _ _ hr ha _ hsp hx _ => by
    rw [(exec_eq_some hx).2.2]
    refine flows_run hJ hr ha fun m hm => ?_
    subst hm
    exact ⟨(hsp m rfl).1, hρ.eq_none_of_not_started (hsp m rfl).2⟩
  retire := fun _ _ _ _ hJ hr hp => flows_retire hJ hr hp

/-- The outline fits the threads. -/
def Fits (P : Platform) (c : Config) : Prop := ∃ ρ, (outline P).Tracks c ρ ∧ Flows c.state ρ

theorem fits_of_reach {P : Platform} {d : Store} {c : Config} {ok : Config → Action → Prop} (h : Reach (machine P) ok d.boot c) :
    Fits P c :=
  ((simulation P d).invariant (h.mono fun _ _ _ => trivial)).1

section Fits

variable {P : Platform} {c : Config} {n m : Thread}

/-- Live threads of one flow are of one kind. -/
theorem kind_eq (hf : Fits P c) (hn : c.live n = true) (hm : c.live m = true) (h : n.flow = m.flow) : n.kind = m.kind := by
  obtain ⟨ρ, hρ, hF⟩ := hf
  obtain ⟨r, hr⟩ := Option.isSome_iff_exists.mp ((hρ.live_iff n).mp hn)
  obtain ⟨r', hr'⟩ := Option.isSome_iff_exists.mp ((hρ.live_iff m).mp hm)
  exact hF.kind n r m r' hr hr' h

/-- A thread is started in the flow of the thread that starts it, and for the same. -/
theorem spawns_flow (hf : Fits P c) (hn : c.next n = some (.spawn m)) : m.flow = n.flow ∧ m.kind = n.kind := by
  obtain ⟨ρ, hρ, -⟩ := hf
  obtain ⟨r, -, ha⟩ := hρ.allowed hn
  have hs := spawns_cases (P := P) ha
  exact ⟨hs.1, hs.2.2.2.2.2⟩

/-- A new flow is no live thread's. -/
theorem flow_lt (hf : Fits P c) (hn : c.live n = true) : n.flow < c.state.nextFlow := by
  obtain ⟨ρ, hρ, hF⟩ := hf
  obtain ⟨r, hr⟩ := Option.isSome_iff_exists.mp ((hρ.live_iff n).mp hn)
  exact hF.lt n r hr

end Fits

end FlowsAux

/-! ## Invariants of the service -/

open FlowsAux in
/-- What makes `J` an invariant of the runs of the service from `d` that `ok` allows. Starting an executor is the one operation that
adds a thread; every other one concerns the thread that takes it. -/
structure Invariant (P : Platform) (d : Store) (ok : Config → Action → Prop) (J : State → (Thread → Option Role) → Prop) :
    Prop where
  init : J d.state fun _ => none
  start : ∀ (c : Config) ρ n s, (outline P).Tracks c ρ → Flows c.state ρ → J c.state ρ → ok c (.start n) → ρ n = none →
    starts n c.state = some s → J s (Function.update ρ n (some (Outline.entry n)))
  run : ∀ (c : Config) ρ n r o x a, (outline P).Tracks c ρ → Flows c.state ρ → J c.state ρ → ok c (.run n a) →
    c.next n = some o → ρ n = some r → Outline.allowed P n r o → (∀ m, o = .join m → ρ m = none) → (∀ m, o ≠ .spawn m) →
    o.answer n a c.state = some x → Outline.expects r o x →
    J (o.after n c.state x) (Function.update ρ n (some (Outline.next n r o x)))
  spawn : ∀ (c : Config) ρ n r m a, (outline P).Tracks c ρ → Flows c.state ρ → J c.state ρ → ok c (.run n a) →
    c.next n = some (.spawn m) → ρ n = some r → Outline.allowed P n r (.spawn m) → m ≠ n → ρ m = none →
    J c.state (Function.update (Function.update ρ n (some (Outline.next n r (.spawn m) ()))) m (some (Outline.entry m)))
  retire : ∀ s ρ n r, J s ρ → ρ n = some r → (∀ given, r ≠ .performing given) → J s (Function.update ρ n none)

open FlowsAux in
/-- It holds on every run, of roles that fit the threads. -/
theorem Invariant.holds {P : Platform} {d : Store} {ok : Config → Action → Prop} {J : State → (Thread → Option Role) → Prop}
    (h : Invariant P d ok J) {c : Config} (hc : Reach (machine P) ok d.boot c) :
    ∃ ρ, (outline P).Tracks c ρ ∧ Flows c.state ρ ∧ J c.state ρ := by
  have E : Extension (machine P) (outline P) d.state Flows ok J := by
    refine ⟨h.init, h.start, fun c ρ n r o x a s hρ hF hJ hok hn hr ha hj hsp hx he => ?_, h.retire⟩
    obtain ⟨-, ho, rfl⟩ := exec_eq_some hx
    cases o with
    | spawn m =>
      rw [after_spawn]
      exact h.spawn c ρ n r m a hρ hF hJ hok hn hr ha (hsp m rfl).1 (hρ.eq_none_of_not_started (hsp m rfl).2)
    | join m =>
      refine h.run c ρ n r _ x a hρ hF hJ hok hn hr ha (fun k hk => hj k ?_) (fun k => Op.noConfusion) ho he
      cases hk
      rfl
    | _ => exact h.run c ρ n r _ x a hρ hF hJ hok hn hr ha (fun k => Op.noConfusion) (fun k => Op.noConfusion) ho he
  obtain ⟨⟨ρ, hρ, hJ⟩, -⟩ := ((simulation P d).extend (fun _ _ _ => trivial) E).invariant hc
  exact ⟨ρ, hρ, hJ⟩

end UpdateEngine
