import UpdateEngine.Lemmas.Guard

/-!
# Apply only after install

`GetStepAfterInit` of the install and apply mode tests the stored status for an order to install, and for no order to apply: an
upgrade with the order to apply goes to the apply step from whatever the row holds.
-/

namespace UpdateEngine

open Concurrent StepAux FlowsAux

/-- The apply step, its entry and its write, is taken only when an installation has succeeded. -/
structure ApplyAfterInstall (c : Config) : Prop where
  enter : ∀ n, c.next n = some (.enter .applyDoInstall) → c.state.status = some .installSuccess
  write : ∀ n i p, c.next n = some (.updateTasks .applyExecutor i (.progress .updating p)) →
    c.state.status = some .installSuccess

/-- Whether an operation changes the status of the row that is read first. -/
def State.changes (s : State) (o : Op) : Bool := (recordsOf s o).any (fun rec => statusOf rec ≠ s.status) || (insertsOf s o).isSome

/-- An order to apply that finds a task finds it installed, and its flow is the only one to change the status until it has written
its own. -/
def applyKept (c : Config) : Action → Bool
  | .start _ => true
  | .run n _ => match c.next n with
    | some o => (n.kind ≠ .apply || !admits c.state o || c.state.status = some .installSuccess) && (!c.state.changes o ||
      c.all fun m => m.flow = n.flow || m.kind ≠ .apply || !(c.state.journals m.flow).admitted ||
        (c.state.journals m.flow).recorded.isSome)
    | none => true

namespace ApplyAux

/-- The roles in which an order to apply has been accepted and has not been carried out. -/
def pending : Role → Bool
  | .accepted | .ready | .applying => true
  | _ => false

/-- A pending order to apply belongs to one thread of its flow, which has not changed the table, and the task is installed. -/
structure Applied (s : State) (ρ : Thread → Option Role) : Prop where
  installed : ∀ n r, ρ n = some r → n.kind = .apply → pending r = true →
    (s.journals n.flow).admitted = true ∧ (s.journals n.flow).recorded = none ∧ s.status = some .installSuccess
  one : ∀ n r m r', ρ n = some r → n.kind = .apply → pending r = true → ρ m = some r' → pending r' = true → n.flow = m.flow → n = m
  request : ∀ n, ρ n = some .request → (s.journals n.flow).recorded = none

variable {P : Platform} {n : Thread} {r : Role} {o : Op} {x : o.Res} {s : State} {ρ : Thread → Option Role}

theorem kind_of_applying {given : Role} (h : plays n given = true) (hr : given = .applying) : n.kind = .apply := by
  subst hr
  cases n <;> first | rfl | cases h

/-- A thread of an order to apply changes the status only by withdrawing or by its own write. -/
theorem pending_of_changes (ha : Outline.allowed P n r o) (hp : plays n r = true) (hk : n.kind = .apply)
    (h : recordsOf s o ≠ none ∨ insertsOf s o ≠ none) : pending r = true ∧ pending (Outline.next n r o x) = false := by
  cases o with
  | insertTask t =>
    obtain ⟨rfl, -⟩ := ha
    cases n <;> first | exact (Bool.false_ne_true hp).elim | cases hk
  | updateTasks c i u =>
    cases u with
    | progress st p =>
      cases r with
      | applying =>
        obtain ⟨rfl, -⟩ := ha
        exact ⟨rfl, rfl⟩
      | recovering | download w | installed => cases n <;> first | exact (Bool.false_ne_true hp).elim | cases hk
      | install l => cases n <;> first | exact (Bool.false_ne_true hp).elim | cases hk
      | _ => exact ha.elim
    | _ => rcases h with h | h <;> exact absurd rfl h
  | deleteTasks =>
    cases r with
    | accepted => exact ⟨rfl, rfl⟩
    | recovering | download w | installed | install l | processing | clearing =>
      cases n <;> first | exact (Bool.false_ne_true hp).elim | cases hk
    | _ => exact ha.elim
  | _ => rcases h with h | h <;> exact absurd rfl h

/-- A thread comes to have a pending order by the read of its mode. -/
theorem pending_next (ha : Outline.allowed P n r o) (hp : plays n r = true) (hk : n.kind = .apply)
    (h : pending (Outline.next n r o x) = true) :
    pending r = true ∨ (r = .request ∧ ∀ a s, o.answer n a s = some x → admits s o = true) := by
  rcases next_cases ha x with ⟨w, rfl, hn⟩ | ⟨-, hn⟩ | ⟨-, hmove, hn⟩
  · rw [hn] at h
    cases h
  · exact .inl (hn ▸ h)
  · rw [hn] at h
    cases hmove with
    | downloadMode hd => cases n <;> first | exact (Bool.false_ne_true hd).elim | cases hk
    | installApplyMode hr ho =>
      rcases hr with rfl | rfl
      · refine .inr ⟨rfl, fun a s hx => ?_⟩
        simp only [admits, status_any, Option.some.inj hx]
        simp only [Outline.nextRole, Outline.decide] at h
        split at h
        · assumption
        · cases h
      · cases n <;> first | exact (Bool.false_ne_true hp).elim | cases hk
    | hasUndoneTask =>
      simp only [Outline.nextRole] at h
      split at h <;> cases h
    | step hs =>
      obtain ⟨-, ⟨rfl, -⟩ | rfl | rfl | ⟨rfl, f, rfl⟩ | ⟨-, hp, -⟩⟩ := hs
      · exact .inl rfl
      · cases h
      · cases h
      · cases hk
      · cases r <;> first | exact .inl rfl | exact (Bool.false_ne_true h).elim | cases hp
    | clear | record => cases r <;> first | exact .inl rfl | cases h
    | clearing hcl =>
      rw [nextRole_clearing hcl] at h
      cases h
    | handled hh => rcases hh with rfl | rfl <;> cases h
    | components | callback | start | perform | performEnd => cases h

/-- A start keeps the invariant. -/
theorem applied_start {s' : State} (hF : Flows s ρ) (hJ : Applied s ρ) (hs : starts n s = some s') :
    Applied s' (Function.update ρ n (some (Outline.entry n))) := by
  have hsame : s'.journals = s.journals ∧ s'.status = s.status := by
    rcases starts_cases hs with ⟨-, rfl, -⟩ | ⟨rfl, -, -⟩ <;> exact ⟨rfl, rfl⟩
  have hold {m : Thread} {r : Role} (hm : Function.update ρ n (some (Outline.entry n)) m = some r) (hp : pending r = true) :
      ρ m = some r := by
    rcases Protocol.role_update hm with ⟨rfl, rfl⟩ | ⟨-, hm⟩
    · rcases starts_cases hs with ⟨-, -, he⟩ | ⟨-, he, -⟩
      · cases m <;> first | exact (Bool.false_ne_true hp).elim | cases he
      · rw [he] at hp
        cases hp
    · exact hm
  refine ⟨fun m r hm hk hp => ?_, fun m r k r' hm hk hp hk' hp' => hJ.one m r k r' (hold hm hp) hk hp (hold hk' hp') hp',
    fun m hm => ?_⟩
  · rw [hsame.1, hsame.2]
    exact hJ.installed m r (hold hm hp) hk hp
  · rw [hsame.1]
    rcases Protocol.role_update hm with ⟨rfl, he⟩ | ⟨-, hm⟩
    · rcases starts_cases hs with ⟨hf, -, -⟩ | ⟨-, he', -⟩
      · rw [(hF.fresh m.flow (Nat.le_of_eq hf.symm)).2]
      · rw [he'] at he
        cases he
    · exact hJ.request m hm

/-- An operation keeps the invariant. -/
theorem applied_run {c : Config} {a : Answer} (hρ : (outline P).Tracks c ρ) (hF : Flows c.state ρ)
    (hJ : Applied c.state ρ) (hok : applyKept c (.run n a) = true) (hn : c.next n = some o) (hr : ρ n = some r)
    (ha : Outline.allowed P n r o) (hx : o.answer n a c.state = some x) :
    Applied (o.after n c.state x) (Function.update ρ n (some (Outline.next n r o x))) := by
  have hlive {m : Thread} {r' : Role} (hm : ρ m = some r') : c.live m = true := (hρ.live_iff m).mpr (by simp [hm])
  simp only [applyKept, hn, Bool.and_eq_true] at hok
  have hmono {f : Nat} (h : (c.state.journals f).admitted = true) : ((o.after n c.state x).journals f).admitted = true := by
    rw [after_journals]
    split
    · simp [noteOf_admitted, h]
    · exact h
  -- a pending order was pending before, or its mode has just read the status
  have hpending {m : Thread} {r' : Role} (hm : Function.update ρ n (some (Outline.next n r o x)) m = some r')
      (hk : m.kind = .apply) (hp : pending r' = true) :
      (∃ r'', ρ m = some r'' ∧ pending r'' = true) ∨ (m = n ∧ r = .request ∧ admits c.state o = true) := by
    rcases Protocol.role_update hm with ⟨rfl, rfl⟩ | ⟨-, hm⟩
    · rcases pending_next ha (hF.plays m r hr) hk hp with hp | ⟨hreq, hadm⟩
      · exact .inl ⟨r, hr, hp⟩
      · exact .inr ⟨rfl, hreq, hadm a c.state hx⟩
    · exact .inl ⟨r', hm, hp⟩
  -- a pending order keeps what it found
  have hkeep {m : Thread} {rm : Role} (hm : ρ m = some rm) (hk : m.kind = .apply) (hp : pending rm = true)
      (hmn : m = n → pending (Outline.next n r o x) = true) :
      (o.after n c.state x).status = some .installSuccess ∧ ((o.after n c.state x).journals m.flow).recorded = none := by
    obtain ⟨hadm, hrec, hst⟩ := hJ.installed m rm hm hk hp
    rw [after_status, after_journals]
    by_cases hmf : m.flow = n.flow
    · have hnk : n.kind = .apply := (hF.kind n r m rm hr hm hmf.symm).trans hk
      have hno : ¬ (recordsOf c.state o ≠ none ∨ insertsOf c.state o ≠ none) := by
        intro h
        obtain ⟨hp', hnp⟩ := pending_of_changes (x := x) ha (hF.plays n r hr) hnk h
        exact absurd (hmn (hJ.one m rm n r hm hk hp hr hp' hmf)) (by simp [hnp])
      simp only [ne_eq, not_or, Decidable.not_not] at hno
      rw [hno.1, hno.2, if_pos hmf, noteOf_recorded, hno.1]
      exact ⟨hst, hrec⟩
    · have hch : c.state.changes o = false := by
        rcases Bool.or_eq_true_iff.mp hok.2 with h | h
        · simpa using h
        · have := Config.all_eq_true.mp h m (hlive hm)
          simp [hmf, hk, hadm, hrec] at this
      simp only [State.changes, Bool.or_eq_false_iff] at hch
      rw [if_neg hmf]
      refine ⟨?_, hrec⟩
      cases ho : recordsOf c.state o with
      | some rec => simpa [ho, hst] using hch.1
      | none =>
        have hins : insertsOf c.state o = none := by simpa using hch.2
        rw [hins]
        exact hst
  refine ⟨fun m r' hm hk hp => ?_, fun m r' k r'' hm hk hp hk' hp' hmk => ?_, fun m hm => ?_⟩
  · rcases hpending hm hk hp with ⟨rm, hm', hp'⟩ | ⟨rfl, rfl, hadm⟩
    · have hnext : m = n → pending (Outline.next n r o x) = true := by
        rintro rfl
        rw [Function.update_self] at hm
        exact (Option.some.inj hm) ▸ hp
      obtain ⟨hst, hrec⟩ := hkeep hm' hk hp' hnext
      exact ⟨hmono (hJ.installed m rm hm' hk hp').1, hrec, hst⟩
    · have hno : recordsOf c.state o = none ∧ insertsOf c.state o = none := by
        cases o <;> first | exact ⟨rfl, rfl⟩ | cases hadm
      have hst : c.state.status = some .installSuccess := by simpa [hk, hadm] using hok.1
      refine ⟨?_, ?_, ?_⟩
      · rw [after_journals, if_pos rfl, noteOf_admitted, hadm, Bool.or_true]
      · rw [after_journals, if_pos rfl, noteOf_recorded, hno.1]
        exact hJ.request m hr
      · rw [after_status, hno.1, hno.2]
        exact hst
  · have hold {l : Thread} {r' : Role} (hl : Function.update ρ n (some (Outline.next n r o x)) l = some r') :
        ∃ r'', ρ l = some r'' := by
      rcases Protocol.role_update hl with ⟨rfl, -⟩ | ⟨-, hl⟩
      · exact ⟨r, hr⟩
      · exact ⟨r', hl⟩
    obtain ⟨rm, hm'⟩ := hold hm
    obtain ⟨rk, hk''⟩ := hold hk'
    rcases hpending hm hk hp with ⟨rm, hm', hpm⟩ | ⟨rfl, rfl, -⟩
    · rcases hpending hk' ((hF.kind k rk m rm hk'' hm' hmk.symm).trans hk) hp' with ⟨rk, hk'', hpk⟩ | ⟨rfl, rfl, -⟩
      · exact hJ.one m rm k rk hm' hk hpm hk'' hpk hmk
      · exact hF.alone k .request m rm hr rfl hm' hmk
    · exact (hF.alone m .request k rk hr rfl hk'' hmk.symm).symm
  · rcases Protocol.role_update hm with ⟨rfl, hnext⟩ | ⟨hmn, hm⟩
    · have hu : Guard.undecided (Outline.next m r o x) = true := by rw [← hnext]; rfl
      obtain ⟨he, hdel⟩ := Guard.undecided_next ha hu
      obtain rfl : .request = r := hnext.trans he
      have hrec : recordsOf c.state o = none := by
        by_contra h
        obtain ⟨rec, hrec⟩ := Option.ne_none_iff_exists'.mp h
        cases (Guard.recordsOf_undecided ha rfl hdel hrec).1
      rw [after_journals, if_pos rfl, noteOf_recorded, hrec]
      exact hJ.request m hr
    · have hmf : m.flow ≠ n.flow := fun h => hmn (hF.alone m .request n r hm rfl hr h.symm).symm
      rw [after_journals, if_neg hmf]
      exact hJ.request m hm

/-- Starting an executor keeps the invariant: an apply executor takes the order over. -/
theorem applied_spawn {m : Thread} (hJ : Applied s ρ) (hr : ρ n = some r)
    (ha : Outline.allowed P n r (.spawn m)) :
    Applied s (Function.update (Function.update ρ n (some (Outline.next n r (.spawn m) ()))) m (some (Outline.entry m))) := by
  obtain ⟨hmf, -, hentering, -, happly, hmk⟩ := spawns_cases ha
  have hnot : pending (Outline.next n r (.spawn m) ()) = false := by
    rcases ha with ⟨rfl, -⟩ | ⟨_, _, _, _, _, _, -, rfl, -⟩ <;> rfl
  -- a pending order was pending before, and the apply executor has it from the thread that starts it
  have hold {k : Thread} {r' : Role}
      (hk : Function.update (Function.update ρ n (some (Outline.next n r (.spawn m) ()))) m (some (Outline.entry m)) k =
        some r') (hp : pending r' = true) :
      ∃ j r'', ρ j = some r'' ∧ pending r'' = true ∧ j.flow = k.flow ∧ j.kind = k.kind ∧
        ((k = m ∧ j = n) ∨ (k = j ∧ k ≠ n)) := by
    rcases Protocol.role_update hk with ⟨rfl, rfl⟩ | ⟨-, hk⟩
    · have he : Outline.entry k = .applying := by
        cases k <;> first | rfl | cases hp
      exact ⟨n, r, hr, by rw [(happly he).1]; rfl, hmf.symm, hmk.symm, .inl ⟨rfl, rfl⟩⟩
    · rcases Protocol.role_update hk with ⟨rfl, rfl⟩ | ⟨hkn, hk⟩
      · exact absurd hp (by simp [hnot])
      · exact ⟨k, r', hk, hp, rfl, rfl, .inr ⟨rfl, hkn⟩⟩
  refine ⟨fun k r' hk hkk hp => ?_, fun k r' l r'' hk hkk hp hl hp' hkl => ?_, fun k hk => ?_⟩
  · obtain ⟨j, rj, hj, hjp, hjf, hjk, -⟩ := hold hk hp
    rw [← hjf]
    exact hJ.installed j rj hj (hjk.trans hkk) hjp
  · obtain ⟨i, ri, hi, hip, hif, hik, hi'⟩ := hold hk hp
    obtain ⟨j, rj, hj, hjp, hjf, hjk, hj'⟩ := hold hl hp'
    have hij := hJ.one i ri j rj hi (hik.trans hkk) hip hj hjp (hif.trans (hkl.trans hjf.symm))
    rcases hi' with ⟨rfl, rfl⟩ | ⟨rfl, hkn⟩
    · rcases hj' with ⟨rfl, -⟩ | ⟨rfl, hln⟩
      · rfl
      · exact absurd hij.symm hln
    · rcases hj' with ⟨rfl, rfl⟩ | ⟨rfl, -⟩
      · exact absurd hij hkn
      · exact hij
  · rcases Protocol.role_update hk with ⟨rfl, he⟩ | ⟨-, hk⟩
    · rw [← he] at hentering
      cases hentering
    · rcases Protocol.role_update hk with ⟨rfl, he⟩ | ⟨-, hk⟩
      · rcases ha with ⟨rfl, -⟩ | ⟨_, _, _, _, _, _, -, rfl, -⟩ <;> cases he
      · exact hJ.request k hk

/-- On the runs `applyKept` allows, `Applied` is an invariant. -/
theorem invariant (P : Platform) (d : Store) : Invariant P d (fun c a => applyKept c a = true) Applied where
  init := ⟨fun _ _ h => (by cases h), fun _ _ _ _ h => (by cases h), fun _ h => (by cases h)⟩
  start := fun _ _ _ _ _ hF hJ _ _ hs => applied_start hF hJ hs
  run := fun _ _ _ _ _ _ _ hρ hF hJ hok hn hr ha _ _ hx _ => applied_run hρ hF hJ hok hn hr ha hx
  spawn := fun _ _ _ _ _ _ _ _ hJ _ _ hr ha _ _ => applied_spawn hJ hr ha
  retire := fun s ρ n r hJ _ _ =>
    ⟨fun m r' hm => hJ.installed m r' (Protocol.role_retire hm).2,
      fun m r' k r'' hm hk hp hk' => hJ.one m r' k r'' (Protocol.role_retire hm).2 hk hp (Protocol.role_retire hk').2,
      fun m hm => hJ.request m (Protocol.role_retire hm).2⟩

end ApplyAux

open ApplyAux in
/-- On every run on which orders to apply find an installed task and have it to themselves, the apply step is taken only when the
task is installed. -/
theorem apply_after_install (P : Platform) (d : Store) {c : Config}
    (h : Reach (machine P) (fun c a => applyKept c a = true) d.boot c) : ApplyAfterInstall c := by
  obtain ⟨ρ, hρ, hF, hJ⟩ := (invariant P d).holds h
  have happlying {n : Thread} (hr : ρ n = some .applying) : c.state.status = some .installSuccess :=
    (hJ.installed n _ hr (kind_of_applying (hF.plays n _ hr) rfl) rfl).2.2
  refine ⟨fun n hn => ?_, fun n i p hn => ?_⟩
  · obtain ⟨r, hr, ha⟩ := hρ.allowed hn
    obtain rfl : r = .applying := ha
    exact happlying hr
  · obtain ⟨r, hr, ha⟩ := hρ.allowed hn
    have ha : r.records .applyExecutor .updating := ha
    cases r with
    | applying => exact happlying hr
    | recovering => cases ha.1
    | download w => rcases ha with ⟨h, -⟩ | ⟨h, -⟩ <;> cases h
    | install l =>
      cases l with
      | none => exact ha.elim
      | some l => rcases ha.1 with h | h | h <;> cases h
    | installed => rcases ha.1 with h | h | h <;> cases h
    | _ => exact ha.elim

/-- One package, and the status of its task. -/
def oneTask (status : UpgradeStatus) : Store where
  tasks := [{ taskId := "task", status := status }]
  components := [{ url := "url", spath := "/data/package", size := 1, status := status }]

/-- A request with the order to apply, up to the entry of the apply step. -/
def applyOrdered : List Action :=
  .start (.upgrade 0 { order := .apply }) :: Thread.steps (.upgrade 0 { order := .apply }) 7

/-- Whether an operation is the entry of the apply step. -/
def Op.appliesInstall : Op → Bool
  | .enter .applyDoInstall => true
  | _ => false

/-- An installed task is applied. -/
theorem apply_after_install_installed : ∃ c, Reach (machine .device) (fun c a => applyKept c a = true)
    (oneTask .installSuccess).boot c ∧
      (c.next (.applyExecutor 0 { order := .apply } .sysInstaller)).any Op.appliesInstall = true ∧ ApplyAfterInstall c := by
  have h : ((machine .device).follow applyKept applyOrdered (oneTask .installSuccess).boot).any (fun c =>
      (c.next (.applyExecutor 0 { order := .apply } .sysInstaller)).any Op.appliesInstall) = true := by decide
  obtain ⟨c, hc, hp⟩ := Reach.exists_of_follow h
  exact ⟨c, hc, hp, apply_after_install .device _ hc⟩

/-- An upgrade with the order to apply is applied from a finished download, which no installer has seen. -/
theorem apply_after_download : ¬ ∀ c, Reach (machine .device) (fun _ _ => True) (oneTask .downloadSuccess).boot c →
    ApplyAfterInstall c := by
  intro hall
  have h : ((machine .device).follow (fun _ _ => true) applyOrdered (oneTask .downloadSuccess).boot).any (fun c =>
      (c.next (.applyExecutor 0 { order := .apply } .sysInstaller)).any Op.appliesInstall &&
        c.state.status = some .downloadSuccess) = true := by decide
  obtain ⟨c, hc, hp⟩ := Reach.exists_of_follow h
  simp only [Bool.and_eq_true, decide_eq_true_eq] at hp
  obtain ⟨o, ho, hpo⟩ := (Option.any_eq_true ..).mp hp.1
  cases o with
  | enter m =>
    cases m with
    | applyDoInstall =>
      have := (hall c (hc.mono fun _ _ _ => trivial)).enter _ ho
      rw [hp.2] at this
      cases this
    | _ => cases hpo
  | _ => cases hpo

end UpdateEngine
