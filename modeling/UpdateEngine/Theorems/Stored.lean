import UpdateEngine.Firmware.Lives
import UpdateEngine.Lemmas.AloneAux
import UpdateEngine.Lemmas.FilingAux
import UpdateEngine.Lemmas.FlowsAux

/-!
# What is stored between operations

As long as operations do not overlap, the tables hold one version or none whenever nothing is at work, over any number of lives of the
process; and the digest a check answers with is the one `GetNewVersionInfo` finds for the same version.
-/

namespace UpdateEngine

open Concurrent StepAux FlowsAux

/-! ## Operations that do not overlap -/

/-- A thread that waits for a wake-up that has not come. -/
def Config.waits (c : Config) (n : Thread) : Bool := (c.next n).any fun o => match o with
  | .awaitWake i => !((c.state.flows n.flow).wakes i).isWake
  | _ => false

/-- No operation is under way: every live thread waits, or is a request to cancel or a notice of a network change. -/
def Config.quiet (c : Config) : Bool := c.all fun n => n.bystands || c.waits n

/-- An operation is started when no other one is under way. (A callback of the system installer is part of its installation.) Requests
to cancel and notices of a network change may come at any time. -/
def sequential (c : Config) : Action → Bool
  | .start n => n.bystands || c.all fun m => m.bystands || c.waits m || m.flow = n.flow
  | .run _ _ => true

/-- What a device can be left with when operations do not overlap: a database without rows at first; then what a process has made of
it by the end of an operation. What lies outside of the two tables others may change. -/
inductive Served (P : Platform) : Store → Prop
  | new {d : Store} (ht : d.tasks = []) (hc : d.components = []) : Served P d
  | stopped {d : Store} {startupReason : StartupReason} {c : Config} (h : Served P d)
    (hc : Reach (machine P) (fun c a => sequential c a = true) (FirmwareManager.init startupReason d).boot c)
    (hq : c.quiet = true) : Served P c.state.store
  | elsewhere {d d' : Store} (h : Served P d) (ht : d'.tasks = d.tasks) (hc : d'.components = d.components) : Served P d'

/-- What a process that is started on such a device can come to. -/
def Serves (P : Platform) (c : Config) : Prop := ∃ d startupReason, Served P d ∧
  Reach (machine P) (fun c a => sequential c a = true) (FirmwareManager.init startupReason d).boot c

namespace StoredAux

open FilingAux

variable {P : Platform} {s s' : State} {ρ : Thread → Option Filing} {n m : Thread} {r r' : Filing} {c : Config}

/-! ## One operation at a time -/

/-- A thread of an operation that is under way. -/
def Busy (c : Config) (n : Thread) : Prop := c.live n = true ∧ n.bystands = false ∧ c.waits n = false

/-- The thread that waits is one of a download. -/
theorem kind_of_awaitWake (hf : Fits P c) {i : Nat} (hn : c.next n = some (.awaitWake i)) : n.kind = .download := by
  obtain ⟨ρ, hρ, -⟩ := hf
  obtain ⟨r, -, ha⟩ := hρ.allowed hn
  have ha : (∃ w, r = .download w) ∧ n.index = some i := ha
  cases n with
  | downloadThread => rfl
  | _ => cases ha.2

theorem bystands_kind (h : n.bystands = true) : n.kind = .other := by
  cases n with
  | cancel | netChanged => rfl
  | _ => cases h

/-- The threads of the operation under way belong to one flow. -/
def OneOperation (c : Config) : Prop := ∀ n m, Busy c n → Busy c m → n.flow = m.flow

/-- A start leaves the flows as they are. -/
theorem starts_flows (h : starts n s = some s') : s'.flows = s.flows ∧ s'.tasks = s.tasks ∧ s'.components = s.components := by
  rcases starts_cases h with ⟨-, rfl, -⟩ | ⟨rfl, -⟩
  · exact ⟨rfl, rfl, rfl⟩
  · exact ⟨rfl, rfl, rfl⟩

/-- What is at work after a start was so before, or is the new thread. -/
theorem busy_of_start (hs : starts n c.state = some s') (h : Busy ⟨s', c.pool.put n (body P n)⟩ m) : m = n ∨ Busy c m := by
  by_cases hm : m = n
  · exact .inl hm
  · obtain ⟨hlive, hb, hw⟩ := h
    have hnext : Config.next ⟨s', c.pool.put n (body P n)⟩ m = c.next m := by
      simp only [Config.next, Pool.find_put_of_ne _ hm]
    refine .inr ⟨?_, hb, ?_⟩
    · simpa only [Config.live, hnext] using hlive
    · simpa only [Config.waits, hnext, (starts_flows hs).1] using hw

/-- What is at work after an operation was so before, or belongs to the flow of the thread that took it, which was at work. -/
theorem busy_of_run (hf : Fits P c) {o : Op} {k : o.Res → Prog Unit} {a : Answer} {x : o.Res}
    (hn : c.pool.find n = some (.op o k)) (hx : exec n o a c.state = some (x, s'))
    (h : Busy ⟨s', (machine P).spawn o (c.pool.put n (k x))⟩ m) : Busy c m ∨ (m.flow = n.flow ∧ Busy c n) := by
  obtain ⟨-, hanswer, rfl⟩ := exec_eq_some hx
  obtain ⟨hlive, hb, hw⟩ := h
  have hnext : c.next n = some o := by simp [Config.next, hn]
  have hbusy (hbn : n.bystands = false) : Busy c n := by
    refine ⟨Config.live_of_find hn, hbn, ?_⟩
    unfold Config.waits
    rw [hnext, Option.any_some]
    cases o with
    | awaitWake i =>
      by_cases hi : ((c.state.flows n.flow).wakes i).isWake = true
      · simp [hi]
      · simp [Op.answer, hi] at hanswer
    | _ => rfl
  have hold (hm : m ≠ n) (hmo : (machine P).spawns o ≠ some m) :
      Config.next ⟨o.after n c.state x, (machine P).spawn o (c.pool.put n (k x))⟩ m = c.next m := by
    have hfind : ((machine P).spawn o (c.pool.put n (k x))).find m = c.pool.find m := by
      unfold Machine.spawn
      split
      · rename_i m' hm'
        rw [Pool.find_put_of_ne, Pool.find_put_of_ne _ hm]
        rintro rfl
        exact hmo hm'
      · exact Pool.find_put_of_ne _ hm _
    simp only [Config.next, hfind]
  by_cases hm : m = n
  · subst hm
    exact .inr ⟨rfl, hbusy hb⟩
  · by_cases hmo : (machine P).spawns o = some m
    · have ho : o = .spawn m := by
        cases o with
        | spawn t => exact congrArg Op.spawn (Option.some.inj hmo)
        | _ => cases hmo
      subst ho
      obtain ⟨ρ, hρ, hF⟩ := hf
      obtain ⟨r, hr, ha⟩ := hρ.allowed hnext
      have ha : Outline.allowed P n r (.spawn m) := ha
      obtain ⟨hflow, hpast, -⟩ := spawns_cases ha
      refine .inr ⟨hflow, hbusy ?_⟩
      have hplays := hF.plays n r hr
      cases n with
      | cancel | netChanged =>
        cases r with
        | idle => cases hpast
        | _ => cases hplays
      | _ => rfl
    · rw [Config.live, hold hm hmo] at hlive
      by_cases hwm : c.waits m = true
      · obtain ⟨i, hi⟩ : ∃ i, c.next m = some (.awaitWake i) := by
          obtain ⟨o', ho', hw'⟩ := (Option.any_eq_true ..).mp hwm
          cases o' with
          | awaitWake i => exact ⟨i, ho'⟩
          | _ => cases hw'
        have hflow : m.flow = n.flow := by
          by_contra hne
          rw [Config.waits, hold hm hmo, after_flows_of_ne o x hne] at hw
          rw [Config.waits, hw] at hwm
          cases hwm
        have hkind : n.kind = .download :=
          (kind_eq hf (Config.live_of_find hn) hlive hflow.symm).trans (kind_of_awaitWake hf hi)
        refine .inr ⟨hflow, hbusy ?_⟩
        by_contra hbn
        rw [bystands_kind (by simpa using hbn)] at hkind
        cases hkind
      · exact .inl ⟨hlive, hb, by simpa using hwm⟩

theorem oneOperation {d : Store} (h : Reach (machine P) (fun c a => sequential c a = true) d.boot c) : OneOperation c := by
  induction h with
  | refl =>
    intro n m hn
    exact absurd hn.1 (by simp [Store.boot, Config.live, Config.next, Pool.find])
  | step h hok hs ih =>
    rename_i c c' a
    have hf : Fits P c := fits_of_reach h
    intro m m' hm hm'
    cases a with
    | start n =>
      obtain ⟨-, s, hst, rfl⟩ := step_start hs
      have hothers (hn : n.bystands = false) {k : Thread} (hk : Busy c k) : k.flow = n.flow := by
        have hall : c.all (fun m => m.bystands || Config.waits c m || m.flow = n.flow) = true := by
          simpa only [sequential, hn, Bool.false_or] using hok
        have := Config.all_eq_true.mp hall k hk.1
        simpa only [hk.2.1, hk.2.2, Bool.false_or, decide_eq_true_eq] using this
      rcases busy_of_start hst hm with rfl | hm₁
      · rcases busy_of_start hst hm' with rfl | hm₂
        · rfl
        · exact (hothers hm.2.1 hm₂).symm
      · rcases busy_of_start hst hm' with rfl | hm₂
        · exact hothers hm'.2.1 hm₁
        · exact ih m m' hm₁ hm₂
    | run n b =>
      obtain ⟨o, k, x, s, hn, -, -, hx, rfl⟩ := step_run hs
      rcases busy_of_run hf hn hx hm with hm₁ | ⟨hm₁, hn₁⟩
      · rcases busy_of_run hf hn hx hm' with hm₂ | ⟨hm₂, hn₂⟩
        · exact ih m m' hm₁ hm₂
        · exact (ih m n hm₁ hn₂).trans hm₂.symm
      · rcases busy_of_run hf hn hx hm' with hm₂ | ⟨hm₂, -⟩
        · exact hm₁.trans (ih n m' hn₁ hm₂)
        · exact hm₁.trans hm₂.symm

/-! ## What the tables hold in between -/

/-- The ids of the rows, and of the versions they belong to, are the same. -/
structure SameRows (s s' : State) : Prop where
  tasks : s'.tasks.map (·.taskId) = s.tasks.map (·.taskId)
  components : s'.components.map (·.versionId) = s.components.map (·.versionId)

theorem SameRows.no_tasks (h : SameRows s s') (hs : s.tasks = []) : s'.tasks = [] := by
  have := h.tasks
  rw [hs] at this
  exact List.map_eq_nil_iff.mp this

theorem SameRows.no_components (h : SameRows s s') : s'.components = [] ↔ s.components = [] := by
  rw [← List.map_eq_nil_iff (f := (·.versionId)), h.components, List.map_eq_nil_iff]

theorem SameRows.isVersion (h : SameRows s s') (hs : s.IsVersion P) : s'.IsVersion P := by
  rcases hs with ⟨ht, hc⟩ | ⟨t, ht, hc, hid⟩
  · exact .inl ⟨h.no_tasks ht, h.no_components.mpr hc⟩
  · have htasks := h.tasks
    rw [ht] at htasks
    obtain ⟨t', ht', hid'⟩ := List.map_eq_singleton_iff.mp htasks
    refine .inr ⟨t', ht', fun hn => hc (h.no_components.mp hn), ?_⟩
    exact hid'.trans (hid.trans (buildTaskId_congr P h.components.symm))

/-- The operations that clear or fill a table. -/
def writes : Op → Bool
  | .insertTask _ | .insertComponents _ | .deleteTasks | .deleteComponents => true
  | _ => false

/-- All others keep the ids. -/
theorem sameRows_of_not_writes (n : Thread) (s : State) {o : Op} (ho : writes o = false) (x : o.Res) :
    SameRows s (o.after n s x) := by
  cases o with
  | insertTask | insertComponents | deleteTasks | deleteComponents => cases ho
  | updateTasks c i u =>
    refine ⟨?_, rfl⟩
    show (s.tasks.map fun t => if t.taskId = i then u.apply t else t).map (·.taskId) = _
    rw [List.map_map]
    refine List.map_congr_left fun t _ => ?_
    simp only [Function.comp_apply]
    split
    · cases u <;> rfl
    · rfl
  | updateComponents c u =>
    refine ⟨rfl, ?_⟩
    show (s.components.map fun r => u.apply r).map (·.versionId) = _
    rw [List.map_map]
    refine List.map_congr_left fun r _ => ?_
    cases u with
    | progressByUrl | urlByVersionId =>
      simp only [Function.comp_apply, ComponentUpdate.apply]
      split <;> rfl
  | openFile p | saveDataToFile p d | awaitWake i => cases x <;> exact ⟨rfl, rfl⟩
  | enter m => cases m <;> exact ⟨rfl, rfl⟩
  | _ => exact ⟨rfl, rfl⟩

/-- What the tables hold while operations that do not overlap are under way: a version or none, or a thread is about to go on with
what it has begun. -/
structure Filed (P : Platform) (s : State) (ρ : Thread → Option Filing) : Prop where
  rows : s.IsVersion P ∨ ∃ n r, ρ n = some r ∧ ¬r.rests ∧ r ≠ .gone
  dropped : ∀ n, ρ n = some .dropped → s.tasks = []
  swept : ∀ n, n.kind = .check → ρ n = some .swept → s.tasks = [] ∧ s.components = []
  stored : ∀ n l, ρ n = some (.stored l) →
    n.kind = .check ∧ l ≠ [] ∧ s.tasks = [] ∧ s.components.map (·.versionId) = l.map (·.versionId)
  looked : ∀ n l, ρ n = some (.looked l) → n.kind = .check ∧ s.components.map (·.versionId) = l.map (·.versionId)
  bystands : ∀ n r, ρ n = some r → n.bystands = true → r = .settled
  pair : ∀ f r, ρ (.checkNewVersion f) = some r → ρ (.checkExecutor f) ≠ none → r = .gone

/-- A thread that is going on with what it has begun, or a check, is at work. -/
theorem Filed.busy (h : Filed P s ρ) (hf : Fits P c) (hρ : (filing P).Tracks c ρ) (hn : ρ n = some r)
    (hr : ¬r.rests ∨ n.kind = .check) : Busy c n := by
  have hlive : c.live n = true := by
    rw [hρ.live_iff, hn]
    rfl
  refine ⟨hlive, ?_, ?_⟩
  · by_contra hb
    have hb : n.bystands = true := by simpa using hb
    rcases hr with hr | hr
    · rw [h.bystands n r hn hb] at hr
      exact hr rests_settled
    · rw [bystands_kind hb] at hr
      cases hr
  · by_contra hw
    have hw : c.waits n = true := by simpa using hw
    obtain ⟨o, ho, hw⟩ := (Option.any_eq_true ..).mp hw
    cases o with
    | awaitWake i =>
      rcases hr with hr | hr
      · obtain ⟨r', hr', ha⟩ := hρ.allowed ho
        rw [hn] at hr'
        cases hr'
        exact hr ha
      · rw [kind_of_awaitWake hf ho] at hr
        cases hr
    | _ => cases hw

/-- Besides a check that is at work nothing else is, and besides anything at work no check is. -/
theorem Filed.unique (h : Filed P s ρ) (hf : Fits P c) (hρ : (filing P).Tracks c ρ) (hone : OneOperation c)
    (hn : ρ n = some r) (hr : ¬r.rests ∨ n.kind = .check) (hgone : r ≠ .gone) (hm : ρ m = some r')
    (hr' : ¬r'.rests ∨ m.kind = .check) (hgone' : r' ≠ .gone) (hcheck : n.kind = .check ∨ m.kind = .check) : m = n := by
  have hbn := h.busy hf hρ hn hr
  have hbm := h.busy hf hρ hm hr'
  have hflow : n.flow = m.flow := hone n m hbn hbm
  have hkind : n.kind = m.kind := kind_eq hf hbn.1 hbm.1 hflow
  have hn' : n.kind = .check := hcheck.elim id fun hm' => hkind.trans hm'
  have hm' : m.kind = .check := hkind.symm.trans hn'
  have hname {k : Thread} (hk : k.kind = .check) : k = .checkNewVersion k.flow ∨ k = .checkExecutor k.flow := by
    cases k with
    | checkNewVersion f => exact .inl rfl
    | checkExecutor f => exact .inr rfl
    | upgrade f o =>
      simp only [Thread.kind] at hk
      split at hk
      · cases hk
      · split at hk <;> cases hk
    | _ => cases hk
  rcases hname hn' with hn₁ | hn₁
  · rcases hname hm' with hm₁ | hm₁
    · rw [hn₁, hm₁, hflow]
    · rw [hn₁] at hn
      rw [hm₁, ← hflow] at hm
      exact absurd (h.pair _ _ hn (by rw [hm]; exact Option.some_ne_none _)) hgone
  · rcases hname hm' with hm₁ | hm₁
    · rw [hm₁] at hm
      rw [hn₁, hflow] at hn
      exact absurd (h.pair _ _ hm (by rw [hn]; exact Option.some_ne_none _)) hgone'
    · rw [hn₁, hm₁, hflow]

/-- A thread that rests goes on without touching the tables. -/
theorem Filed.of_calm (h : Filed P s ρ) (hs : SameRows s s') (hr : ρ n = some r) (hrest : r.rests)
    (hr' : r' = r ∨ (r' = .gone ∧ n.bystands = false) ∨ ∃ l, r' = .looked l ∧ n.kind = .check ∧ s.components = l) :
    Filed P s' (Function.update ρ n (some r')) := by
  have hstage : r' ≠ .dropped ∧ ∀ l, r' ≠ .stored l := by
    rcases hr' with rfl | ⟨rfl, -⟩ | ⟨l, rfl, -⟩
    · refine ⟨?_, fun l => ?_⟩
      · rintro rfl
        rcases hrest with h | h | ⟨_, h⟩ <;> cases h
      · rintro rfl
        rcases hrest with h | h | ⟨_, h⟩ <;> cases h
    · exact ⟨Filing.noConfusion, fun _ => Filing.noConfusion⟩
    · exact ⟨Filing.noConfusion, fun _ => Filing.noConfusion⟩
  refine ⟨?_, fun m hm => ?_, fun m hk hm => ?_, fun m l hm => ?_, fun m l hm => ?_, fun m r₁ hm hb => ?_, fun f r₁ hm he => ?_⟩
  · rcases h.rows with hv | ⟨m, r₁, hm, hm₁, hm₂⟩
    · exact .inl (hs.isVersion hv)
    · refine .inr ⟨m, r₁, ?_, hm₁, hm₂⟩
      rw [Function.update_of_ne, hm]
      rintro rfl
      rw [hr] at hm
      cases hm
      exact hm₁ hrest
  · rcases Protocol.role_update hm with ⟨-, hd⟩ | ⟨-, hm⟩
    · exact absurd hd.symm hstage.1
    · exact hs.no_tasks (h.dropped m hm)
  · rcases Protocol.role_update hm with ⟨rfl, hd⟩ | ⟨-, hm⟩
    · rcases hr' with rfl | ⟨rfl, -⟩ | ⟨l, rfl, -⟩
      · subst hd
        obtain ⟨ht, hc⟩ := h.swept m hk hr
        exact ⟨hs.no_tasks ht, hs.no_components.mpr hc⟩
      · cases hd
      · cases hd
    · obtain ⟨ht, hc⟩ := h.swept m hk hm
      exact ⟨hs.no_tasks ht, hs.no_components.mpr hc⟩
  · rcases Protocol.role_update hm with ⟨-, hd⟩ | ⟨-, hm⟩
    · exact absurd hd.symm (hstage.2 l)
    · obtain ⟨hk, hl, ht, hc⟩ := h.stored m l hm
      exact ⟨hk, hl, hs.no_tasks ht, hs.components.trans hc⟩
  · rcases Protocol.role_update hm with ⟨rfl, hd⟩ | ⟨-, hm⟩
    · rcases hr' with rfl | ⟨rfl, -⟩ | ⟨l', rfl, hk, hl'⟩
      · subst hd
        obtain ⟨hk, hc⟩ := h.looked m l hr
        exact ⟨hk, hs.components.trans hc⟩
      · cases hd
      · cases hd
        rw [← hl']
        exact ⟨hk, hs.components⟩
    · obtain ⟨hk, hc⟩ := h.looked m l hm
      exact ⟨hk, hs.components.trans hc⟩
  · rcases Protocol.role_update hm with ⟨rfl, rfl⟩ | ⟨-, hm⟩
    · rcases hr' with rfl | ⟨rfl, hb'⟩ | ⟨l, rfl, hk, -⟩
      · exact h.bystands m r₁ hr hb
      · rw [hb] at hb'
        cases hb'
      · rw [bystands_kind hb] at hk
        cases hk
    · exact h.bystands m r₁ hm hb
  · have hexecutor : ρ (.checkExecutor f) ≠ none := by
      intro hne
      by_cases hn : .checkExecutor f = n
      · rw [← hn, hne] at hr
        cases hr
      · rw [Function.update_of_ne hn] at he
        exact he hne
    rcases Protocol.role_update hm with ⟨rfl, rfl⟩ | ⟨-, hm⟩
    · rw [h.pair f r hr hexecutor] at hrest
      rcases hrest with h | h | ⟨_, h⟩ <;> cases h
    · exact h.pair f r₁ hm hexecutor

/-- A thread begins. -/
theorem Filed.of_begin (h : Filed P s ρ) (hs : SameRows s s') (hn : ρ n = none)
    (hcheck : ∀ f, n = .checkNewVersion f → ρ (.checkExecutor f) = none)
    (hexecutor : ∀ f r, n = .checkExecutor f → ρ (.checkNewVersion f) = some r → r = .gone) :
    Filed P s' (Function.update ρ n (some .settled)) := by
  refine ⟨?_, fun m hm => ?_, fun m hk hm => ?_, fun m l hm => ?_, fun m l hm => ?_, fun m r₁ hm hb => ?_, fun f r₁ hm he => ?_⟩
  · rcases h.rows with hv | ⟨m, r₁, hm, hm₁⟩
    · exact .inl (hs.isVersion hv)
    · refine .inr ⟨m, r₁, ?_, hm₁⟩
      rw [Function.update_of_ne, hm]
      rintro rfl
      rw [hn] at hm
      cases hm
  · rcases Protocol.role_update hm with ⟨-, hd⟩ | ⟨-, hm⟩
    · cases hd
    · exact hs.no_tasks (h.dropped m hm)
  · rcases Protocol.role_update hm with ⟨-, hd⟩ | ⟨-, hm⟩
    · cases hd
    · obtain ⟨ht, hc⟩ := h.swept m hk hm
      exact ⟨hs.no_tasks ht, hs.no_components.mpr hc⟩
  · rcases Protocol.role_update hm with ⟨-, hd⟩ | ⟨-, hm⟩
    · cases hd
    · obtain ⟨hk, hl, ht, hc⟩ := h.stored m l hm
      exact ⟨hk, hl, hs.no_tasks ht, hs.components.trans hc⟩
  · rcases Protocol.role_update hm with ⟨-, hd⟩ | ⟨-, hm⟩
    · cases hd
    · obtain ⟨hk, hc⟩ := h.looked m l hm
      exact ⟨hk, hs.components.trans hc⟩
  · rcases Protocol.role_update hm with ⟨-, rfl⟩ | ⟨-, hm⟩
    · rfl
    · exact h.bystands m r₁ hm hb
  · rcases Protocol.role_update hm with ⟨hf, rfl⟩ | ⟨hf, hm⟩
    · refine absurd (hcheck f hf.symm) ?_
      rwa [Function.update_of_ne] at he
      rw [← hf]
      exact Thread.noConfusion
    · by_cases hf' : .checkExecutor f = n
      · exact hexecutor f r₁ hf'.symm hm
      · rw [Function.update_of_ne hf'] at he
        exact h.pair f r₁ hm he

/-- A thread comes to its end. -/
theorem Filed.of_retire (h : Filed P s ρ) (hr : ρ n = some r) (hfinal : r.rests ∨ r = .gone) :
    Filed P s (Function.update ρ n none) := by
  have hold : ∀ m r₁, Function.update ρ n none m = some r₁ → ρ m = some r₁ := fun m r₁ h₁ => (Protocol.role_retire h₁).2
  refine ⟨?_, fun m hm => h.dropped m (hold _ _ hm), fun m hk hm => h.swept m hk (hold _ _ hm), fun m l hm => h.stored m l (hold _ _ hm),
    fun m l hm => h.looked m l (hold _ _ hm), fun m r₁ hm => h.bystands m r₁ (hold _ _ hm), fun f r₁ hm he => ?_⟩
  · rcases h.rows with hv | ⟨m, r₁, hm, hm₁, hm₂⟩
    · exact .inl hv
    · refine .inr ⟨m, r₁, ?_, hm₁, hm₂⟩
      rw [Function.update_of_ne, hm]
      rintro rfl
      rw [hr] at hm
      cases hm
      exact hfinal.elim hm₁ hm₂
  · refine h.pair f r₁ (hold _ _ hm) ?_
    obtain ⟨r₂, hr₂⟩ := Option.ne_none_iff_exists'.mp he
    rw [hold _ _ hr₂]
    exact Option.some_ne_none _

/-- A thread that clears or fills a table. -/
theorem Filed.of_write (h : Filed P s ρ) (hr : ρ n = some r) (hb : n.bystands = false) (hgone : r ≠ .gone)
    (hrows : s'.IsVersion P ∨ (¬r'.rests ∧ r' ≠ .gone))
    (hdropped : ∀ m, Function.update ρ n (some r') m = some .dropped → s'.tasks = [])
    (hswept : ∀ m, m.kind = .check → Function.update ρ n (some r') m = some .swept → s'.tasks = [] ∧ s'.components = [])
    (hstored : ∀ m l, Function.update ρ n (some r') m = some (.stored l) →
      m.kind = .check ∧ l ≠ [] ∧ s'.tasks = [] ∧ s'.components.map (·.versionId) = l.map (·.versionId))
    (hlooked : ∀ m l, Function.update ρ n (some r') m = some (.looked l) →
      m.kind = .check ∧ s'.components.map (·.versionId) = l.map (·.versionId)) :
    Filed P s' (Function.update ρ n (some r')) := by
  refine ⟨hrows.imp id fun hr' => ⟨n, r', Function.update_self .., hr'⟩, hdropped, hswept, hstored, hlooked, fun m r₁ hm hbm => ?_,
    fun f r₁ hm he => ?_⟩
  · rcases Protocol.role_update hm with ⟨rfl, -⟩ | ⟨-, hm⟩
    · rw [hb] at hbm
      cases hbm
    · exact h.bystands m r₁ hm hbm
  · have hexecutor : ρ (.checkExecutor f) ≠ none := by
      intro hne
      by_cases hn : .checkExecutor f = n
      · rw [← hn, hne] at hr
        cases hr
      · rw [Function.update_of_ne hn] at he
        exact he hne
    rcases Protocol.role_update hm with ⟨rfl, -⟩ | ⟨-, hm⟩
    · exact absurd (h.pair f r hr hexecutor) hgone
    · exact h.pair f r₁ hm hexecutor

/-! ## Every operation -/

/-- Threads with the role a thread had before, or the one it gets. -/
theorem role_after {k : Filing} (h : Function.update ρ n (some r') m = some k) (hr' : r' ≠ k) : m ≠ n ∧ ρ m = some k := by
  rcases Protocol.role_update h with ⟨-, hk⟩ | hm
  · exact absurd hk.symm hr'
  · exact hm

/-- The task table is cleared. -/
theorem Filed.of_deleteTasks (h : Filed P s ρ) (hr : ρ n = some r) (hrest : r.rests) (hb : n.bystands = false)
    (ht : s'.tasks = []) (hc : s'.components = s.components) : Filed P s' (Function.update ρ n (some .dropped)) := by
  have hgone : r ≠ .gone := by
    rintro rfl
    rcases hrest with h | h | ⟨_, h⟩ <;> cases h
  have hunrest : ¬Filing.dropped.rests := by
    rintro (h | h | ⟨_, h⟩) <;> cases h
  refine h.of_write hr hb hgone (.inr ⟨hunrest, Filing.noConfusion⟩) (fun _ _ => ht) (fun m hk hm => ?_) (fun m l hm => ?_)
    fun m l hm => ?_
  · rw [hc]
    exact ⟨ht, (h.swept m hk (role_after hm Filing.noConfusion).2).2⟩
  · obtain ⟨hk, hl, -, hids⟩ := h.stored m l (role_after hm Filing.noConfusion).2
    rw [hc]
    exact ⟨hk, hl, ht, hids⟩
  · rw [hc]
    exact h.looked m l (role_after hm Filing.noConfusion).2

/-- The component table is cleared, after the task table. -/
theorem Filed.of_deleteComponents (h : Filed P s ρ) (hf : Fits P c) (hρ : (filing P).Tracks c ρ) (hone : OneOperation c)
    (hr : ρ n = some .dropped) (hb : n.bystands = false) (ht : s'.tasks = s.tasks) (hc : s'.components = []) :
    Filed P s' (Function.update ρ n (some .swept)) := by
  have htasks : s'.tasks = [] := ht.trans (h.dropped n hr)
  have hunrest : ¬Filing.dropped.rests := by
    rintro (h | h | ⟨_, h⟩) <;> cases h
  have hother {m : Thread} {k : Filing} (hm : ρ m = some k) (hk : m.kind = .check) (hgone : k ≠ .gone) : m = n :=
    h.unique hf hρ hone hr (.inl hunrest) Filing.noConfusion hm (.inr hk) hgone (.inr hk)
  refine h.of_write hr hb Filing.noConfusion (.inl (.inl ⟨htasks, hc⟩)) (fun _ _ => htasks) (fun _ _ _ => ⟨htasks, hc⟩)
    (fun m l hm => ?_) fun m l hm => ?_
  · obtain ⟨hne, hm⟩ := role_after hm Filing.noConfusion
    exact absurd (hother hm (h.stored m l hm).1 Filing.noConfusion) hne
  · obtain ⟨hne, hm⟩ := role_after hm Filing.noConfusion
    exact absurd (hother hm (h.looked m l hm).1 Filing.noConfusion) hne

/-- A check stores rows, after both tables were cleared. -/
theorem Filed.of_insertComponents (h : Filed P s ρ) (hf : Fits P c) (hρ : (filing P).Tracks c ρ) (hone : OneOperation c)
    (hr : ρ n = some .swept) (hn : n.kind = .check) {l : List FirmwareComponent} (hl : l ≠ []) (ht : s'.tasks = s.tasks)
    (hc : s'.components = s.components ++ l) : Filed P s' (Function.update ρ n (some (.stored l))) := by
  obtain ⟨htasks, hrows⟩ := h.swept n hn hr
  rw [hrows, List.nil_append] at hc
  rw [htasks] at ht
  have hb : n.bystands = false := by
    by_contra hb
    rw [bystands_kind (by simpa using hb)] at hn
    cases hn
  have hunrest : ¬(Filing.stored l).rests := by
    rintro (h | h | ⟨_, h⟩) <;> cases h
  have hother {m : Thread} {k : Filing} (hm : ρ m = some k) (hk : m.kind = .check) (hgone : k ≠ .gone) : m = n :=
    h.unique hf hρ hone hr (.inr hn) Filing.noConfusion hm (.inr hk) hgone (.inl hn)
  refine h.of_write hr hb Filing.noConfusion (.inr ⟨hunrest, Filing.noConfusion⟩) (fun _ _ => ht) (fun m hk hm => ?_)
    (fun m l' hm => ?_) fun m l' hm => ?_
  · obtain ⟨hne, hm⟩ := role_after hm Filing.noConfusion
    exact absurd (hother hm hk Filing.noConfusion) hne
  · rcases Protocol.role_update hm with ⟨rfl, hd⟩ | ⟨hne, hm⟩
    · cases hd
      exact ⟨hn, hl, ht, by rw [hc]⟩
    · exact absurd (hother hm (h.stored m l' hm).1 Filing.noConfusion) hne
  · obtain ⟨hne, hm⟩ := role_after hm Filing.noConfusion
    exact absurd (hother hm (h.looked m l' hm).1 Filing.noConfusion) hne

/-- The check stores their task. -/
theorem Filed.of_insertTask (h : Filed P s ρ) (hf : Fits P c) (hρ : (filing P).Tracks c ρ) (hone : OneOperation c)
    {l : List FirmwareComponent} (hr : ρ n = some (.stored l)) {t : FirmwareTask}
    (hid : t.taskId = FirmwareUpdateHelper.buildTaskId P l) (ht : s'.tasks = s.tasks ++ [t]) (hc : s'.components = s.components) :
    Filed P s' (Function.update ρ n (some .settled)) := by
  obtain ⟨hn, hl, htasks, hids⟩ := h.stored n l hr
  rw [htasks, List.nil_append] at ht
  have hb : n.bystands = false := by
    by_contra hb
    rw [bystands_kind (by simpa using hb)] at hn
    cases hn
  have hversion : s'.IsVersion P := by
    refine .inr ⟨t, ht, ?_, ?_⟩
    · rw [hc]
      intro hnil
      rw [hnil] at hids
      exact hl (List.map_eq_nil_iff.mp hids.symm)
    · rw [hc, hid]
      exact buildTaskId_congr P hids.symm
  have hother {m : Thread} {k : Filing} (hm : ρ m = some k) (hk : ¬k.rests ∨ m.kind = .check) (hgone : k ≠ .gone) : m = n :=
    h.unique hf hρ hone hr (.inr hn) Filing.noConfusion hm hk hgone (.inl hn)
  refine h.of_write hr hb Filing.noConfusion (.inl hversion) (fun m hm => ?_) (fun m hk hm => ?_) (fun m l' hm => ?_)
    fun m l' hm => ?_
  · obtain ⟨hne, hm⟩ := role_after hm Filing.noConfusion
    refine absurd (hother hm (.inl ?_) Filing.noConfusion) hne
    rintro (h | h | ⟨_, h⟩) <;> cases h
  · obtain ⟨hne, hm⟩ := role_after hm Filing.noConfusion
    exact absurd (hother hm (.inr hk) Filing.noConfusion) hne
  · obtain ⟨hne, hm⟩ := role_after hm Filing.noConfusion
    exact absurd (hother hm (.inr (h.stored m l' hm).1) Filing.noConfusion) hne
  · obtain ⟨hne, hm⟩ := role_after hm Filing.noConfusion
    exact absurd (hother hm (.inr (h.looked m l' hm).1) Filing.noConfusion) hne

/-- An operation keeps the invariant. -/
theorem run_filed {o : Op} {a : Answer} {x : o.Res} (h : Filed P c.state ρ) (hf : Fits P c) (hρ : (filing P).Tracks c ρ)
    (hone : OneOperation c) (hr : ρ n = some r) (ha : FilingAux.allowed P n r o) (hx : o.answer n a c.state = some x) :
    Filed P (o.after n c.state x) (Function.update ρ n (some (FilingAux.next n r o x))) := by
  cases o with
  | deleteTasks => exact h.of_deleteTasks hr ha.1 ha.2 rfl rfl
  | deleteComponents =>
    obtain rfl : r = .dropped := ha
    have hb : n.bystands = false := by
      by_contra hb
      cases h.bystands n _ hr (by simpa using hb)
    exact h.of_deleteComponents hf hρ hone hr hb rfl rfl
  | insertComponents l =>
    obtain ⟨rfl, hn, hl⟩ := ha
    exact h.of_insertComponents hf hρ hone hr hn hl rfl rfl
  | insertTask t =>
    obtain ⟨l, rfl, hid⟩ := ha
    exact h.of_insertTask hf hρ hone hr hid rfl rfl
  | spawn t =>
    refine h.of_calm (sameRows_of_not_writes n c.state rfl x) hr ha.1 ?_
    cases t with
    | checkExecutor f => exact .inr (.inl ⟨rfl, ha.2⟩)
    | _ => exact .inl rfl
  | onCheckVersionDone | getStatusCache | setStatusCache =>
    exact h.of_calm (sameRows_of_not_writes n c.state rfl x) hr ha.1 (.inl rfl)
  | queryComponents caller =>
    refine h.of_calm ⟨rfl, rfl⟩ hr ha ?_
    cases caller with
    | buildCheckResult =>
      by_cases hn : n.kind = .check
      · exact .inr (.inr ⟨x, if_pos hn, hn, Option.some.inj hx⟩)
      · exact .inl (if_neg hn)
    | _ => exact .inl rfl
  | _ => exact h.of_calm (sameRows_of_not_writes n c.state rfl x) hr ha (.inl rfl)

/-- At first, or after the end of an operation, the tables hold a version or none. -/
theorem filed_init {d : Store} (h : d.state.IsVersion P) : Filed P d.state fun _ => none where
  rows := .inl h
  dropped := fun _ h => by cases h
  swept := fun _ _ h => by cases h
  stored := fun _ _ h => by cases h
  looked := fun _ _ h => by cases h
  bystands := fun _ _ h => by cases h
  pair := fun _ _ h => by cases h

/-- A check that is started has a flow of its own. -/
theorem fresh_check (hf : Fits P c) (hρ : (filing P).Tracks c ρ) {f : Nat} (hs : starts (.checkNewVersion f) c.state = some s') :
    ρ (.checkExecutor f) = none := by
  by_contra hne
  have hlive : c.live (.checkExecutor f) = true := (hρ.live_iff _).mpr (Option.isSome_iff_ne_none.mpr hne)
  obtain ⟨ρ₀, hρ₀, hF⟩ := hf
  obtain ⟨r, hr⟩ := Option.isSome_iff_exists.mp ((hρ₀.live_iff _).mp hlive)
  have hlt : f < c.state.nextFlow := hF.lt _ r hr
  obtain ⟨rfl, -⟩ := Option.ite_none_right_eq_some.mp hs
  exact Nat.lt_irrefl _ hlt

/-- Only a request to check starts the executor of a check, and none starts a request. -/
theorem spawns_check (hf : Fits P c) {t : Thread} (hnext : c.next n = some (.spawn t)) (f : Nat) :
    t ≠ .checkNewVersion f ∧ (t = .checkExecutor f → n = .checkNewVersion f) := by
  obtain ⟨ρ₀, hρ₀, -⟩ := hf
  obtain ⟨r, -, ha⟩ := hρ₀.allowed hnext
  rcases ha with ⟨-, hs⟩ | ⟨_, _, _, _, _, _, -, -, -, -, rfl⟩
  · refine ⟨?_, ?_⟩
    · rintro rfl
      cases n <;> cases hs
    · rintro rfl
      cases n with
      | checkNewVersion g => exact congrArg Thread.checkNewVersion (of_decide_eq_true hs)
      | _ => cases hs
  · exact ⟨Thread.noConfusion, Thread.noConfusion⟩

/-- On runs on which operations do not overlap the invariant holds. -/
def filedSimulation {d : Store} (hd : d.state.IsVersion P) :
    Simulation (machine P) (filing P) (fun c _ => OneOperation c ∧ Fits P c) d.state (Filed P) where
  occurs := fun _ => True
  occurs_start := fun _ _ _ => trivial
  occurs_spawn := fun _ _ _ _ _ _ _ => trivial
  conforms := fun n _ => FilingAux.conforms P n
  init := filed_init hd
  start := fun c ρ n s hρ h hok hn hc hs => by
    obtain ⟨hflows, ht, hrows⟩ := starts_flows hs
    refine h.of_begin ⟨by rw [ht], by rw [hrows]⟩ hn ?_ ?_
    · rintro f rfl
      exact fresh_check hok.2 hρ hs
    · rintro f r rfl
      cases hs
  expected := fun _ _ _ _ _ _ _ _ _ _ _ _ _ _ _ _ => trivial
  run := fun c ρ n r o x a s hρ h _ hok hnext hr ha _ hsp hx _ => by
    obtain ⟨-, hanswer, rfl⟩ := exec_eq_some hx
    have hrun := run_filed h hok.2 hρ hok.1 hr ha hanswer
    cases o with
    | spawn t =>
      obtain ⟨hne, hstarted⟩ := hsp t rfl
      refine hrun.of_begin ⟨rfl, rfl⟩ ?_ ?_ ?_
      · rw [Function.update_of_ne hne]
        exact hρ.eq_none_of_not_started hstarted
      · rintro f rfl
        exact absurd rfl (spawns_check hok.2 hnext f).1
      · rintro f r₁ rfl hr₁
        obtain rfl := (spawns_check hok.2 hnext f).2 rfl
        rw [Function.update_self] at hr₁
        exact (Option.some.inj hr₁).symm
    | _ => exact hrun
  retire := fun s ρ n r h hr hfinal => h.of_retire hr hfinal

/-- What the tables hold on such a run, and that a check answers with the digest of their rows. -/
theorem reach_filed {d : Store} (hd : d.state.IsVersion P) (h : Reach (machine P) (fun c a => sequential c a = true) d.boot c) :
    ∃ ρ, (filing P).Tracks c ρ ∧ Filed P c.state ρ := by
  have hstrong := Reach.strengthen (I := fun c => OneOperation c ∧ Fits P c) (fun c hc => ⟨oneOperation hc, fits_of_reach hc⟩) h
  exact ((filedSimulation hd).invariant (hstrong.mono fun _ _ h => h.2)).1

/-- When no operation is under way, nothing is half done. -/
theorem isVersion_of_quiet {d : Store} (hd : d.state.IsVersion P)
    (h : Reach (machine P) (fun c a => sequential c a = true) d.boot c) (hq : c.quiet = true) : c.state.IsVersion P := by
  obtain ⟨ρ, hρ, hF⟩ := reach_filed hd h
  rcases hF.rows with hv | ⟨n, r, hn, hr, -⟩
  · exact hv
  · obtain ⟨hlive, hb, hw⟩ := hF.busy (fits_of_reach h) hρ hn (.inl hr)
    have := Config.all_eq_true.mp hq n hlive
    rw [hb, hw] at this
    cases this

/-- A process starts from a version or none when that is what is stored. -/
theorem isVersion_init {d : Store} (h : d.state.IsVersion P) (startupReason : StartupReason) :
    (FirmwareManager.init startupReason d).state.IsVersion P := by
  unfold FirmwareManager.init
  split
  · exact .inl ⟨rfl, rfl⟩
  · exact h

/-- What the device is left with is a version or none. -/
theorem isVersion_of_served {d : Store} (h : Served P d) : d.state.IsVersion P := by
  induction h with
  | new ht hc => exact .inl ⟨ht, hc⟩
  | stopped _ hc hq ih => exact isVersion_of_quiet (isVersion_init ih _) hc hq
  | elsewhere _ ht hc ih =>
    rcases ih with ⟨htasks, hrows⟩ | ⟨t, htasks, hrows, hid⟩
    · exact .inl ⟨ht.trans htasks, hc.trans hrows⟩
    · refine .inr ⟨t, ht.trans htasks, fun hn => hrows (hc.symm.trans hn), hid.trans ?_⟩
      exact congrArg (FirmwareUpdateHelper.buildTaskId P) hc.symm

/-- The digest `GetNewVersionInfo` finds is that of the rows. -/
theorem getNewVersionInfo_ends (hv : s.IsVersion P) (hs : s.stopped = false) (n : Thread) (a : Answer) :
    (UpdateServiceImplFirmware.getNewVersionInfo P).Ends (n.alone a) s fun info _ =>
      info.2 = FirmwareUpdateHelper.buildTaskId P s.components := by
  refine Prog.Ends.seq (AloneAux.queryTask_ends hs _ _) ?_
  rintro _ s₁ ⟨rfl, h₁⟩
  refine AloneAux.ends_op (AloneAux.not_stopped h₁ hs) rfl ?_
  rcases hv with ⟨ht, hc⟩ | ⟨t, ht, -, hid⟩
  · rw [ht, hc]
    rfl
  · rw [ht]
    exact hid

end StoredAux

open StoredAux in
/-- As long as operations do not overlap, the tables hold one version or none when no operation is under way; and for a version a check
has answered with, `GetNewVersionInfo` finds the digest of that answer whenever the same version is stored. -/
theorem stored_version (P : Platform) {c : Config} (h : Serves P c) :
    (c.quiet = true → c.state.IsVersion P) ∧
      ∀ n e x, c.next n = some (.onCheckVersionDone e x) → x.isExistNewVersion = true →
        ∀ c', Serves P c' → c'.quiet = true → c'.state.stopped = false →
          c'.state.components.map (·.versionId) = c.state.components.map (·.versionId) →
          ∀ (m : Thread) a, (UpdateServiceImplFirmware.getNewVersionInfo P).Ends (m.alone a) c'.state fun info _ =>
            info.2 = x.versionDigest := by
  obtain ⟨d, reason, hd, hc⟩ := h
  have hversion := isVersion_init (isVersion_of_served hd) reason
  refine ⟨isVersion_of_quiet hversion hc, ?_⟩
  rintro n e x hn hx c' ⟨d', reason', hd', hc'⟩ hq' hs' hids m a
  obtain ⟨ρ, hρ, hF⟩ := reach_filed hversion hc
  obtain ⟨r, hr, -, ha⟩ := hρ.allowed hn
  obtain ⟨l, rfl, hdigest⟩ := ha hx
  have hversion' := isVersion_of_quiet (isVersion_init (isVersion_of_served hd') reason') hc' hq'
  refine (getNewVersionInfo_ends hversion' hs' m a).mono ?_
  intro info _ hinfo
  rw [hinfo, hdigest]
  exact buildTaskId_congr P (hids.trans (hF.looked n l hr).2)

/-- The last answer of a check: what it reports. -/
def Config.answers (c : Config) (n : Thread) : Option CheckResult := (c.next n).bind fun o => match o with
  | .onCheckVersionDone _ x => some x
  | _ => none

/-- The phone up to the answer of its first check. -/
def phoneAnswers : List (Thread × Nat) :=
  [(.netChanged 0 .notMeteredWifi, 6), (.checkNewVersion 1, 9), (.checkExecutor 1, 27)]

/-- The phone answers its first check, and `GetNewVersionInfo` finds the version later. -/
theorem stored_version_phone : ∃ c c' x, Serves .phone c ∧ Serves .phone c' ∧ Config.answers c (.checkExecutor 1) = some x ∧
    (c'.state.tasks ≠ [] ∧ c'.state.IsVersion .phone) ∧
    (UpdateServiceImplFirmware.getNewVersionInfo .phone).Ends ((Thread.checkNewVersion 2).alone .none) c'.state fun info _ =>
      info.2 = x.versionDigest := by
  have h : ((machine .phone).follow sequential
      ((machine .phone).turns favourable (turnsOf phoneAnswers) (Store.boot {})) (Store.boot {})).any (fun c =>
        (Config.answers c (.checkExecutor 1)).any (·.isExistNewVersion) && c.state.components.map (·.versionId) = [""]) =
      true := by decide
  have h' : ((machine .phone).follow sequential
      ((machine .phone).turns favourable (turnsOf phoneChecks) (Store.boot {})) (Store.boot {})).any (fun c =>
        Config.quiet c && !c.state.stopped && !c.state.tasks.isEmpty && c.state.components.map (·.versionId) = [""]) = true := by
    decide
  obtain ⟨c, hc, hp⟩ := Reach.exists_of_follow h
  obtain ⟨c', hc', hp'⟩ := Reach.exists_of_follow h'
  simp only [Bool.and_eq_true, decide_eq_true_eq, Bool.not_eq_true', List.isEmpty_eq_false_iff] at hp hp'
  obtain ⟨⟨⟨hquiet, hstopped⟩, htasks⟩, hids'⟩ := hp'
  obtain ⟨x, hx, hexist⟩ := (Option.any_eq_true ..).mp hp.1
  obtain ⟨o, ho, hanswer⟩ := Option.bind_eq_some_iff.mp hx
  have hserves : Serves .phone c := ⟨{}, .unknown, .new rfl rfl, hc⟩
  have hserves' : Serves .phone c' := ⟨{}, .unknown, .new rfl rfl, hc'⟩
  refine ⟨c, c', x, hserves, hserves', hx, ⟨htasks, (stored_version .phone hserves').1 hquiet⟩, ?_⟩
  cases o with
  | onCheckVersionDone e y =>
    obtain rfl : y = x := Option.some.inj hanswer
    exact (stored_version .phone hserves).2 _ e y ho hexist c' hserves' hquiet hstopped (hids'.trans hp.2.symm) _ _
  | _ => cases hanswer

end UpdateEngine
