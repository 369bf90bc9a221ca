import UpdateEngine.Theorems.Requests

/-!
# A check is answered with a report

`checkNewVersion` of a script waits, once its request is accepted, for the end of a check to be reported, which any check of the service
may end in. It is answered with a result only when such an end was emitted while it was on its way, and the result is a reported one.
-/

namespace UpdateEngine.Ipc.Client

open Concurrent

variable {σ : Type} {kit : IUpdateService σ} {w w' : World UpdateClient σ}

/-- The result a script is told. -/
def Settlement.result : Settlement → Option Value
  | .resolved v | .called none (some v) => some v
  | _ => none

/-- A result that the check of a session may be answered with: the end of a check that was reported without an error was emitted after the
session had been made, and the result is one that was reported. -/
def World.Reported (w : World UpdateClient σ) (n : Nat) (v : Value) : Prop :=
  (∃ n' businessError, (n', businessError) ∈ w.emitted ∧ n ≤ n' ∧ businessError.errorNum = INT_CALL_SUCCESS ∧
    ∃ checkResult, (businessError, checkResult) ∈ w.reported) ∧
  ∃ businessError checkResult, (businessError, checkResult) ∈ w.reported ∧ v = ClientHelper.buildCheckResult checkResult

namespace CheckCallsAux

open SessionsAux RequestsAux

/-- A worker that leaves the result of the check alone. -/
def Spares (doWorker : DoWorker UpdateClient σ) : Prop :=
  ∀ kit c businessError s, (doWorker kit c businessError s).1.2.1.checkResult = c.checkResult

/-- What the methods have to do with checks. -/
theorem methods_spec {m : Method UpdateClient σ} (hm : m ∈ UpdateClient.methods) (args : List Value) (c : UpdateClient) :
    (m args c).1.checkResult = c.checkResult ∧ ∀ request, (m args c).2 = some request → Spares request.doWorker ∧
      (request.params.type = .SESSION_CHECK_VERSION → request.params.isNeedBusinessError = false) := by
  have hrequest {ret : ClientStatus} {type : SessionType} {i : Nat} {doWorker : DoWorker UpdateClient σ} {request : Request UpdateClient σ}
      (h : UpdateClient.request ret type i doWorker = some request) (htype : type ≠ .SESSION_CHECK_VERSION) (hspares : Spares doWorker) :
      Spares request.doWorker ∧ (request.params.type = .SESSION_CHECK_VERSION → request.params.isNeedBusinessError = false) := by
    unfold UpdateClient.request at h
    split_ifs at h
    cases h
    exact ⟨hspares, fun htype' => absurd htype' htype⟩
  simp only [UpdateClient.methods, List.mem_cons, List.not_mem_nil, or_false] at hm
  rcases hm with rfl | rfl | rfl | rfl | rfl | rfl | rfl | rfl | rfl | rfl | rfl | rfl | rfl | rfl | rfl
  · refine ⟨rfl, fun request h => ?_⟩
    cases h
    exact ⟨fun _ _ _ _ => rfl, fun _ => rfl⟩
  · refine ⟨rfl, fun request h => ?_⟩
    unfold UpdateClient.cancelUpgrade at h
    dsimp only at h
    split_ifs at h
    cases h
    exact ⟨fun _ _ _ _ => rfl, by simp⟩
  all_goals
    refine ⟨rfl, fun request h => ?_⟩
    first
      | exact hrequest h (by simp) fun _ _ _ _ => rfl
      | cases h
        exact ⟨fun _ _ _ _ => rfl, by simp⟩

/-! ## How far a check has come -/

/-- A session of a check. -/
def IsCheck (s : Session UpdateClient σ) : Prop := s.params.type = .SESSION_CHECK_VERSION

/-- What is known of a check. One that has been told of an end holds an error that was emitted since it was made. One that has not, and is
executed without an error, was not accepted. -/
structure Waits (w : World UpdateClient σ) (e : Nat × Session UpdateClient σ) : Prop where
  need : e.2.params.isNeedBusinessError = false
  done : e.2.asyncExecuteComplete = true → ∃ n, (n, e.2.businessError) ∈ w.emitted ∧ e.1 ≤ n
  pending : e.2.asyncExecuteComplete = false → e.2.businessError.errorNum = INT_CALL_SUCCESS → (e.1, .executed) ∈ w.works →
    e.2.workResult ≠ INT_CALL_SUCCESS

/-- What is known throughout a run. -/
structure Checks (w : World UpdateClient σ) : Prop where
  emits : ∀ businessError ∈ w.emits, ∃ checkResult, (businessError, checkResult) ∈ w.reported
  emitted : ∀ e ∈ w.emitted, ∃ checkResult, (e.2, checkResult) ∈ w.reported
  latest : w.reported = [] ∨ ∃ businessError, (businessError, w.members.checkResult) ∈ w.reported
  spares : ∀ e ∈ w.sessions, Spares e.2.doWorker
  waits : ∀ e ∈ w.sessions, IsCheck e.2 → Waits w e
  answered : ∀ e ∈ w.completed, ∀ kind settlement v, (e.1, .SESSION_CHECK_VERSION, kind) ∈ w.started → e.2 = some settlement →
    settlement.result = some v → w.Reported e.1 v

theorem checks_fresh (service : σ) (members : UpdateClient) : Checks (World.fresh service members) where
  emits := by simp [World.fresh]
  emitted := by simp [World.fresh]
  latest := .inl rfl
  spares := by simp [World.fresh]
  waits := by simp [World.fresh]
  answered := by simp [World.fresh]

/-- What is known of a check stays known when nothing is written to it and its work is not executed. -/
theorem Waits.mono {e : Nat × Session UpdateClient σ} (h : Waits w e) (hemitted : w.emitted ⊆ w'.emitted)
    (hworks : (e.1, .executed) ∈ w'.works → (e.1, .executed) ∈ w.works) : Waits w' e :=
  ⟨h.need, fun hdone => (h.done hdone).imp fun _ hn => ⟨hemitted hn.1, hn.2⟩, fun h1 h2 h3 => h.pending h1 h2 (hworks h3)⟩

theorem reported_mono {n : Nat} {v : Value} (h : w.Reported n v) (hemitted : w.emitted ⊆ w'.emitted)
    (hreported : w.reported ⊆ w'.reported) :
    w'.Reported n v := by
  obtain ⟨⟨n', businessError, hin, hle, hsuccess, checkResult, hr⟩, businessError', checkResult', hr', hv⟩ := h
  exact ⟨⟨n', businessError, hemitted hin, hle, hsuccess, checkResult, hreported hr⟩, businessError', checkResult', hreported hr', hv⟩

/-- A step that reports nothing, emits nothing and completes nothing: each session is one from before whose work is not executed by it, or
it satisfies what is asked of a session. -/
theorem Checks.stay (h : Checks w) (hemits : w'.emits = w.emits) (hemitted : w'.emitted = w.emitted) (hreported : w'.reported = w.reported)
    (hmembers : w'.members.checkResult = w.members.checkResult) (hcompleted : w'.completed = w.completed)
    (hstarted : ∀ e ∈ w.completed, ∀ kind, (e.1, .SESSION_CHECK_VERSION, kind) ∈ w'.started →
      (e.1, .SESSION_CHECK_VERSION, kind) ∈ w.started)
    (hsessions : ∀ e ∈ w'.sessions, e ∈ w.sessions ∧ ((e.1, .executed) ∈ w'.works → (e.1, .executed) ∈ w.works) ∨
      Spares e.2.doWorker ∧ (IsCheck e.2 → Waits w' e)) : Checks w' where
  emits := by rw [hemits, hreported]; exact h.emits
  emitted := by rw [hemitted, hreported]; exact h.emitted
  latest := by rw [hreported, hmembers]; exact h.latest
  spares := fun e he => (hsessions e he).elim (fun hold => h.spares e hold.1) fun hnew => hnew.1
  waits := by
    intro e he hcheck
    rcases hsessions e he with ⟨hold, hworks⟩ | ⟨-, hnew⟩
    · exact (h.waits e hold hcheck).mono (hemitted ▸ List.Subset.refl _) hworks
    · exact hnew hcheck
  answered := by
    rw [hcompleted]
    intro e he kind settlement v hkind hsettlement hresult
    exact reported_mono (h.answered e he kind settlement v (hstarted e he kind hkind) hsettlement hresult) (hemitted ▸ List.Subset.refl _)
      (hreported ▸ List.Subset.refl _)

/-- A work that is executed after its stage was set is that one, or one that was executed. -/
theorem mem_setStage {works : List (Nat × Stage)} {n object : Nat} {stage : Stage}
    (h : (n, .executed) ∈ works.map fun e => if e.1 = object then (object, stage) else e) :
    n = object ∧ stage = .executed ∨ n ≠ object ∧ (n, .executed) ∈ works := by
  obtain ⟨e, he, heq⟩ := List.mem_map.mp h
  split_ifs at heq with hobject
  · cases heq
    exact .inl ⟨rfl, rfl⟩
  · subst heq
    exact .inr ⟨hobject, he⟩

theorem waits_of_new {kind : Kind} {params : SessionParams} {doWorker : DoWorker UpdateClient σ}
    (hneed : params.type = .SESSION_CHECK_VERSION → params.isNeedBusinessError = false) {n : Nat}
    (hworks : (n, .executed) ∉ w.works) (hcheck : IsCheck { object := n, kind, params, doWorker }) :
    Waits w (n, { object := n, kind, params, doWorker }) :=
  ⟨hneed hcheck, fun hdone => absurd hdone (by simp), fun _ _ hexecuted => absurd hexecuted hworks⟩

theorem checks_call (hl : Ledger w) (h : Checks w) {m : Method UpdateClient σ} (hm : m ∈ UpdateClient.methods) (args : List Value)
    (hids : (w.call m args).created < SESSION_IDS) : Checks (w.call m args) := by
  obtain ⟨hcheckResult, hspec⟩ := methods_spec hm args w.members
  rcases call_cases w m args with ⟨members, hmembers, heq⟩ | ⟨members, request, hmembers, heq⟩
  · rw [heq]
    rw [hmembers] at hcheckResult
    exact h.stay rfl rfl rfl hcheckResult rfl (fun _ _ _ hkind => hkind) fun e he => .inl ⟨he, id⟩
  · rw [hmembers] at hcheckResult hspec
    obtain ⟨hspares, hneed⟩ := hspec request rfl
    have hn : Numbered { w with members } := { hl.toNumbered with }
    rw [heq] at hids ⊢
    rcases startSession_cases { w with members } request args with ⟨kind, -, heq⟩ | ⟨kind, heq⟩
    · rw [heq] at hids ⊢
      rw [addSession_eq hn hids]
      refine h.stay rfl rfl rfl hcheckResult rfl (fun e he kind' hkind => ?_) fun e he => ?_
      · -- what was completed is not what is started
        rcases List.mem_append.mp hkind with hkind | hkind
        · exact hkind
        · have hnumber := congrArg Prod.fst (List.mem_singleton.mp hkind)
          have hbegun := hl.mem_started (.inr (List.mem_map_of_mem he))
          exact absurd hbegun (hl.not_begun (by simp only at hnumber; omega))
      · rcases List.mem_append.mp he with he | he
        · refine .inl ⟨he, fun hexecuted => ?_⟩
          simpa using hexecuted
        · rw [List.mem_singleton.mp he]
          refine .inr ⟨hspares, waits_of_new hneed fun hexecuted => ?_⟩
          rcases List.mem_append.mp hexecuted with hexecuted | hexecuted
          · exact hl.not_begun (Nat.lt_succ_self w.created) (hl.mem_started (.inl (List.mem_map_of_mem hexecuted)))
          · cases List.mem_singleton.mp hexecuted
    · rw [heq] at hids ⊢
      rw [removeSession_addSession hn hids]
      exact h.stay rfl rfl rfl hcheckResult rfl (fun _ _ _ hkind => hkind) fun e he => .inl ⟨he, id⟩

theorem checks_on (hl : Ledger w) (h : Checks w) (args : List Value) (hids : (w.on args).created < SESSION_IDS) : Checks (w.on args) := by
  rcases on_cases w args with heq | ⟨info, handler, -, heq⟩ | ⟨kind, params, heq⟩
  · rwa [heq]
  · rw [heq] at hids ⊢
    rw [addSession_eq hl.toNumbered hids]
    refine h.stay rfl rfl rfl rfl rfl (fun _ _ _ hkind => hkind) fun e he => ?_
    rcases List.mem_append.mp he with he | he
    · exact .inl ⟨he, id⟩
    · rw [List.mem_singleton.mp he]
      exact .inr ⟨fun _ _ _ _ => rfl, fun hcheck => absurd hcheck (by simp [IsCheck])⟩
  · rw [heq] at hids ⊢
    rw [removeSession_addSession hl.toNumbered hids]
    exact h.stay rfl rfl rfl rfl rfl (fun _ _ _ hkind => hkind) fun e he => .inl ⟨he, id⟩

/-- Only sessions go. -/
theorem Checks.of_subset (h : Checks w) (hsessions : w'.sessions ⊆ w.sessions) (hworks : w'.works = w.works) (hemits : w'.emits = w.emits)
    (hemitted : w'.emitted = w.emitted) (hreported : w'.reported = w.reported) (hmembers : w'.members = w.members)
    (hcompleted : w'.completed = w.completed) (hstarted : w'.started = w.started) : Checks w' :=
  h.stay hemits hemitted hreported (by rw [hmembers]) hcompleted (fun _ _ _ hkind => hstarted ▸ hkind) fun _ he =>
    .inl ⟨hsessions he, fun hexecuted => hworks ▸ hexecuted⟩

/-- A session is written to, and its work comes to another stage. -/
theorem Checks.write (hn : Numbered w) (h : Checks w) {object : Nat} {s : Session UpdateClient σ} (hs : (object, s) ∈ w.sessions)
    {f : Session UpdateClient σ → Session UpdateClient σ} {stage : Stage} (hspares : Spares (f s).doWorker)
    (hwaits : IsCheck (f s) → Waits ((w.write object f).setStage object stage) (object, f s)) :
    Checks ((w.write object f).setStage object stage) := by
  refine h.stay rfl rfl rfl rfl rfl (fun _ _ _ hkind => hkind) fun e' he' => ?_
  obtain ⟨e, he, rfl⟩ := List.mem_map.mp he'
  split_ifs with hobject
  · have hkey : e.1 = object := (hn.object e he).symm.trans hobject
    have hsame : e.2 = s := by
      have h1 := (SortedMap.find_eq_some_iff (k := e.1) (v := e.2) hn.sorted).mpr he
      rw [hkey, (SortedMap.find_eq_some_iff hn.sorted).mpr hs] at h1
      exact (Option.some.inj h1).symm
    rw [hkey, hsame]
    exact .inr ⟨hspares, hwaits⟩
  · refine .inl ⟨he, fun hexecuted => ?_⟩
    rcases mem_setStage hexecuted with ⟨hkey, -⟩ | ⟨-, hexecuted⟩
    · exact absurd ((hn.object e he).trans hkey) hobject
    · exact hexecuted

theorem checks_executeWork (hn : Numbered w) (h : Checks w) {object : Nat} {s : Session UpdateClient σ} (hs : (object, s) ∈ w.sessions)
    (kit : IUpdateService σ) : Checks (w.executeWork kit s) := by
  have hobject : s.object = object := hn.object (object, s) hs
  have hspares := h.spares (object, s) hs
  cases hrun : (s.doWorker kit w.members s.businessError).run w.service with
  | mk out service =>
    have hcheckResult := hspares kit w.members s.businessError w.service
    rw [StateT.run] at hrun
    rw [hrun] at hcheckResult
    have hmembers : Checks { w with members := out.2.1, service } :=
      h.stay rfl rfl rfl hcheckResult rfl (fun _ _ _ hkind => hkind) fun e he => .inl ⟨he, id⟩
    have hnumbered : Numbered { w with members := out.2.1, service } := { hn with }
    rw [executeWork_eq w kit s hrun, hobject]
    refine hmembers.write hnumbered hs hspares fun hcheck => ?_
    have hold := h.waits (object, s) hs hcheck
    have hfilled : filled s out.2.2 = s.businessError := by
      rw [filled, hold.need]
      rfl
    refine ⟨hold.need, fun hdone => ?_, fun hwaiting hsuccess hexecuted => ?_⟩
    · simp only [Session.onExecuted, hfilled]
      exact hold.done hdone
    · -- it is accepted and waits, or it was not accepted
      rcases mem_setStage hexecuted with ⟨-, hstage⟩ | ⟨hne, -⟩
      · intro haccepted
        have htype : s.params.type = .SESSION_CHECK_VERSION := hcheck
        have hcheck' : s.isAsyncCompleteWork = true := by simp [Session.isAsyncCompleteWork, htype]
        simp only [Session.onExecuted] at haccepted
        rw [hcheck', haccepted] at hstage
        simp at hstage
      · exact absurd rfl hne

/-- The script is told: with a result only by a check that was told of an end without an error. -/
theorem reported_of_notifyJS (h : Checks w) {object : Nat} {s : Session UpdateClient σ} (hs : (object, s) ∈ w.sessions)
    (hcheck : IsCheck s) (hexecuted : (object, .executed) ∈ w.works) {settlement : Settlement} {v : Value}
    (hsettlement : s.notifyJS UpdateClient.updater w.members = some settlement) (hresult : settlement.result = some v) :
    w.Reported object v := by
  have hwaits := h.waits (object, s) hs hcheck
  -- an error would have been told instead
  obtain ⟨hnone, hvalue⟩ : ClientHelper.buildBusinessError s.getBusinessError = none ∧
      v = ClientHelper.buildCheckResult w.members.checkResult := by
    have htype : UpdateClient.updater.getUpdateResult s.params.type w.members =
        some (ClientHelper.buildCheckResult w.members.checkResult) := by rw [show s.params.type = .SESSION_CHECK_VERSION from hcheck]; rfl
    unfold Session.notifyJS at hsettlement
    rw [htype] at hsettlement
    cases herror : ClientHelper.buildBusinessError s.getBusinessError with
    | none =>
      refine ⟨rfl, ?_⟩
      cases hkind : s.kind <;> simp only [hkind, herror] at hsettlement
      all_goals cases hsettlement
      all_goals
        simp only [Settlement.result, Option.some.injEq] at hresult
        exact hresult.symm
    | some error =>
      cases hkind : s.kind <;> simp only [hkind, herror] at hsettlement
      all_goals cases hsettlement
      all_goals simp [Settlement.result] at hresult
  have hno : s.getBusinessError.errorNum = INT_CALL_SUCCESS := by
    by_contra hne
    simp [ClientHelper.buildBusinessError, ClientHelper.isErrorExist, hne] at hnone
  have haccepted : s.workResult = INT_CALL_SUCCESS := by
    by_contra hne
    simp [Session.getBusinessError, Session.isWorkExecuteSuccess, hne] at hno
  have hsuccess : s.businessError.errorNum = INT_CALL_SUCCESS := by
    simpa [Session.getBusinessError, Session.isWorkExecuteSuccess, haccepted] using hno
  have hcomplete : s.asyncExecuteComplete = true := by
    by_contra hwaiting
    exact hwaits.pending (by simpa using hwaiting) hsuccess hexecuted haccepted
  obtain ⟨n, hemitted, hle⟩ := hwaits.done hcomplete
  obtain ⟨checkResult, hreported⟩ := h.emitted _ hemitted
  refine ⟨⟨n, s.businessError, hemitted, hle, hsuccess, checkResult, hreported⟩, ?_⟩
  rcases h.latest with hnil | ⟨businessError, hlatest⟩
  · rw [hnil] at hreported
    cases hreported
  · exact ⟨businessError, w.members.checkResult, hlatest, hvalue⟩

theorem checks_completeWork (hl : Ledger w) (h : Checks w) {object : Nat} {s : Session UpdateClient σ} (hs : (object, s) ∈ w.sessions)
    (hexecuted : w.works.lookup object = some .executed) : Checks (w.completeWork UpdateClient.updater (object, s)) := by
  have hn := hl.toNumbered
  have hobject : s.object = object := hn.object (object, s) hs
  have hmem : (object, .executed) ∈ w.works := by
    obtain ⟨l, l', hworks, -⟩ := List.lookup_eq_some_iff.mp hexecuted
    simp [hworks]
  obtain ⟨s', hs', hstarted⟩ := hl.alive object (List.mem_map_of_mem hmem)
  have hsame : s' = s := by
    have h1 := (SortedMap.find_eq_some_iff hn.sorted).mpr hs'
    rw [(SortedMap.find_eq_some_iff hn.sorted).mpr hs] at h1
    exact (Option.some.inj h1).symm
  subst hsame
  have hcompleted : Checks { w with
      works := w.works.filter fun work => work.1 ≠ object
      completed := w.completed ++ [(object, s'.notifyJS UpdateClient.updater w.members)] } := {
    emits := h.emits
    emitted := h.emitted
    latest := h.latest
    spares := h.spares
    waits := fun e he hcheck => (h.waits e he hcheck).mono (List.Subset.refl _) fun hin => List.mem_of_mem_filter hin
    answered := by
      intro e he kind settlement v hkind hsettlement hresult
      rcases List.mem_append.mp he with he | he
      · exact h.answered e he kind settlement v hkind hsettlement hresult
      · rw [List.mem_singleton.mp he] at hkind hsettlement ⊢
        have hcheck : IsCheck s' := by
          have heq := List.inj_on_of_nodup_map hl.once hstarted hkind rfl
          exact congrArg (fun x => x.2.1) heq
        exact reported_of_notifyJS h hs hcheck hmem hsettlement hresult }
  unfold World.completeWork
  simp only [hobject]
  split
  · exact hcompleted.of_subset (List.Subset.refl _) rfl rfl rfl rfl rfl rfl rfl
  · exact hcompleted.of_subset List.filter_sublist.subset rfl rfl rfl rfl rfl rfl rfl

/-- The end of a check is emitted to the checks that are on their way. -/
theorem checks_emit (hn : Numbered w) (h : Checks w) {businessError : BusinessError} (hemits : businessError ∈ w.emits) :
    Checks { w.emit businessError with emits := w.emits.erase businessError } where
  emits := fun e he => h.emits e (List.mem_of_mem_erase he)
  emitted := by
    intro e he
    rcases List.mem_append.mp he with he | he
    · exact h.emitted e he
    · rw [List.mem_singleton.mp he]
      exact h.emits businessError hemits
  latest := h.latest
  spares := by
    intro e' he'
    obtain ⟨e, he, rfl⟩ := List.mem_map.mp he'
    split_ifs <;> exact h.spares e he
  waits := by
    intro e' he' hcheck
    obtain ⟨e, he, rfl⟩ := List.mem_map.mp he'
    split_ifs at hcheck ⊢ with htype
    · refine ⟨(h.waits e he hcheck).need, fun _ => ⟨w.created, ?_, hn.bound e he⟩, fun hwaiting => absurd hwaiting (by
        simp [Session.onAsyncComplete])⟩
      exact List.mem_append_right _ List.mem_cons_self
    · exact (h.waits e he hcheck).mono (List.subset_append_left _ _) id
  answered := fun e he kind settlement v hkind hsettlement hresult =>
    reported_mono (h.answered e he kind settlement v hkind hsettlement hresult) (List.subset_append_left _ _) (List.Subset.refl _)

theorem checks_notifyCheckVersionDone (h : Checks w) (businessError : BusinessError) (checkResult : CheckResult) :
    Checks { w with
      members := { w.members with checkResult }
      emits := w.emits ++ [businessError]
      reported := w.reported ++ [(businessError, checkResult)] } where
  emits := by
    intro e he
    rcases List.mem_append.mp he with he | he
    · exact (h.emits e he).imp fun _ hr => List.mem_append_left _ hr
    · rw [List.mem_singleton.mp he]
      exact ⟨checkResult, List.mem_append_right _ List.mem_cons_self⟩
  emitted := fun e he => (h.emitted e he).imp fun _ hr => List.mem_append_left _ hr
  latest := .inr ⟨businessError, List.mem_append_right _ List.mem_cons_self⟩
  spares := h.spares
  waits := fun e he hcheck => (h.waits e he hcheck).mono (List.Subset.refl _) id
  answered := fun e he kind settlement v hkind hsettlement hresult =>
    reported_mono (h.answered e he kind settlement v hkind hsettlement hresult) (List.Subset.refl _) (List.subset_append_left _ _)

theorem checks_step {a : Action UpdateClient σ} (hl : Ledger w) (h : Checks w) (ha : a.uses UpdateClient.methods)
    (hs : w.step UpdateClient.updater kit a = some w') (hids : w'.created < SESSION_IDS) : Checks w' := by
  have hn := hl.toNumbered
  cases (moves_of_step hs).2 with
  | call m args => exact checks_call hl h ha args hids
  | on args => exact checks_on hl h args hids
  | off args =>
    rcases off_cases w args with heq | ⟨info, handle, heq⟩
    · rwa [heq]
    · rw [heq]
      exact h.of_subset List.filter_sublist.subset rfl rfl rfl rfl rfl rfl rfl
  | @execute object e hwork hfind =>
    obtain ⟨he, rfl⟩ := (find_eq_some_iff hn).mp hfind
    exact checks_executeWork hn h he kit
  | @wake object e hwork hfind hdone =>
    obtain ⟨he, rfl⟩ := (find_eq_some_iff hn).mp hfind
    have hsame : w.setStage e.1 .executed = (w.write e.1 id).setStage e.1 .executed := by
      simp [World.write]
    rw [hsame]
    refine h.write hn he (h.spares e he) fun hcheck => ?_
    have hold := h.waits e he hcheck
    exact ⟨hold.need, hold.done, fun hwaiting => absurd hdone (by simp [show e.2.asyncExecuteComplete = false from hwaiting])⟩
  | @timeout object e hwork hfind hwaiting =>
    obtain ⟨he, rfl⟩ := (find_eq_some_iff hn).mp hfind
    refine h.write hn he (h.spares e he) fun hcheck => ?_
    have hold := h.waits e he hcheck
    refine ⟨hold.need, fun hdone => absurd hwaiting (by simp [show e.2.asyncExecuteComplete = true from hdone]), fun _ hsuccess => ?_⟩
    exact absurd hsuccess (show ¬ INT_TIME_OUT = INT_CALL_SUCCESS by decide)
  | @complete object e hframe hwork hfind =>
    obtain ⟨he, rfl⟩ := (find_eq_some_iff hn).mp hfind
    exact checks_completeWork hl h he hwork
  | completed => exact h.of_subset List.filter_sublist.subset rfl rfl rfl rfl rfl rfl rfl
  | notifyCheckVersionDone businessError checkResult => exact checks_notifyCheckVersionDone h businessError checkResult
  | emit _ hemits => exact checks_emit hn h hemits
  | publishTo =>
    unfold World.publishToJS
    split_ifs <;> exact h.of_subset (List.Subset.refl _) rfl rfl rfl rfl rfl rfl rfl
  | otherSession | serviceMoves | deadSession | notifyEvent | publish | published | publishNext | deadIterator =>
    exact h.of_subset (List.Subset.refl _) rfl rfl rfl rfl rfl rfl rfl

end CheckCallsAux

open SessionsAux CheckCallsAux

/-- A check of a script is answered with a result only when, after the call, the end of a check without an error was emitted, and the
result is one that the service has reported. A check that nothing is reported for is not answered with a result. -/
theorem check_answered_by_report {service : σ} {info : UpgradeInfo}
    (h : Leads (World.step UpdateClient.updater kit) (fun _ a => a.uses UpdateClient.methods)
      (World.fresh service { upgradeInfo := info }) w) (hids : w.created < SESSION_IDS) :
    ∀ e ∈ w.completed, ∀ kind settlement v, (e.1, .SESSION_CHECK_VERSION, kind) ∈ w.started → e.2 = some settlement →
      settlement.result = some v → w.Reported e.1 v := by
  have hinv := h.invariant (I := fun w => w.created < SESSION_IDS → Ledger w ∧ Checks w)
    (fun _ => ⟨ledger_fresh service _, checks_fresh service _⟩) ?_ hids
  · exact hinv.2.answered
  intro w a w' hI ha hs hids'
  obtain ⟨hledger, hchecks⟩ := hI (Nat.lt_of_le_of_lt (created_le_of_step hs) hids')
  exact ⟨ledger_step hledger hs hids', checks_step hledger hchecks ha hs hids'⟩

/-- A check is asked for, a new version is reported, and the promise is resolved. -/
def newVersion : List (Action UpdateClient Unit) :=
  [.call UpdateClient.checkNewVersion [], .execute 1, .notifyCheckVersionDone {} { isExistNewVersion := true }, .emit {}, .wake 1,
    .complete 1]

/-- The result was reported. -/
theorem check_answered_by_report_new : ∃ w : World UpdateClient Unit, ∃ e ∈ w.completed, ∃ settlement v, e.2 = some settlement ∧
    settlement.result = some v ∧ w.Reported e.1 v := by
  have hfollows : (follow (World.step UpdateClient.updater willing) (fun _ _ => true) newVersion
      (World.fresh () { upgradeInfo := {} })).any (fun w => w.created == 1 && w.started == [(1, .SESSION_CHECK_VERSION, .promise)] &&
        w.completed.any fun e => e.1 == 1 && (e.2.bind Settlement.result).isSome) = true := by decide
  obtain ⟨w, hleads, hw⟩ := @Leads.exists_of_follow_all _ _ _ (fun _ a => a.uses UpdateClient.methods) _ _ _ (by
    simp [newVersion, Action.uses, UpdateClient.methods]) hfollows
  simp only [Bool.and_eq_true, beq_iff_eq, List.any_eq_true, Option.isSome_iff_exists, Option.bind_eq_some_iff] at hw
  obtain ⟨⟨hcreated, hstarted⟩, e, he, hobject, v, settlement, hsettlement, hresult⟩ := hw
  have hids : w.created < SESSION_IDS := hcreated ▸ by decide
  have hkind : (e.1, SessionType.SESSION_CHECK_VERSION, Kind.promise) ∈ w.started := by simp [hstarted, hobject]
  exact ⟨w, e, he, settlement, v, hsettlement, hresult,
    check_answered_by_report hleads hids e he _ settlement v hkind hsettlement hresult⟩

end UpdateEngine.Ipc.Client
