import UpdateEngine.Client.Sessions
import Mathlib.Data.List.Basic

/-!
# Steps of an updater

What a step of an updater can do, and the map of the sessions while the numbers have not come round.
-/

namespace UpdateEngine.Ipc.Client.SessionsAux

variable {μ σ : Type} {U : IUpdater μ} {kit : IUpdateService σ} {w w' : World μ σ}

/-! ## Sessions by their numbers -/

/-- The sessions are numbered as they were made. -/
structure Numbered (w : World μ σ) : Prop where
  sessionId : w.sessionId = w.created
  sorted : SortedMap.Sorted w.sessions
  object : ∀ e ∈ w.sessions, e.2.object = e.1
  bound : ∀ e ∈ w.sessions, e.1 ≤ w.created

theorem find_eq_some_iff (h : Numbered w) {object : Nat} {e : Nat × Session μ σ} :
    w.find object = some e ↔ e ∈ w.sessions ∧ e.1 = object := by
  unfold World.find
  constructor
  · intro he
    have hmem := List.mem_of_find?_eq_some he
    refine ⟨hmem, ?_⟩
    rw [← h.object e hmem]
    simpa using List.find?_some he
  · rintro ⟨hmem, rfl⟩
    cases hf : w.sessions.find? fun e' => e'.2.object = e.1 with
    | none =>
      have hno := List.find?_eq_none.mp hf e hmem
      exact absurd (h.object e hmem) (by simpa using hno)
    | some e' =>
      have hmem' := List.mem_of_find?_eq_some hf
      have hkey : e'.1 = e.1 := by
        rw [← h.object e' hmem']
        simpa using List.find?_some hf
      have h1 := (SortedMap.find_eq_some_iff (k := e'.1) (v := e'.2) h.sorted).mpr hmem'
      have h2 := (SortedMap.find_eq_some_iff (k := e.1) (v := e.2) h.sorted).mpr hmem
      rw [hkey, h2] at h1
      exact congrArg some (Prod.ext hkey (Option.some.inj h1).symm)

/-- A session just made has the greatest number, and goes to the end of the map. -/
theorem addSession_eq (h : Numbered w) (hids : w.created + 1 < SESSION_IDS) (kind : Kind) (params : SessionParams)
    (doWorker : DoWorker μ σ) :
    w.addSession (w.newSession kind params doWorker) = { w with
      sessionId := w.created + 1, created := w.created + 1,
      sessions := w.sessions ++ [(w.created + 1, { object := w.created + 1, kind, params, doWorker })] } := by
  have hnumber : (w.sessionId + 1) % SESSION_IDS = w.created + 1 := by rw [h.sessionId, Nat.mod_eq_of_lt hids]
  unfold World.addSession World.newSession
  rw [hnumber, SortedMap.emplace_of_lt fun e he => Nat.lt_succ_of_le (h.bound e he)]

theorem numbered_addSession (h : Numbered w) (hids : w.created + 1 < SESSION_IDS) (kind : Kind) (params : SessionParams)
    (doWorker : DoWorker μ σ) : Numbered (w.addSession (w.newSession kind params doWorker)) := by
  rw [addSession_eq h hids]
  refine ⟨rfl, ?_, ?_, ?_⟩
  · refine List.pairwise_append.mpr ⟨h.sorted, List.pairwise_singleton .., ?_⟩
    intro e he e' he'
    rw [List.mem_singleton.mp he']
    exact Nat.lt_succ_of_le (h.bound e he)
  · intro e he
    rcases List.mem_append.mp he with he | he
    · exact h.object e he
    · rw [List.mem_singleton.mp he]
  · intro e he
    rcases List.mem_append.mp he with he | he
    · exact Nat.le_succ_of_le (h.bound e he)
    · rw [List.mem_singleton.mp he]

/-- What is left of the sessions is still in its order. -/
theorem Numbered.filter (h : Numbered w) (p : Nat × Session μ σ → Bool) : Numbered { w with sessions := w.sessions.filter p } :=
  ⟨h.sessionId, List.Pairwise.filter _ h.sorted, fun e he => h.object e (List.mem_of_mem_filter he),
    fun e he => h.bound e (List.mem_of_mem_filter he)⟩

/-- What is kept of a session that is written to. -/
def Same (s s' : Session μ σ) : Prop := s'.object = s.object ∧ s'.kind = s.kind ∧ s'.params = s.params

/-- The sessions are written to, and stay where they are. -/
theorem Numbered.map (h : Numbered w) {f : Nat × Session μ σ → Nat × Session μ σ} (hf : ∀ e, (f e).1 = e.1 ∧ Same e.2 (f e).2) :
    Numbered { w with sessions := w.sessions.map f } := by
  refine ⟨h.sessionId, ?_, ?_, ?_⟩
  · refine List.pairwise_map.mpr (h.sorted.imp fun {e e'} hlt => ?_)
    rw [(hf e).1, (hf e').1]
    exact hlt
  · intro e' he'
    obtain ⟨e, he, rfl⟩ := List.mem_map.mp he'
    rw [(hf e).1, (hf e).2.1]
    exact h.object e he
  · intro e' he'
    obtain ⟨e, he, rfl⟩ := List.mem_map.mp he'
    rw [(hf e).1]
    exact h.bound e he

/-- A session that could not start its work leaves nothing but its number. -/
theorem removeSession_addSession (h : Numbered w) (hids : w.created + 1 < SESSION_IDS) (kind : Kind) (params : SessionParams)
    (doWorker : DoWorker μ σ) :
    (w.addSession (w.newSession kind params doWorker)).removeSession (w.newSession kind params doWorker).1 =
      { w with sessionId := w.created + 1, created := w.created + 1 } := by
  have hnumber : (w.newSession kind params doWorker).1 = w.created + 1 := by
    simp only [World.newSession, h.sessionId, Nat.mod_eq_of_lt hids]
  have hold : w.sessions.filter (fun e => e.1 ≠ w.created + 1) = w.sessions := by
    refine List.filter_eq_self.mpr fun e he => ?_
    have := h.bound e he
    simp only [ne_eq, decide_not, Bool.not_eq_eq_eq_not, Bool.not_true, decide_eq_false_iff_not]
    omega
  rw [hnumber, addSession_eq h hids, World.removeSession, SortedMap.erase, List.filter_append, hold]
  simp

/-! ## What a step can do -/

/-- What starting a session comes to: its work is queued, or it is dropped. -/
theorem startSession_cases (w : World μ σ) (request : Request μ σ) (args : List Value) :
    (∃ kind, (∀ info handler, kind ≠ .listener info handler) ∧ w.startSession request args =
      { w.addSession (w.newSession kind request.params request.doWorker) with
        works := w.works ++ [(w.created + 1, .queued)], started := w.started ++ [(w.created + 1, request.params.type, kind)] }) ∨
    ∃ kind, w.startSession request args = (w.addSession (w.newSession kind request.params request.doWorker)).removeSession
      (w.newSession kind request.params request.doWorker).1 := by
  unfold World.startSession
  cases hkind : World.kindOf request args with
  | none => exact .inr ⟨_, rfl⟩
  | some kind =>
    refine .inl ⟨kind, ?_, rfl⟩
    rintro info handler rfl
    unfold World.kindOf at hkind
    split at hkind
    · cases hkind
    · split at hkind <;> cases hkind

/-- What a subscription comes to: nothing, a new listener, or one that is dropped. -/
theorem on_cases (w : World μ σ) (args : List Value) :
    w.on args = w ∨
    (∃ info handler, w.hasSessionOfHandle info (.function handler) = false ∧ w.on args =
      w.addSession (w.newSession (.listener info handler) { type := .SESSION_SUBSCRIBE, callbackStartIndex := 1 } World.noWorker)) ∨
    ∃ kind params, w.on args =
      (w.addSession (w.newSession kind params World.noWorker)).removeSession (w.newSession kind params World.noWorker).1 := by
  unfold World.on
  split
  · rename_i arg handler rest
    split
    · rename_i eventClassifyInfo hinfo
      split_ifs with hhas
      · exact .inl rfl
      · cases handler with
        | function id => exact .inr (.inl ⟨eventClassifyInfo, id, by simpa using hhas, rfl⟩)
        | _ => exact .inr (.inr ⟨_, _, rfl⟩)
    · exact .inl rfl
  · exact .inl rfl

/-- What an unsubscription comes to. -/
theorem off_cases (w : World μ σ) (args : List Value) : w.off args = w ∨ ∃ info handle, w.off args = w.unsubscribe info handle := by
  unfold World.off
  split
  · exact .inl rfl
  · split
    · exact .inr ⟨_, _, rfl⟩
    · exact .inr ⟨_, _, rfl⟩
    · exact .inl rfl

/-- What a call comes to: the members change, and a session may be started. -/
theorem call_cases (w : World μ σ) (m : Method μ σ) (args : List Value) :
    (∃ members, m args w.members = (members, none) ∧ w.call m args = { w with members }) ∨
    ∃ members request, m args w.members = (members, some request) ∧ w.call m args = { w with members }.startSession request args := by
  unfold World.call
  cases hm : m args w.members with
  | mk members request => cases request with
    | none => exact .inl ⟨members, rfl, rfl⟩
    | some request => exact .inr ⟨members, request, rfl, rfl⟩

/-- What becomes of an error that a worker was given to fill. -/
def filled (s : Session μ σ) (businessError : BusinessError) : BusinessError :=
  if s.params.isNeedBusinessError then businessError else s.businessError

/-- What the execution of a work comes to. -/
theorem executeWork_eq (w : World μ σ) (kit : IUpdateService σ) (s : Session μ σ) {workResult : CallResult} {members : μ}
    {businessError : BusinessError} {service : σ}
    (h : (s.doWorker kit w.members s.businessError).run w.service = ((workResult, members, businessError), service)) :
    w.executeWork kit s = ({ w with members, service }.write s.object (·.onExecuted workResult (filled s businessError))).setStage s.object
      (if s.isAsyncCompleteWork && workResult = INT_CALL_SUCCESS then .waiting else .executed) := by
  unfold World.executeWork
  rw [h]
  rfl

theorem map_fst_setStage (works : List (Nat × Stage)) (object : Nat) (stage : Stage) :
    (works.map fun e => if e.1 = object then (object, stage) else e).map Prod.fst = works.map Prod.fst := by
  rw [List.map_map]
  refine List.map_congr_left fun e _ => ?_
  simp only [Function.comp_apply]
  split_ifs with he
  · exact he.symm
  · rfl

theorem mem_works_of_lookup {object : Nat} {stage : Stage} (h : w.works.lookup object = some stage) :
    object ∈ w.works.map Prod.fst := by
  obtain ⟨l, l', hworks, -⟩ := List.lookup_eq_some_iff.mp h
  simp [hworks]

/-- The steps. A thread that works on a session that is gone is at fault, and so is the loop of a publication that stands at one. -/
inductive Moves (U : IUpdater μ) (kit : IUpdateService σ) (w : World μ σ) : Action μ σ → World μ σ → Prop
  | call (m : Method μ σ) (args : List Value) : w.runsScript = true → Moves U kit w (.call m args) (w.call m args)
  | on (args : List Value) : w.runsScript = true → Moves U kit w (.on args) (w.on args)
  | off (args : List Value) : w.runsScript = true → Moves U kit w (.off args) (w.off args)
  | otherSession : w.runsScript = true →
    Moves U kit w .otherSession { w with sessionId := (w.sessionId + 1) % SESSION_IDS, created := w.created + 1 }
  | serviceMoves (s : σ) : Moves U kit w (.serviceMoves s) { w with service := s }
  | execute {object : Nat} {e : Nat × Session μ σ} : w.works.lookup object = some .queued → w.find object = some e →
    Moves U kit w (.execute object) (w.executeWork kit e.2)
  | wake {object : Nat} {e : Nat × Session μ σ} : w.works.lookup object = some .waiting → w.find object = some e →
    e.2.asyncExecuteComplete = true → Moves U kit w (.wake object) (w.setStage object .executed)
  | timeout {object : Nat} {e : Nat × Session μ σ} : w.works.lookup object = some .waiting → w.find object = some e →
    e.2.asyncExecuteComplete = false → Moves U kit w (.timeout object) ((w.write object (·.onTimeOut)).setStage object .executed)
  | complete {object : Nat} {e : Nat × Session μ σ} : w.frame = .idle → w.works.lookup object = some .executed →
    w.find object = some e → Moves U kit w (.complete object) (w.completeWork U e)
  | completed {object : Nat} {e : Nat × Session μ σ} : w.frame = .inCallback object → w.find object = some e →
    Moves U kit w .completed { w.removeSession e.1 with frame := .idle }
  | deadSession {a : Action μ σ} {object : Nat} : object ∈ w.works.map Prod.fst ∨ w.frame = .inCallback object → w.find object = none →
    Moves U kit w a { w with fault := some (.deadSession object) }
  | notifyCheckVersionDone (businessError : BusinessError) (checkResult : CheckResult) :
    Moves U kit w (.notifyCheckVersionDone businessError checkResult)
      { w with
        members := U.setCheckResult checkResult w.members
        emits := w.emits ++ [businessError]
        reported := w.reported ++ [(businessError, checkResult)] }
  | emit {businessError : BusinessError} : w.isLocked = false → businessError ∈ w.emits →
    Moves U kit w (.emit businessError) { w.emit businessError with emits := w.emits.erase businessError }
  | notifyEvent (eventInfo : EventInfo) :
    Moves U kit w (.notifyEvent eventInfo) { w with posted := w.posted ++ [eventInfo], noticed := w.noticed ++ [eventInfo] }
  | publish {i : Nat} {eventInfo : EventInfo} : w.frame = .idle → w.posted[i]? = some eventInfo →
    Moves U kit w (.publish i) { w with
      posted := w.posted.eraseIdx i
      published := w.published ++ [eventInfo]
      frame := .publishing eventInfo (w.sessions.head?.map Prod.fst) }
  | published {eventInfo : EventInfo} : w.frame = .publishing eventInfo none → Moves U kit w .publishNext { w with frame := .idle }
  | publishTo {eventInfo : EventInfo} {iter : Nat} {s : Session μ σ} : w.frame = .publishing eventInfo (some iter) →
    SortedMap.find w.sessions iter = some s → Moves U kit w .publishNext (w.publishToJS eventInfo (iter, s))
  | publishNext {eventInfo : EventInfo} {iter object : Nat} {s : Session μ σ} : w.frame = .inHandler eventInfo iter object →
    SortedMap.find w.sessions iter = some s → s.object = object →
    Moves U kit w .publishNext { w with frame := .publishing eventInfo (w.next iter) }
  | deadIterator {eventInfo : EventInfo} {iter object : Nat} : w.frame = .inHandler eventInfo iter object →
    (∀ s, SortedMap.find w.sessions iter = some s → s.object ≠ object) →
    Moves U kit w .publishNext { w with fault := some (.deadIterator object) }

/-- A step is one of these, and follows no fault. -/
theorem moves_of_step {a : Action μ σ} (hs : w.step U kit a = some w') : w.fault = none ∧ Moves U kit w a w' := by
  simp only [World.step] at hs
  split at hs
  · cases hs
  rename_i hfault
  refine ⟨by simpa using hfault, ?_⟩
  cases a with
  | call m args =>
    simp only [Option.ite_none_right_eq_some, Option.some.injEq] at hs
    exact hs.2 ▸ .call m args hs.1
  | on args =>
    simp only [Option.ite_none_right_eq_some, Option.some.injEq] at hs
    exact hs.2 ▸ .on args hs.1
  | off args =>
    simp only [Option.ite_none_right_eq_some, Option.some.injEq] at hs
    exact hs.2 ▸ .off args hs.1
  | otherSession =>
    simp only [Option.ite_none_right_eq_some, Option.some.injEq] at hs
    exact hs.2 ▸ .otherSession hs.1
  | serviceMoves s =>
    cases hs
    exact .serviceMoves s
  | execute object =>
    simp only at hs
    split at hs
    · rename_i hwork
      cases hfind : w.find object with
      | some e =>
        rw [hfind] at hs
        cases hs
        exact .execute hwork hfind
      | none =>
        rw [hfind] at hs
        cases hs
        exact .deadSession (.inl (mem_works_of_lookup hwork)) hfind
    · cases hs
  | wake object =>
    simp only at hs
    split at hs
    · rename_i hwork
      cases hfind : w.find object with
      | some e =>
        rw [hfind] at hs
        simp only [Option.ite_none_right_eq_some, Option.some.injEq] at hs
        exact hs.2 ▸ .wake hwork hfind hs.1
      | none =>
        rw [hfind] at hs
        cases hs
        exact .deadSession (.inl (mem_works_of_lookup hwork)) hfind
    · cases hs
  | timeout object =>
    simp only at hs
    split at hs
    · rename_i hwork
      cases hfind : w.find object with
      | some e =>
        rw [hfind] at hs
        simp only [Option.ite_none_left_eq_some, Option.some.injEq] at hs
        exact hs.2 ▸ .timeout hwork hfind (by simpa using hs.1)
      | none =>
        rw [hfind] at hs
        cases hs
        exact .deadSession (.inl (mem_works_of_lookup hwork)) hfind
    · cases hs
  | complete object =>
    simp only at hs
    split at hs
    · rename_i hframe hwork
      cases hfind : w.find object with
      | some e =>
        rw [hfind] at hs
        cases hs
        exact .complete hframe hwork hfind
      | none =>
        rw [hfind] at hs
        cases hs
        exact .deadSession (.inl (mem_works_of_lookup hwork)) hfind
    · cases hs
  | completed =>
    simp only at hs
    split at hs
    · rename_i object hframe
      cases hfind : w.find object with
      | some e =>
        rw [hfind] at hs
        cases hs
        exact .completed hframe hfind
      | none =>
        rw [hfind] at hs
        cases hs
        exact .deadSession (.inr hframe) hfind
    · cases hs
  | notifyCheckVersionDone businessError checkResult =>
    cases hs
    exact .notifyCheckVersionDone businessError checkResult
  | emit businessError =>
    simp only [Bool.and_eq_true, Bool.not_eq_eq_eq_not, Bool.not_true, List.contains_iff_mem, Option.ite_none_right_eq_some,
      Option.some.injEq] at hs
    exact hs.2 ▸ .emit hs.1.1 hs.1.2
  | notifyEvent eventInfo =>
    cases hs
    exact .notifyEvent eventInfo
  | publish i =>
    simp only at hs
    split at hs
    · rename_i eventInfo hframe hposted
      cases hs
      exact .publish hframe hposted
    · cases hs
  | publishNext =>
    simp only at hs
    split at hs
    · rename_i hframe
      cases hs
      exact .published hframe
    · rename_i eventInfo iter hframe
      obtain ⟨s, hfind, rfl⟩ := Option.map_eq_some_iff.mp hs
      exact .publishTo hframe hfind
    · rename_i eventInfo iter object hframe
      cases hfind : SortedMap.find w.sessions iter with
      | some s =>
        rw [hfind] at hs
        simp only at hs
        split_ifs at hs with hobject
        · cases hs
          exact .publishNext hframe hfind hobject
        · cases hs
          refine .deadIterator hframe fun s' hs' => ?_
          rw [hfind] at hs'
          cases hs'
          exact hobject
      | none =>
        rw [hfind] at hs
        cases hs
        exact .deadIterator hframe (by simp [hfind])
    · cases hs

theorem created_le_call (w : World μ σ) (m : Method μ σ) (args : List Value) : w.created ≤ (w.call m args).created := by
  rcases call_cases w m args with ⟨members, -, heq⟩ | ⟨members, request, -, heq⟩
  · exact (congrArg World.created heq).ge
  · rw [heq]
    rcases startSession_cases { w with members } request args with ⟨kind, -, heq⟩ | ⟨kind, heq⟩
    · exact heq ▸ Nat.le_succ _
    · exact heq ▸ Nat.le_succ _

theorem created_le_on (w : World μ σ) (args : List Value) : w.created ≤ (w.on args).created := by
  rcases on_cases w args with heq | ⟨info, handler, -, heq⟩ | ⟨kind, params, heq⟩
  · exact (congrArg World.created heq).ge
  · exact heq ▸ Nat.le_succ _
  · exact heq ▸ Nat.le_succ _

theorem created_off (w : World μ σ) (args : List Value) : (w.off args).created = w.created := by
  rcases off_cases w args with heq | ⟨info, handle, heq⟩
  · rw [heq]
  · rw [heq, World.unsubscribe]

theorem created_completeWork (w : World μ σ) (e : Nat × Session μ σ) : (w.completeWork U e).created = w.created := by
  unfold World.completeWork
  cases e.2.kind <;> rfl

theorem created_publishToJS (w : World μ σ) (eventInfo : EventInfo) (e : Nat × Session μ σ) :
    (w.publishToJS eventInfo e).created = w.created := by
  unfold World.publishToJS
  split_ifs <;> rfl

/-- The count of the sessions does not go back. -/
theorem created_le_of_step {a : Action μ σ} (hs : w.step U kit a = some w') : w.created ≤ w'.created := by
  cases (moves_of_step hs).2 with
  | call m args => exact created_le_call w m args
  | on args => exact created_le_on w args
  | off args => exact (created_off w args).ge
  | otherSession => exact Nat.le_succ _
  | complete => exact (created_completeWork w _).ge
  | publishTo => exact (created_publishToJS w _ _).ge
  | serviceMoves | execute | wake | timeout | completed | deadSession | notifyCheckVersionDone | emit | notifyEvent | publish
  | published | publishNext | deadIterator => exact Nat.le_refl _

/-! ## What becomes of the map -/

/-- The class of events and the handler of a listener. -/
def subscription (s : Session μ σ) : Option (Int32 × Nat) :=
  match s.kind with
  | .listener info handler => some (info.eventClassify, handler)
  | _ => none

theorem subscription_of_same {s s' : Session μ σ} (h : Same s s') : subscription s' = subscription s := by
  unfold subscription
  rw [h.2.1]

/-- What a step makes of the map: nothing, what the script unsubscribes goes, a session goes that is answered, a session comes that
subscribes no handler which is subscribed, or sessions are written to. -/
inductive Shift (w : World μ σ) (a : Action μ σ) (w' : World μ σ) : Prop
  | same : w'.sessions = w.sessions → Shift w a w'
  | unsubscribed {args : List Value} : a = .off args → w'.sessions.Sublist w.sessions → Shift w a w'
  | answered : (∀ eventInfo iter object, w'.frame ≠ .inHandler eventInfo iter object) → w'.sessions.Sublist w.sessions → Shift w a w'
  | made {s : Session μ σ} : w.runsScript = true →
    (∀ e ∈ w.sessions, ∀ x, subscription e.2 = some x → subscription s ≠ some x) →
    w'.sessions = w.sessions ++ [(w.created + 1, s)] → Shift w a w'
  | written {f : Nat × Session μ σ → Nat × Session μ σ} : (∀ e, (f e).1 = e.1 ∧ Same e.2 (f e).2) →
    w'.sessions = w.sessions.map f → Shift w a w'

theorem shift_write {a : Action μ σ} (object : Nat) {f : Session μ σ → Session μ σ} (hf : ∀ s, Same s (f s))
    (h : w'.sessions = (w.write object f).sessions) : Shift w a w' := by
  refine .written (fun e => ?_) h
  split_ifs
  · exact ⟨rfl, hf e.2⟩
  · exact ⟨rfl, rfl, rfl, rfl⟩

theorem subscription_ne_of_hasSessionOfHandle {info : EventClassifyInfo} {handler : Nat}
    (h : w.hasSessionOfHandle info (.function handler) = false) {e : Nat × Session μ σ} (he : e ∈ w.sessions) :
    subscription e.2 ≠ some (info.eventClassify, handler) := by
  have hno : World.isSameListener info handler e.2 = false := by
    simp only [World.hasSessionOfHandle, List.any_eq_false] at h
    simpa using h e he
  unfold World.isSameListener at hno
  unfold subscription
  cases hkind : e.2.kind with
  | listener info' handler' =>
    simp only [hkind, Bool.and_eq_false_iff, decide_eq_false_iff_not] at hno
    simp only [ne_eq, Option.some.injEq, Prod.mk.injEq, not_and_or]
    exact hno
  | async _ | asyncNoCallback | promise => simp

theorem shift_call (h : Numbered w) (hscript : w.runsScript = true) (m : Method μ σ) (args : List Value)
    (hids : (w.call m args).created < SESSION_IDS) : Shift w (.call m args) (w.call m args) := by
  rcases call_cases w m args with ⟨members, -, heq⟩ | ⟨members, request, -, heq⟩
  · rw [heq]
    exact .same rfl
  · have hmembers : Numbered { w with members } := { h with }
    rw [heq] at hids ⊢
    rcases startSession_cases { w with members } request args with ⟨kind, hkind, heq⟩ | ⟨kind, heq⟩
    · rw [heq] at hids ⊢
      refine .made hscript (fun e he x hx => ?_) (congrArg World.sessions (addSession_eq hmembers hids kind _ _))
      unfold subscription
      cases kind with
      | listener info handler => exact absurd rfl (hkind info handler)
      | async _ | asyncNoCallback | promise => simp
    · rw [heq] at hids ⊢
      rw [removeSession_addSession hmembers hids]
      exact .same rfl

theorem shift_on (h : Numbered w) (hscript : w.runsScript = true) (args : List Value) (hids : (w.on args).created < SESSION_IDS) :
    Shift w (.on args) (w.on args) := by
  rcases on_cases w args with heq | ⟨info, handler, hnew, heq⟩ | ⟨kind, params, heq⟩
  · rw [heq]
    exact .same rfl
  · rw [heq] at hids ⊢
    refine .made hscript (fun e he x hx hx' => ?_) (congrArg World.sessions (addSession_eq h hids _ _ _))
    cases hx'
    exact subscription_ne_of_hasSessionOfHandle hnew he hx
  · rw [heq] at hids ⊢
    rw [removeSession_addSession h hids]
    exact .same rfl

theorem shift_of_step {a : Action μ σ} (h : Numbered w) (hs : w.step U kit a = some w') (hids : w'.created < SESSION_IDS) :
    Shift w a w' := by
  cases (moves_of_step hs).2 with
  | call m args hscript => exact shift_call h hscript m args hids
  | on args hscript => exact shift_on h hscript args hids
  | off args =>
    rcases off_cases w args with heq | ⟨info, handle, heq⟩
    · rw [heq]
      exact .same rfl
    · rw [heq]
      exact .unsubscribed rfl List.filter_sublist
  | @execute object e =>
    cases hrun : (e.2.doWorker kit w.members e.2.businessError).run w.service with
    | mk out service =>
      rw [executeWork_eq w kit e.2 hrun]
      exact shift_write (f := (·.onExecuted out.1 (filled e.2 out.2.2))) e.2.object (fun s => ⟨rfl, rfl, rfl⟩) rfl
  | @timeout object => exact shift_write (f := (·.onTimeOut)) object (fun s => ⟨rfl, rfl, rfl⟩) rfl
  | complete hframe =>
    unfold World.completeWork
    split
    · exact .same rfl
    · exact .answered (by simp [World.removeSession, hframe]) List.filter_sublist
  | completed => exact .answered (by simp) List.filter_sublist
  | emit =>
    refine .written (fun e => ?_) rfl
    split_ifs
    · exact ⟨rfl, rfl, rfl, rfl⟩
    · exact ⟨rfl, rfl, rfl, rfl⟩
  | publishTo =>
    unfold World.publishToJS
    split_ifs <;> exact .same rfl
  | otherSession | serviceMoves | wake | deadSession | notifyCheckVersionDone | notifyEvent | publish | published | publishNext
  | deadIterator => exact .same rfl

end UpdateEngine.Ipc.Client.SessionsAux
