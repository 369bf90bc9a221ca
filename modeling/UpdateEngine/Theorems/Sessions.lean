import UpdateEngine.Client.Updaters
import UpdateEngine.Lemmas.SessionsAux
import UpdateEngine.Concurrent.System
import Mathlib.Data.List.Nodup
import Mathlib.Data.List.Perm.Basic

/-!
# Every call is answered once

As long as the numbers of sessions have not come round, each call of a script that starts a session gets one answer, by its promise or by
its callback, when its work is completed, and no thread uses a session that is gone.
-/

namespace UpdateEngine.Ipc.Client

open Concurrent

variable {μ σ : Type} {U : IUpdater μ} {kit : IUpdateService σ} {w w' : World μ σ}

/-- An updater before the first call. -/
def World.fresh (service : σ) (members : μ) : World μ σ := { service, members }

/-- The states an updater comes to, from its first. -/
abbrev World.Reached (U : IUpdater μ) (kit : IUpdateService σ) (service : σ) (members : μ) : World μ σ → Prop :=
  Leads (World.step U kit) (fun _ _ => True) (World.fresh service members)

/-- What a session may tell the script when it completes. A promise is left alone when there is no value to resolve it with. -/
def Answers : Kind → Option Settlement → Prop
  | .promise, some (.resolved _) | .promise, some (.rejected _) | .promise, none => True
  | .async _, some (.called _ _) => True
  | .asyncNoCallback, none => True
  | _, _ => False

/-- A listener, which has no work. -/
def Session.IsListener (s : Session μ σ) : Prop := ∃ info handler, s.kind = .listener info handler

/-- The account of the calls. Each work that was started is still to be done or was completed, and not both; a work to be done finds its
session; what was completed was answered as its kind asks; and but for listeners no session is kept that is done with. -/
structure World.Accounted (w : World μ σ) : Prop where
  once : (w.started.map Prod.fst).Nodup
  account : (w.started.map Prod.fst).Perm (w.works.map Prod.fst ++ w.completed.map Prod.fst)
  alive : ∀ work ∈ w.works, ∃ s, w.find work.1 = some (work.1, s) ∧ (work.1, s.params.type, s.kind) ∈ w.started
  answered : ∀ e ∈ w.completed, ∃ type kind, (e.1, type, kind) ∈ w.started ∧ Answers kind e.2
  kept : ∀ e ∈ w.sessions, e.2.IsListener ∨ e.2.object ∈ w.works.map Prod.fst ∨ w.frame = .inCallback e.2.object
  sound : ∀ object, w.fault ≠ some (.deadSession object)

namespace SessionsAux

/-! ## The account, step by step -/

/-- The account, and what it rests on: the numbers, and that the session in whose callback the script is has been completed. -/
structure Ledger (w : World μ σ) : Prop extends Numbered w where
  once : (w.started.map Prod.fst).Nodup
  account : (w.started.map Prod.fst).Perm (w.works.map Prod.fst ++ w.completed.map Prod.fst)
  begun : ∀ e ∈ w.started, e.1 ≤ w.created ∧ ∀ info handler, e.2.2 ≠ .listener info handler
  alive : ∀ n ∈ w.works.map Prod.fst, ∃ s, (n, s) ∈ w.sessions ∧ (n, s.params.type, s.kind) ∈ w.started
  answered : ∀ e ∈ w.completed, ∃ type kind, (e.1, type, kind) ∈ w.started ∧ Answers kind e.2
  kept : ∀ e ∈ w.sessions, e.2.IsListener ∨ e.1 ∈ w.works.map Prod.fst ∨ w.frame = .inCallback e.1
  callback : ∀ n, w.frame = .inCallback n → n ∈ w.completed.map Prod.fst ∧ ∃ s, (n, s) ∈ w.sessions ∧ ¬ s.IsListener
  sound : ∀ object, w.fault ≠ some (.deadSession object)

theorem ledger_fresh (service : σ) (members : μ) : Ledger (World.fresh service members : World μ σ) where
  sessionId := rfl
  sorted := List.Pairwise.nil
  object := by simp [World.fresh]
  bound := by simp [World.fresh]
  once := List.nodup_nil
  account := List.Perm.refl _
  begun := by simp [World.fresh]
  alive := by simp [World.fresh]
  answered := by simp [World.fresh]
  kept := by simp [World.fresh]
  callback := by simp [World.fresh]
  sound := by simp [World.fresh]

/-- A work that is to be done is one that was started. -/
theorem Ledger.mem_started (h : Ledger w) {n : Nat} (hn : n ∈ w.works.map Prod.fst ∨ n ∈ w.completed.map Prod.fst) :
    n ∈ w.started.map Prod.fst := by
  rw [h.account.mem_iff, List.mem_append]
  exact hn

/-- No work is both to be done and completed. -/
theorem Ledger.not_both (h : Ledger w) {n : Nat} (hn : n ∈ w.completed.map Prod.fst) : n ∉ w.works.map Prod.fst := by
  have hnodup := h.account.nodup_iff.mp h.once
  intro hworks
  exact (List.nodup_append.mp hnodup).2.2 n hworks n hn rfl

/-- A number that is not given yet is that of no work. -/
theorem Ledger.not_begun (h : Ledger w) {n : Nat} (hn : w.created < n) : n ∉ w.started.map Prod.fst := by
  intro hmem
  obtain ⟨e, he, rfl⟩ := List.mem_map.mp hmem
  exact absurd (h.begun e he).1 (Nat.not_le.mpr hn)

/-- A session is made elsewhere. -/
theorem Ledger.otherSession (h : Ledger w) : Ledger { w with sessionId := w.created + 1, created := w.created + 1 } :=
  { h with
    sessionId := rfl
    bound := fun e he => Nat.le_succ_of_le (h.bound e he)
    begun := fun e he => ⟨Nat.le_succ_of_le (h.begun e he).1, (h.begun e he).2⟩ }

/-- A listener subscribes. -/
theorem Ledger.listener (h : Ledger w) (hids : w.created + 1 < SESSION_IDS) (info : EventClassifyInfo) (handler : Nat)
    (params : SessionParams) (doWorker : DoWorker μ σ) :
    Ledger (w.addSession (w.newSession (.listener info handler) params doWorker)) := by
  have hnumbered := numbered_addSession h.toNumbered hids (.listener info handler) params doWorker
  rw [addSession_eq h.toNumbered hids] at hnumbered ⊢
  exact { hnumbered with
    once := h.once
    account := h.account
    begun := fun e he => ⟨Nat.le_succ_of_le (h.begun e he).1, (h.begun e he).2⟩
    alive := fun n hn => (h.alive n hn).imp fun s hs => ⟨List.mem_append_left _ hs.1, hs.2⟩
    answered := h.answered
    kept := by
      intro e he
      rcases List.mem_append.mp he with he | he
      · exact h.kept e he
      · rw [List.mem_singleton.mp he]
        exact .inl ⟨info, handler, rfl⟩
    callback := fun n hn => ⟨(h.callback n hn).1, (h.callback n hn).2.imp fun s hs => ⟨List.mem_append_left _ hs.1, hs.2⟩⟩
    sound := h.sound }

/-- A work is started. -/
theorem Ledger.start (h : Ledger w) (hids : w.created + 1 < SESSION_IDS) {kind : Kind} (params : SessionParams)
    (doWorker : DoWorker μ σ) (hkind : ∀ info handler, kind ≠ .listener info handler) :
    Ledger { w.addSession (w.newSession kind params doWorker) with
      works := w.works ++ [(w.created + 1, .queued)], started := w.started ++ [(w.created + 1, params.type, kind)] } := by
  have hnumbered := numbered_addSession h.toNumbered hids kind params doWorker
  rw [addSession_eq h.toNumbered hids] at hnumbered ⊢
  exact { hnumbered with
    once := by
      rw [List.map_append]
      exact List.Nodup.append h.once (List.nodup_singleton _)
        (List.disjoint_singleton.mpr (h.not_begun (Nat.lt_succ_self w.created)))
    account := by
      have := List.perm_iff_count.mp h.account
      refine List.perm_iff_count.mpr fun n => ?_
      simp only [List.map_append, List.count_append] at this ⊢
      have := this n
      simp only [List.map_cons, List.map_nil]
      omega
    begun := by
      intro e he
      rcases List.mem_append.mp he with he | he
      · exact ⟨Nat.le_succ_of_le (h.begun e he).1, (h.begun e he).2⟩
      · rw [List.mem_singleton.mp he]
        exact ⟨Nat.le_refl _, hkind⟩
    alive := by
      intro n hn
      rw [List.map_append, List.mem_append] at hn
      rcases hn with hn | hn
      · exact (h.alive n hn).imp fun s hs => ⟨List.mem_append_left _ hs.1, List.mem_append_left _ hs.2⟩
      · rw [List.mem_singleton.mp hn]
        exact ⟨_, List.mem_append_right _ List.mem_cons_self, List.mem_append_right _ List.mem_cons_self⟩
    answered := fun e he => (h.answered e he).imp fun type => Exists.imp fun kind hk => ⟨List.mem_append_left _ hk.1, hk.2⟩
    kept := by
      intro e he
      rcases List.mem_append.mp he with he | he
      · exact (h.kept e he).imp_right (Or.imp_left fun hwork => by
          rw [List.map_append]
          exact List.mem_append_left _ hwork)
      · rw [List.mem_singleton.mp he]
        exact .inr (.inl (by simp))
    callback := fun n hn => ⟨(h.callback n hn).1, (h.callback n hn).2.imp fun s hs => ⟨List.mem_append_left _ hs.1, hs.2⟩⟩
    sound := h.sound }

/-- Sessions are written to, and works come to another stage. -/
theorem Ledger.write (h : Ledger w) {f : Nat × Session μ σ → Nat × Session μ σ} (hf : ∀ e, (f e).1 = e.1 ∧ Same e.2 (f e).2)
    {works : List (Nat × Stage)} (hworks : works.map Prod.fst = w.works.map Prod.fst) :
    Ledger { w with sessions := w.sessions.map f, works } := by
  have hnumbered := h.toNumbered.map hf
  have hmem {n : Nat} {s : Session μ σ} (hs : (n, s) ∈ w.sessions) : ∃ s', (n, s') ∈ w.sessions.map f ∧ Same s s' := by
    refine ⟨(f (n, s)).2, List.mem_map.mpr ⟨(n, s), hs, ?_⟩, (hf (n, s)).2⟩
    exact Prod.ext (hf (n, s)).1 rfl
  exact { hnumbered with
    once := h.once
    account := by
      rw [hworks]
      exact h.account
    begun := h.begun
    alive := by
      intro n hn
      obtain ⟨s, hs, hstarted⟩ := h.alive n (hworks ▸ hn)
      obtain ⟨s', hs', -, hkind, hparams⟩ := hmem hs
      exact ⟨s', hs', by rwa [hkind, hparams]⟩
    answered := h.answered
    kept := by
      intro e' he'
      obtain ⟨e, he, rfl⟩ := List.mem_map.mp he'
      rw [hworks, (hf e).1, Session.IsListener, (hf e).2.2.1]
      exact h.kept e he
    callback := by
      intro n hn
      obtain ⟨hdone, s, hs, hlistener⟩ := h.callback n hn
      obtain ⟨s', hs', -, hkind, -⟩ := hmem hs
      refine ⟨hdone, s', hs', ?_⟩
      rw [Session.IsListener, hkind]
      exact hlistener
    sound := h.sound }

/-- Listeners are taken out. -/
theorem Ledger.unsubscribe (h : Ledger w) (eventClassifyInfo : EventClassifyInfo) (handle : Option Nat) :
    Ledger (w.unsubscribe eventClassifyInfo handle) := by
  have hstays {n : Nat} {s : Session μ σ} (hs : (n, s) ∈ w.sessions) (hlistener : ¬ s.IsListener) :
      (n, s) ∈ (w.unsubscribe eventClassifyInfo handle).sessions := by
    refine List.mem_filter.mpr ⟨hs, ?_⟩
    cases hkind : s.kind with
    | listener info handler => exact absurd ⟨info, handler, hkind⟩ hlistener
    | async _ | asyncNoCallback | promise => cases handle <;> simp [World.isSubscribeEvent, World.isSameListener, hkind]
  exact { h.toNumbered.filter _ with
    once := h.once
    account := h.account
    begun := h.begun
    alive := by
      intro n hn
      obtain ⟨s, hs, hstarted⟩ := h.alive n hn
      refine ⟨s, hstays hs ?_, hstarted⟩
      rintro ⟨info, handler, hkind⟩
      exact (h.begun _ hstarted).2 info handler hkind
    answered := h.answered
    kept := fun e he => h.kept e (List.mem_of_mem_filter he)
    callback := fun n hn => ⟨(h.callback n hn).1, (h.callback n hn).2.imp fun s hs => ⟨hstays hs.1 hs.2, hs.2⟩⟩
    sound := h.sound }

/-- The session in whose callback the script is goes. -/
theorem Ledger.removeSession (h : Ledger w) {n : Nat} (hframe : w.frame = .inCallback n) :
    Ledger { w.removeSession n with frame := .idle } := by
  have hdone := (h.callback n hframe).1
  exact { h.toNumbered.filter _ with
    once := h.once
    account := h.account
    begun := h.begun
    alive := by
      intro n' hn'
      obtain ⟨s, hs, hstarted⟩ := h.alive n' hn'
      refine ⟨s, List.mem_filter.mpr ⟨hs, ?_⟩, hstarted⟩
      have : n' ≠ n := by
        rintro rfl
        exact h.not_both hdone hn'
      simpa using this
    answered := h.answered
    kept := by
      intro e he
      obtain ⟨he, hne⟩ := List.mem_filter.mp he
      rcases h.kept e he with hk | hk | hk
      · exact .inl hk
      · exact .inr (.inl hk)
      · rw [hframe] at hk
        cases hk
        simp at hne
    callback := by simp
    sound := h.sound }

/-- A work that is completed was to be done, once. -/
theorem perm_of_completed (h : Ledger w) {n : Nat} (hn : n ∈ w.works.map Prod.fst) :
    (w.works.map Prod.fst).Perm (n :: (w.works.filter fun work => work.1 ≠ n).map Prod.fst) := by
  have hnodup : (w.works.map Prod.fst).Nodup := (List.nodup_append.mp (h.account.nodup_iff.mp h.once)).1
  have hmem (n' : Nat) : n' ∈ (w.works.filter fun work => work.1 ≠ n).map Prod.fst ↔ n' ∈ w.works.map Prod.fst ∧ n' ≠ n := by
    simp only [List.mem_map, List.mem_filter, ne_eq, decide_not, Bool.not_eq_eq_eq_not, Bool.not_true, decide_eq_false_iff_not]
    constructor
    · rintro ⟨e, ⟨he, hne⟩, rfl⟩
      exact ⟨⟨e, he, rfl⟩, hne⟩
    · rintro ⟨⟨e, he, rfl⟩, hne⟩
      exact ⟨e, ⟨he, hne⟩, rfl⟩
  refine (List.perm_ext_iff_of_nodup hnodup ?_).mpr fun n' => ?_
  · refine List.nodup_cons.mpr ⟨fun hin => ((hmem n).mp hin).2 rfl, ?_⟩
    exact hnodup.sublist (List.filter_sublist.map _)
  · rw [List.mem_cons, hmem]
    by_cases heq : n' = n
    · subst heq
      simp [hn]
    · simp [heq]

/-- A work is completed, and the script is told. -/
theorem Ledger.complete (h : Ledger w) {n : Nat} {s : Session μ σ} (hframe : w.frame = .idle) (hn : n ∈ w.works.map Prod.fst)
    (hs : (n, s) ∈ w.sessions) {settlement : Option Settlement} (hanswers : Answers s.kind settlement) :
    Ledger { w with
      works := w.works.filter fun work => work.1 ≠ n
      completed := w.completed ++ [(n, settlement)]
      frame := .inCallback n } := by
  have hperm := perm_of_completed h hn
  obtain ⟨s', hs', hstarted⟩ := h.alive n hn
  have heq : s' = s := by
    have h1 := (SortedMap.find_eq_some_iff h.sorted).mpr hs'
    rw [(SortedMap.find_eq_some_iff h.sorted).mpr hs] at h1
    exact (Option.some.inj h1).symm
  subst heq
  exact { h.toNumbered with
    once := h.once
    account := by
      have haccount := List.perm_iff_count.mp h.account
      have hcount := List.perm_iff_count.mp hperm
      refine List.perm_iff_count.mpr fun n' => ?_
      have h1 := haccount n'
      have h2 := hcount n'
      simp only [List.map_append, List.count_append, List.map_cons, List.map_nil] at h1 h2 ⊢
      rw [List.count_cons] at h2
      rw [List.count_singleton]
      omega
    begun := h.begun
    alive := by
      intro n' hn'
      obtain ⟨e, he, rfl⟩ := List.mem_map.mp hn'
      exact h.alive e.1 (List.mem_map_of_mem (List.mem_of_mem_filter he))
    answered := by
      intro e he
      rcases List.mem_append.mp he with he | he
      · exact h.answered e he
      · rw [List.mem_singleton.mp he]
        exact ⟨_, _, hstarted, hanswers⟩
    kept := by
      intro e he
      rcases h.kept e he with hk | hk | hk
      · exact .inl hk
      · rcases List.mem_cons.mp (hperm.mem_iff.mp hk) with rfl | hk
        · exact .inr (.inr rfl)
        · exact .inr (.inl hk)
      · rw [hframe] at hk
        cases hk
    callback := by
      intro n' hn'
      cases hn'
      refine ⟨by simp, s', hs, ?_⟩
      rintro ⟨info, handler, hkind⟩
      exact (h.begun _ hstarted).2 info handler hkind
    sound := h.sound }

theorem answers_notifyJS {members : μ} {s : Session μ σ} (hs : ¬ s.IsListener) : Answers s.kind (s.notifyJS U members) := by
  cases hkind : s.kind with
  | listener info handler => exact absurd ⟨info, handler, hkind⟩ hs
  | asyncNoCallback => simp [Session.notifyJS, hkind, Answers]
  | promise =>
    simp only [Session.notifyJS, hkind]
    split
    · trivial
    · cases U.getUpdateResult s.params.type members <;> trivial
  | async callback =>
    simp only [Session.notifyJS, hkind]
    split <;> trivial

/-- The thread of the script turns to a frame that is no callback. -/
theorem Ledger.turn (h : Ledger w) (hframe : ∀ n, w.frame ≠ .inCallback n) {frame : Frame} (hframe' : ∀ n, frame ≠ .inCallback n) :
    Ledger { w with frame } :=
  { h with
    kept := fun e he => (h.kept e he).imp_right fun hk => hk.elim .inl fun hk => absurd hk (hframe e.1)
    callback := fun n hn => absurd hn (hframe' n) }

theorem Ledger.dropped (h : Ledger w) (hids : w.created + 1 < SESSION_IDS) (kind : Kind) (params : SessionParams)
    (doWorker : DoWorker μ σ) :
    Ledger ((w.addSession (w.newSession kind params doWorker)).removeSession (w.newSession kind params doWorker).1) := by
  rw [removeSession_addSession h.toNumbered hids]
  exact h.otherSession

theorem Ledger.startSession (h : Ledger w) (request : Request μ σ) (args : List Value)
    (hids : (w.startSession request args).created < SESSION_IDS) : Ledger (w.startSession request args) := by
  rcases startSession_cases w request args with ⟨kind, hkind, heq⟩ | ⟨kind, heq⟩
  · rw [heq] at hids ⊢
    exact h.start hids request.params request.doWorker hkind
  · rw [heq] at hids ⊢
    exact h.dropped hids kind request.params request.doWorker

theorem Ledger.call (h : Ledger w) (m : Method μ σ) (args : List Value) (hids : (w.call m args).created < SESSION_IDS) :
    Ledger (w.call m args) := by
  rcases call_cases w m args with ⟨members, -, heq⟩ | ⟨members, request, -, heq⟩
  · rw [heq]
    exact { h with }
  · rw [heq] at hids ⊢
    have hmembers : Ledger { w with members } := { h with }
    exact hmembers.startSession request args hids

theorem Ledger.on (h : Ledger w) (args : List Value) (hids : (w.on args).created < SESSION_IDS) : Ledger (w.on args) := by
  rcases on_cases w args with heq | ⟨info, handler, -, heq⟩ | ⟨kind, params, heq⟩
  · rwa [heq]
  · rw [heq] at hids ⊢
    exact h.listener hids info handler _ _
  · rw [heq] at hids ⊢
    exact h.dropped hids kind params _

theorem Ledger.off (h : Ledger w) (args : List Value) : Ledger (w.off args) := by
  rcases off_cases w args with heq | ⟨info, handle, heq⟩
  · rwa [heq]
  · rw [heq]
    exact h.unsubscribe info handle

theorem Ledger.writeAt (h : Ledger w) (object : Nat) {f : Session μ σ → Session μ σ} (hf : ∀ s, Same s (f s)) :
    Ledger (w.write object f) := by
  refine h.write (fun e => ?_) rfl
  split_ifs
  · exact ⟨rfl, hf e.2⟩
  · exact ⟨rfl, rfl, rfl, rfl⟩

theorem Ledger.setStage (h : Ledger w) (object : Nat) (stage : Stage) : Ledger (w.setStage object stage) := by
  have hall := h.write (f := id) (fun e => ⟨rfl, rfl, rfl, rfl⟩) (map_fst_setStage w.works object stage)
  rwa [List.map_id] at hall

theorem Ledger.executeWork (h : Ledger w) (kit : IUpdateService σ) (s : Session μ σ) : Ledger (w.executeWork kit s) := by
  cases hrun : (s.doWorker kit w.members s.businessError).run w.service with
  | mk out service =>
    have hmembers : Ledger { w with members := out.2.1, service } := { h with }
    rw [executeWork_eq w kit s hrun]
    exact (hmembers.writeAt s.object (f := (·.onExecuted out.1 (filled s out.2.2))) fun s => ⟨rfl, rfl, rfl⟩).setStage _ _

/-- The session of a work is there. -/
theorem Ledger.find_isSome (h : Ledger w) {object : Nat} (hobject : object ∈ w.works.map Prod.fst) :
    ∃ s, w.find object = some (object, s) ∧ (object, s) ∈ w.sessions ∧ (object, s.params.type, s.kind) ∈ w.started := by
  obtain ⟨s, hs, hstarted⟩ := h.alive object hobject
  exact ⟨s, (find_eq_some_iff h.toNumbered).mpr ⟨hs, rfl⟩, hs, hstarted⟩

theorem Ledger.completeWork (h : Ledger w) (hframe : w.frame = .idle) {n : Nat} {s : Session μ σ} (hn : n ∈ w.works.map Prod.fst)
    (hs : (n, s) ∈ w.sessions) (hstarted : (n, s.params.type, s.kind) ∈ w.started) : Ledger (w.completeWork U (n, s)) := by
  have hlistener : ¬ s.IsListener := by
    rintro ⟨info, handler, hkind⟩
    exact (h.begun _ hstarted).2 info handler hkind
  have hobject : s.object = n := h.object (n, s) hs
  have hcompleted := h.complete hframe hn hs (@answers_notifyJS _ _ U w.members s hlistener)
  unfold World.completeWork
  simp only [hobject]
  cases hkind : s.kind with
  | async callback => exact hcompleted
  | asyncNoCallback | promise | listener _ _ =>
    have := hcompleted.removeSession rfl
    rwa [← hframe] at this

theorem Ledger.publishToJS (h : Ledger w) (hframe : ∀ n, w.frame ≠ .inCallback n) (eventInfo : EventInfo) (e : Nat × Session μ σ) :
    Ledger (w.publishToJS eventInfo e) := by
  unfold World.publishToJS
  split_ifs
  · have hturn : Ledger { w with frame := .inHandler eventInfo e.1 e.2.object } := h.turn hframe (by simp)
    exact { hturn with }
  · exact h.turn hframe (by simp)

theorem ledger_step {a : Action μ σ} (h : Ledger w) (hs : w.step U kit a = some w') (hids : w'.created < SESSION_IDS) : Ledger w' := by
  cases (moves_of_step hs).2 with
  | call m args => exact h.call m args hids
  | on args => exact h.on args hids
  | off args => exact h.off args
  | otherSession =>
    have hnumber : (w.sessionId + 1) % SESSION_IDS = w.created + 1 := by rw [h.sessionId, Nat.mod_eq_of_lt hids]
    rw [hnumber]
    exact h.otherSession
  | execute => exact h.executeWork kit _
  | wake => exact h.setStage _ .executed
  | timeout => exact (@Ledger.writeAt _ _ _ h _ (·.onTimeOut) fun s => ⟨rfl, rfl, rfl⟩).setStage _ .executed
  | @complete object e hframe hwork hfind =>
    have hmem := mem_works_of_lookup hwork
    obtain ⟨s, hfind', hsession, hstarted⟩ := h.find_isSome hmem
    rw [hfind'] at hfind
    cases hfind
    exact h.completeWork hframe hmem hsession hstarted
  | @completed object e hframe hfind =>
    obtain ⟨-, rfl⟩ := (find_eq_some_iff h.toNumbered).mp hfind
    exact h.removeSession hframe
  | @deadSession _ object hobject hfind =>
    -- a session that is worked on is there
    have hthere : ∃ s, (object, s) ∈ w.sessions := by
      rcases hobject with hwork | hframe
      · exact (h.alive object hwork).imp fun s hs => hs.1
      · exact (h.callback object hframe).2.imp fun s hs => hs.1
    obtain ⟨s, hsession⟩ := hthere
    rw [(find_eq_some_iff h.toNumbered).mpr ⟨hsession, rfl⟩] at hfind
    cases hfind
  | @emit businessError =>
    have hwritten : Ledger { w with sessions := w.sessions.map fun e =>
        if e.2.isAsyncCompleteWork then (e.1, e.2.onAsyncComplete businessError) else e } := h.write (fun e => by
      split_ifs
      · exact ⟨rfl, rfl, rfl, rfl⟩
      · exact ⟨rfl, rfl, rfl, rfl⟩) rfl
    exact { hwritten with }
  | @publish i eventInfo hframe =>
    have hturn : Ledger { w with frame := .publishing eventInfo (w.sessions.head?.map Prod.fst) } :=
      h.turn (by simp [hframe]) (by simp)
    exact { hturn with }
  | published hframe => exact h.turn (by simp [hframe]) (by simp)
  | publishTo hframe => exact h.publishToJS (by simp [hframe]) _ _
  | publishNext hframe => exact h.turn (by simp [hframe]) (by simp)
  | deadIterator => exact { h with sound := by simp }
  | serviceMoves | notifyCheckVersionDone | notifyEvent => exact { h with }

theorem ledger_of_reached {service : σ} {members : μ} (h : World.Reached U kit service members w) (hids : w.created < SESSION_IDS) :
    Ledger w := by
  refine h.invariant (I := fun w => w.created < SESSION_IDS → Ledger w) (fun _ => ledger_fresh service members) ?_ hids
  intro w a w' hI _ hs hids'
  exact ledger_step (hI (Nat.lt_of_le_of_lt (created_le_of_step hs) hids')) hs hids'

theorem Ledger.accounted (h : Ledger w) : w.Accounted where
  once := h.once
  account := h.account
  alive := by
    intro work hwork
    obtain ⟨s, hfind, -, hstarted⟩ := h.find_isSome (List.mem_map_of_mem hwork)
    exact ⟨s, hfind, hstarted⟩
  answered := h.answered
  kept := by
    intro e he
    rw [h.object e he]
    exact h.kept e he
  sound := h.sound

/-! ## No call is left without an answer -/

/-- A state in which works can be brought to their end. -/
structure Open (w : World μ σ) : Prop extends Ledger w where
  ids : w.created < SESSION_IDS
  idle : w.frame = .idle
  faultless : w.fault = none

/-- The works but for those of a session. -/
def without (works : List (Nat × Stage)) (object : Nat) : List (Nat × Stage) := works.filter fun work => work.1 ≠ object

theorem without_setStage (works : List (Nat × Stage)) (object : Nat) (stage : Stage) :
    without (works.map fun e => if e.1 = object then (object, stage) else e) object = without works object := by
  unfold without
  induction works with
  | nil => rfl
  | cons e works ih =>
    rw [List.map_cons, List.filter_cons, List.filter_cons, ih]
    split_ifs <;> simp_all

theorem lookup_setStage {works : List (Nat × Stage)} {object : Nat} {stage : Stage} (h : object ∈ works.map Prod.fst) :
    (works.map fun e => if e.1 = object then (object, stage) else e).lookup object = some stage := by
  induction works with
  | nil => cases h
  | cons e works ih =>
    rw [List.map_cons]
    by_cases he : e.1 = object
    · simp [he]
    · rw [if_neg he, List.lookup_cons, beq_false_of_ne (Ne.symm he)]
      refine ih ?_
      rw [List.map_cons, List.mem_cons] at h
      exact h.resolve_left fun heq => he heq.symm

/-- A step that is possible leads on. -/
theorem leads_of_step {a : Action μ σ} (hs : w.step U kit a = some w') : Leads (World.step U kit) (fun _ _ => True) w w' :=
  .step .refl trivial hs

theorem Open.step {a : Action μ σ} (h : Open w) (hs : w.step U kit a = some w') (hcreated : w'.created = w.created)
    (hidle : w'.frame = .idle) (hfault : w'.fault = none) : Open w' :=
  ⟨ledger_step h.toLedger hs (hcreated ▸ h.ids), hcreated ▸ h.ids, hidle, hfault⟩

/-- A work that is executed is completed, and the script comes back from the callback. -/
theorem Open.complete (h : Open w) {object : Nat} (hwork : w.works.lookup object = some .executed) :
    ∃ w', Leads (World.step U kit) (fun _ _ => True) w w' ∧ Open w' ∧ w'.works = without w.works object := by
  obtain ⟨s, hfind, -, -⟩ := h.find_isSome (mem_works_of_lookup hwork)
  have hcomplete : w.step U kit (.complete object) = some (w.completeWork U (object, s)) := by
    simp [World.step, h.faultless, h.idle, hwork, hfind]
  have hobject : s.object = object := by
    rw [← ((find_eq_some_iff h.toNumbered).mp hfind).2]
    exact h.object _ ((find_eq_some_iff h.toNumbered).mp hfind).1
  cases hkind : s.kind with
  | asyncNoCallback | promise | listener _ _ =>
    refine ⟨_, leads_of_step hcomplete, h.step hcomplete (created_completeWork w _) ?_ ?_, ?_⟩ <;>
      simp [World.completeWork, hkind, World.removeSession, h.idle, h.faultless, without, hobject]
  | async callback =>
    generalize hw₁ : w.completeWork U (object, s) = w₁ at hcomplete
    have hcreated : w₁.created = w.created := hw₁ ▸ created_completeWork w _
    have hids : w₁.created < SESSION_IDS := hcreated ▸ h.ids
    have h₁ : Ledger w₁ := ledger_step h.toLedger hcomplete hids
    have hframe : w₁.frame = .inCallback object := by
      rw [← hw₁, World.completeWork, hkind, hobject]
    have hfault : w₁.fault = none := by
      rw [← hw₁, World.completeWork, hkind]
      exact h.faultless
    have hworks : w₁.works = without w.works object := by
      rw [← hw₁, World.completeWork, hkind, hobject]
      rfl
    obtain ⟨-, s', hsession, -⟩ := h₁.callback object hframe
    have hfind' := (find_eq_some_iff h₁.toNumbered).mpr ⟨hsession, rfl⟩
    have hcompleted : w₁.step U kit .completed = some { w₁.removeSession object with frame := .idle } := by
      simp [World.step, hfault, hframe, hfind']
    have hledger := ledger_step h₁ hcompleted hids
    exact ⟨_, (leads_of_step hcomplete).trans (leads_of_step hcompleted), ⟨hledger, hids, rfl, hfault⟩, hworks⟩

/-- A work that waits is woken, or waits no longer, and is completed. -/
theorem Open.wake (h : Open w) {object : Nat} (hwork : w.works.lookup object = some .waiting) :
    ∃ w', Leads (World.step U kit) (fun _ _ => True) w w' ∧ Open w' ∧ w'.works = without w.works object := by
  have hmem := mem_works_of_lookup hwork
  obtain ⟨s, hfind, -, -⟩ := h.find_isSome hmem
  have hnext : ∃ (a : Action μ σ) (w₁ : World μ σ), w.step U kit a = some w₁ ∧ Open w₁ ∧
      w₁.works = w.works.map fun e => if e.1 = object then (object, .executed) else e := by
    cases hdone : s.asyncExecuteComplete with
    | true =>
      have hs : w.step U kit (.wake object) = some (w.setStage object .executed) := by
        simp [World.step, h.faultless, hwork, hfind, hdone]
      exact ⟨_, _, hs, h.step hs rfl h.idle h.faultless, rfl⟩
    | false =>
      have hs : w.step U kit (.timeout object) = some ((w.write object (·.onTimeOut)).setStage object .executed) := by
        simp [World.step, h.faultless, hwork, hfind, hdone]
      exact ⟨_, _, hs, h.step hs rfl h.idle h.faultless, rfl⟩
  obtain ⟨a, w₁, hs, h₁, hworks⟩ := hnext
  have hlookup : w₁.works.lookup object = some .executed := by
    rw [hworks]
    exact lookup_setStage hmem
  obtain ⟨w₂, hleads, h₂, hworks₂⟩ := @Open.complete _ _ U kit _ h₁ object hlookup
  refine ⟨w₂, (leads_of_step hs).trans hleads, h₂, ?_⟩
  rw [hworks₂, hworks, without_setStage]

/-- A work is brought to its end. -/
theorem Open.finish (h : Open w) {object : Nat} (hmem : object ∈ w.works.map Prod.fst) :
    ∃ w', Leads (World.step U kit) (fun _ _ => True) w w' ∧ Open w' ∧ w'.works = without w.works object := by
  obtain ⟨stage, hwork⟩ : ∃ stage, w.works.lookup object = some stage := by
    cases hlookup : w.works.lookup object with
    | some stage => exact ⟨stage, rfl⟩
    | none =>
      obtain ⟨e, he, rfl⟩ := List.mem_map.mp hmem
      have hne := List.lookup_eq_none_iff.mp hlookup e he
      simp at hne
  cases stage with
  | executed => exact h.complete hwork
  | waiting => exact h.wake hwork
  | queued =>
    obtain ⟨s, hfind, -, -⟩ := h.find_isSome hmem
    have hs : w.step U kit (.execute object) = some (w.executeWork kit s) := by
      simp [World.step, h.faultless, hwork, hfind]
    have hobject : s.object = object := by
      rw [← ((find_eq_some_iff h.toNumbered).mp hfind).2]
      exact h.object _ ((find_eq_some_iff h.toNumbered).mp hfind).1
    obtain ⟨stage, hstage, hworks⟩ : ∃ stage, stage ≠ .queued ∧
        (w.executeWork kit s).works = w.works.map fun e => if e.1 = object then (object, stage) else e := by
      unfold World.executeWork
      rw [hobject]
      refine ⟨_, ?_, rfl⟩
      split_ifs <;> simp
    have h₁ : Open (w.executeWork kit s) := h.step hs rfl h.idle h.faultless
    have hlookup : (w.executeWork kit s).works.lookup object = some stage := by
      rw [hworks]
      exact lookup_setStage hmem
    obtain ⟨w₂, hleads, h₂, hworks₂⟩ : ∃ w', Leads (World.step U kit) (fun _ _ => True) (w.executeWork kit s) w' ∧ Open w' ∧
        w'.works = without (w.executeWork kit s).works object := by
      cases stage with
      | queued => exact absurd rfl hstage
      | waiting => exact h₁.wake hlookup
      | executed => exact h₁.complete hlookup
    refine ⟨w₂, (leads_of_step hs).trans hleads, h₂, ?_⟩
    rw [hworks₂, hworks, without_setStage]

/-- All works are brought to their end. -/
theorem Open.finishAll (h : Open w) : ∃ w', Leads (World.step U kit) (fun _ _ => True) w w' ∧ Open w' ∧ w'.works = [] := by
  generalize hn : w.works.length = n
  induction n using Nat.strongRecOn generalizing w with
  | ind n ih =>
    cases hworks : w.works with
    | nil => exact ⟨w, .refl, h, hworks⟩
    | cons work works =>
      have hmem : work.1 ∈ w.works.map Prod.fst := by simp [hworks]
      obtain ⟨w₁, hleads, h₁, hworks₁⟩ := h.finish hmem
      have hless : w₁.works.length < n := by
        rw [hworks₁, ← hn]
        refine List.length_filter_lt_length_iff_exists.mpr ⟨work, by simp [hworks], by simp⟩
      obtain ⟨w₂, hleads', h₂, hnil⟩ := ih _ hless h₁ rfl
      exact ⟨w₂, hleads.trans hleads', h₂, hnil⟩

/-- A work that was started stays on the account. -/
theorem started_of_step {a : Action μ σ} (hs : w.step U kit a = some w') {e : Nat × SessionType × Kind} (he : e ∈ w.started) :
    e ∈ w'.started := by
  cases (moves_of_step hs).2 with
  | call m args =>
    rcases call_cases w m args with ⟨members, -, heq⟩ | ⟨members, request, -, heq⟩
    · rwa [heq]
    · rw [heq]
      rcases startSession_cases { w with members } request args with ⟨kind, -, heq⟩ | ⟨kind, heq⟩
      · rw [heq]
        exact List.mem_append_left _ he
      · rwa [heq]
  | on args =>
    rcases on_cases w args with heq | ⟨info, handler, -, heq⟩ | ⟨kind, params, heq⟩ <;> rwa [heq]
  | off args =>
    rcases off_cases w args with heq | ⟨info, handle, heq⟩ <;> rwa [heq]
  | complete =>
    unfold World.completeWork
    split <;> exact he
  | publishTo =>
    unfold World.publishToJS
    split_ifs <;> exact he
  | otherSession | serviceMoves | execute | wake | timeout | completed | deadSession | notifyCheckVersionDone | emit | notifyEvent
  | publish | published | publishNext | deadIterator => exact he

theorem started_of_leads (h : Leads (World.step U kit) (fun _ _ => True) w w') {e : Nat × SessionType × Kind} (he : e ∈ w.started) :
    e ∈ w'.started :=
  h.invariant (I := fun w => e ∈ w.started) he fun _ _ _ hI _ hs => started_of_step hs hI

end SessionsAux

open SessionsAux

/-- A service to which every request succeeds. -/
def willing : IUpdateService Unit where
  registerUpdateCallback _ _ := pure INT_CALL_SUCCESS
  unregisterUpdateCallback _ := pure INT_CALL_SUCCESS
  checkNewVersion _ := pure INT_CALL_SUCCESS
  download _ _ _ e := pure (INT_CALL_SUCCESS, e)
  pauseDownload _ _ _ e := pure (INT_CALL_SUCCESS, e)
  resumeDownload _ _ _ e := pure (INT_CALL_SUCCESS, e)
  upgrade _ _ _ e := pure (INT_CALL_SUCCESS, e)
  clearError _ _ _ e := pure (INT_CALL_SUCCESS, e)
  terminateUpgrade _ e := pure (INT_CALL_SUCCESS, e)
  getNewVersionInfo _ out := pure (INT_CALL_SUCCESS, out)
  getNewVersionDescription _ _ _ out := pure (INT_CALL_SUCCESS, out)
  getCurrentVersionInfo _ out := pure (INT_CALL_SUCCESS, out)
  getCurrentVersionDescription _ _ out := pure (INT_CALL_SUCCESS, out)
  getTaskInfo _ out := pure (INT_CALL_SUCCESS, out)
  setUpgradePolicy _ _ e := pure (INT_CALL_SUCCESS, e)
  getUpgradePolicy _ out := pure (INT_CALL_SUCCESS, out)
  cancel _ _ e := pure (INT_CALL_SUCCESS, e)
  factoryReset e := pure (INT_CALL_SUCCESS, e)
  applyNewVersion _ _ _ e := pure (INT_CALL_SUCCESS, e)
  verifyUpgradePackage _ _ e := pure (INT_CALL_SUCCESS, e)

/-- Every call that starts a session is answered once: while the numbers of sessions have not come round, each work that was started is
to be done, its session alive, or was completed and answered. -/
theorem calls_answered_once {service : σ} {members : μ} (h : World.Reached U kit service members w) (hids : w.created < SESSION_IDS) :
    w.Accounted :=
  (ledger_of_reached h hids).accounted

/-- A check is asked for by promise, and the service reports its end. -/
def oneCheck : List (Action UpdateClient Unit) :=
  [.call UpdateClient.checkNewVersion [], .execute 1, .notifyCheckVersionDone {} {}, .emit {}, .wake 1, .complete 1]

/-- A check is answered. -/
theorem calls_answered_once_check : ∃ w : World UpdateClient Unit, w.completed.length = 1 ∧ w.Accounted := by
  have hfollows : (follow (World.step UpdateClient.updater willing) (fun _ _ => true) oneCheck (World.fresh () {})).any
      (fun w => w.created == 1 && w.completed.length == 1) = true := by decide
  obtain ⟨w, hleads, hw⟩ := Leads.exists_of_follow hfollows
  simp only [Bool.and_eq_true, beq_iff_eq] at hw
  have hids : w.created < SESSION_IDS := hw.1 ▸ by decide
  exact ⟨w, hw.2, calls_answered_once (hleads.mono fun _ _ _ => trivial) hids⟩

/-- No call is left without an answer: from every state in which the thread of the script is idle, the works can be brought to their
end, whatever the service makes of the requests, and each call that was made until then is answered there. -/
theorem calls_can_be_answered {service : σ} {members : μ} (h : World.Reached U kit service members w) (hids : w.created < SESSION_IDS)
    (hframe : w.frame = .idle) (hfault : w.fault = none) :
    ∃ w', Leads (World.step U kit) (fun _ _ => True) w w' ∧ w'.frame = .idle ∧ w'.works = [] ∧
      ∀ e ∈ w.started, ∃ settlement, (e.1, settlement) ∈ w'.completed ∧ Answers e.2.2 settlement := by
  have hopen : Open w := ⟨ledger_of_reached h hids, hids, hframe, hfault⟩
  obtain ⟨w', hleads, hopen', hworks⟩ := @Open.finishAll _ _ U kit _ hopen
  refine ⟨w', hleads, hopen'.idle, hworks, fun e he => ?_⟩
  have he' := started_of_leads hleads he
  have hdone : e.1 ∈ w'.completed.map Prod.fst := by
    have hmem := hopen'.account.mem_iff.mp (List.mem_map_of_mem he')
    simpa [hworks] using hmem
  obtain ⟨⟨n, settlement⟩, hsettled, rfl⟩ := List.mem_map.mp hdone
  obtain ⟨type, kind, hstarted, hanswers⟩ := hopen'.answered _ hsettled
  have heq := List.inj_on_of_nodup_map hopen'.once hstarted he' rfl
  rw [← heq]
  exact ⟨settlement, hsettled, hanswers⟩

/-- A check and a question for the task are on their way. -/
def twoCalls : List (Action UpdateClient Unit) :=
  [.call UpdateClient.checkNewVersion [], .call UpdateClient.getTaskInfo [.function 7], .execute 1]

/-- Two calls, one by promise and one by callback, are answered. -/
theorem calls_can_be_answered_two : ∃ w w' : World UpdateClient Unit, w.started.length = 2 ∧
    Leads (World.step UpdateClient.updater willing) (fun _ _ => True) w w' ∧ w'.frame = .idle ∧ w'.works = [] ∧
    ∀ e ∈ w.started, ∃ settlement, (e.1, settlement) ∈ w'.completed ∧ Answers e.2.2 settlement := by
  have hfollows : (follow (World.step UpdateClient.updater willing) (fun _ _ => true) twoCalls (World.fresh () {})).any (fun w =>
      w.created == 2 && w.started.length == 2 && w.fault.isNone && w.runsScript && !w.isLocked && w.completed.isEmpty) = true := by
    decide
  obtain ⟨w, hleads, hw⟩ := Leads.exists_of_follow hfollows
  simp only [Bool.and_eq_true, beq_iff_eq, Option.isNone_iff_eq_none, Bool.not_eq_eq_eq_not, Bool.not_true, List.isEmpty_iff] at hw
  obtain ⟨⟨⟨⟨⟨hcreated, hstarted⟩, hfault⟩, -⟩, hlocked⟩, hcompleted⟩ := hw
  have hreached : World.Reached UpdateClient.updater willing () {} w := hleads.mono fun _ _ _ => trivial
  have hids : w.created < SESSION_IDS := hcreated ▸ by decide
  have hframe : w.frame = .idle := by
    cases hframe : w.frame with
    | idle => rfl
    | publishing | inHandler => simp [World.isLocked, hframe] at hlocked
    | inCallback object =>
      have hdone := ((ledger_of_reached hreached hids).callback object hframe).1
      simp [hcompleted] at hdone
  obtain ⟨w', hleads', hrest⟩ := calls_can_be_answered hreached hids hframe hfault
  exact ⟨w, w', hstarted, hleads', hrest⟩

end UpdateEngine.Ipc.Client
