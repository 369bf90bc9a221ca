import UpdateEngine.Theorems.Sessions

/-!
# Every listener is told of every event once

An event that comes is published once. While it is published the map of the sessions is walked in the order of their numbers, and the
handlers that are called may subscribe and unsubscribe. A listener is told once of a publication, and one that is subscribed when the
publication ends was told of it. What a handler must not do is unsubscribe itself: the walk stands at its listener.
-/

namespace UpdateEngine.Ipc.Client

open Concurrent

variable {μ σ : Type} {U : IUpdater μ} {kit : IUpdateService σ} {w w' : World μ σ}

/-- A listener of the events that are published. -/
def Session.IsTaskListener (s : Session μ σ) : Prop := World.isSubscribeEvent { eventClassify := EventClassify.TASK } s = true

/-- Events and listeners: each event that came is posted or was published, no handler is subscribed twice, each listener is told of a
publication at most once and of none that is no event for a script, and at the end of a publication every listener was told. -/
structure World.Informed (w : World μ σ) : Prop where
  apart : (w.sessions.filterMap fun e => SessionsAux.subscription e.2).Nodup
  events : w.noticed.Perm (w.published ++ w.posted)
  once : w.notified.Nodup
  known : ∀ e ∈ w.notified, ∃ i eventInfo,
    e.1 = i + 1 ∧ w.published[i]? = some eventInfo ∧ (ClientHelper.buildEventInfo eventInfo).isSome = true
  all : ∀ eventInfo, w.frame = .publishing eventInfo none → (ClientHelper.buildEventInfo eventInfo).isSome = true →
    ∀ e ∈ w.sessions, e.2.IsTaskListener → (w.published.length, e.2.object) ∈ w.notified

/-- A handler that unsubscribes leaves its own listener subscribed. -/
def World.sparesItself (w : World μ σ) : Action μ σ → Bool
  | .off args => match w.frame with
    | .inHandler _ _ object => ((w.off args).find object).isSome
    | _ => true
  | _ => true

namespace PublicationsAux

open SessionsAux

/-- The sessions from before, which may have been written to, and sessions that the script has made. -/
def Grows (w w' : World μ σ) : Prop := ∀ e' ∈ w'.sessions,
  (∃ e ∈ w.sessions, e.1 = e'.1 ∧ Same e.2 e'.2) ∨ w.runsScript = true ∧ w.created < e'.1

theorem grows_of_shift {a : Action μ σ} (h : Shift w a w') : Grows w w' := by
  intro e' he'
  cases h with
  | same hsessions =>
    rw [hsessions] at he'
    exact .inl ⟨e', he', rfl, rfl, rfl, rfl⟩
  | unsubscribed _ hsub | answered _ hsub => exact .inl ⟨e', hsub.subset he', rfl, rfl, rfl, rfl⟩
  | made hscript _ hsessions =>
    rw [hsessions] at he'
    rcases List.mem_append.mp he' with he' | he'
    · exact .inl ⟨e', he', rfl, rfl, rfl, rfl⟩
    · rw [List.mem_singleton.mp he']
      exact .inr ⟨hscript, Nat.lt_succ_self _⟩
  | written hf hsessions =>
    rw [hsessions] at he'
    obtain ⟨e, he, rfl⟩ := List.mem_map.mp he'
    exact .inl ⟨e, he, (hf e).1.symm, (hf e).2⟩

/-! ## How far a publication has come -/

/-- The loop has passed a number when its iterator stands behind it. -/
def Passed : Option Nat → Nat → Prop
  | none, _ => True
  | some iter, n => n < iter

theorem passed_next_iff (h : Numbered w) {iter : Nat} {e : Nat × Session μ σ} (he : e ∈ w.sessions) :
    Passed (w.next iter) e.1 ↔ e.1 ≤ iter := by
  unfold World.next
  cases hfind : w.sessions.find? fun e => iter < e.1 with
  | none =>
    have hall := List.find?_eq_none.mp hfind e he
    simpa [Passed] using hall
  | some e₀ =>
    obtain ⟨hiter, l, l', hsessions, hbefore⟩ := List.find?_eq_some_iff_append.mp hfind
    have hiter : iter < e₀.1 := by simpa using hiter
    simp only [Option.map_some, Passed]
    constructor
    · intro hlt
      by_contra hgt
      have hsorted : SortedMap.Sorted (l ++ e₀ :: l') := hsessions ▸ h.sorted
      rw [hsessions, List.mem_append, List.mem_cons] at he
      rcases he with he | rfl | he
      · exact hgt (by simpa using hbefore e he)
      · exact Nat.lt_irrefl _ hlt
      · exact absurd ((List.pairwise_cons.mp (List.pairwise_append.mp hsorted).2.1).1 e he) (Nat.lt_asymm hlt)
    · intro hle
      exact Nat.lt_of_le_of_lt hle hiter

theorem passed_next {iter n : Nat} (h : n ≤ iter) : Passed (w.next iter) n := by
  unfold World.next
  cases hfind : w.sessions.find? fun e => iter < e.1 with
  | none => trivial
  | some e₀ =>
    have hiter : iter < e₀.1 := by simpa using List.find?_some hfind
    exact Nat.lt_of_le_of_lt h hiter

theorem not_passed_head (h : Numbered w) {e : Nat × Session μ σ} (he : e ∈ w.sessions) :
    ¬ Passed (w.sessions.head?.map Prod.fst) e.1 := by
  cases hsessions : w.sessions with
  | nil => simp [hsessions] at he
  | cons e₀ l =>
    have hsorted : SortedMap.Sorted (e₀ :: l) := hsessions ▸ h.sorted
    simp only [List.head?_cons, Option.map_some, Passed, Nat.not_lt]
    rw [hsessions] at he
    rcases List.mem_cons.mp he with rfl | he
    · exact Nat.le_refl _
    · exact Nat.le_of_lt ((List.pairwise_cons.mp hsorted).1 e he)

/-- What is known of the listeners: those that the publication has passed, and no others, were told. -/
structure Told (w : World μ σ) : Prop where
  events : w.noticed.Perm (w.published ++ w.posted)
  once : w.notified.Nodup
  known : ∀ e ∈ w.notified, e.2 ≤ w.created ∧ ∃ i eventInfo, e.1 = i + 1 ∧ w.published[i]? = some eventInfo ∧
    (ClientHelper.buildEventInfo eventInfo).isSome = true
  publishing : ∀ eventInfo iter, w.frame = .publishing eventInfo iter → w.published.getLast? = some eventInfo ∧
    ((ClientHelper.buildEventInfo eventInfo).isSome = true → ∀ e ∈ w.sessions, e.2.IsTaskListener → Passed iter e.1 →
      (w.published.length, e.1) ∈ w.notified) ∧
    ∀ n, (w.published.length, n) ∈ w.notified → Passed iter n
  inHandler : ∀ eventInfo iter object, w.frame = .inHandler eventInfo iter object → w.published.getLast? = some eventInfo ∧
    iter ≤ w.created ∧ (∀ e ∈ w.sessions, e.2.IsTaskListener → e.1 ≤ iter → (w.published.length, e.1) ∈ w.notified) ∧
    ∀ n, (w.published.length, n) ∈ w.notified → n ≤ iter

theorem told_fresh (service : σ) (members : μ) : Told (World.fresh service members : World μ σ) where
  events := List.Perm.refl _
  once := List.nodup_nil
  known := by simp [World.fresh]
  publishing := by simp [World.fresh]
  inHandler := by simp [World.fresh]

theorem isTaskListener_of_same {s s' : Session μ σ} (h : Same s s') (hs : s'.IsTaskListener) : s.IsTaskListener := by
  unfold Session.IsTaskListener World.isSubscribeEvent at hs ⊢
  rwa [h.2.1] at hs

/-- Nothing is published. -/
theorem Told.stay (h : Told w) (hgrows : Grows w w') (hcreated : w.created ≤ w'.created)
    (hframe : w'.frame = w.frame ∨ (∀ eventInfo iter, w'.frame ≠ .publishing eventInfo iter) ∧
      ∀ eventInfo iter object, w'.frame ≠ .inHandler eventInfo iter object)
    (hpublished : w'.published = w.published) (hnotified : w'.notified = w.notified)
    (hevents : w'.noticed.Perm (w'.published ++ w'.posted)) : Told w' where
  events := hevents
  once := hnotified ▸ h.once
  known := by
    rw [hnotified, hpublished]
    exact fun e he => ⟨Nat.le_trans (h.known e he).1 hcreated, (h.known e he).2⟩
  publishing := by
    intro eventInfo iter hpublishing
    rcases hframe with hframe | hframe
    · rw [hframe] at hpublishing
      obtain ⟨hlast, hpassed, htold⟩ := h.publishing eventInfo iter hpublishing
      rw [hpublished, hnotified]
      refine ⟨hlast, fun hbuilds e' he' hlistener hiter => ?_, htold⟩
      rcases hgrows e' he' with ⟨e, he, hkey, hsame⟩ | ⟨hscript, -⟩
      · rw [← hkey] at hiter ⊢
        exact hpassed hbuilds e he (isTaskListener_of_same hsame hlistener) hiter
      · simp [World.runsScript, hpublishing] at hscript
    · exact absurd hpublishing (hframe.1 eventInfo iter)
  inHandler := by
    intro eventInfo iter object hhandler
    rcases hframe with hframe | hframe
    · rw [hframe] at hhandler
      obtain ⟨hlast, hbound, hpassed, htold⟩ := h.inHandler eventInfo iter object hhandler
      rw [hpublished, hnotified]
      refine ⟨hlast, Nat.le_trans hbound hcreated, fun e' he' hlistener hiter => ?_, htold⟩
      rcases hgrows e' he' with ⟨e, he, hkey, hsame⟩ | ⟨-, hnew⟩
      · rw [← hkey] at hiter ⊢
        exact hpassed e he (isTaskListener_of_same hsame hlistener) hiter
      · omega
    · exact absurd hhandler (hframe.2 eventInfo iter object)

/-- A publication begins: no listener was told of it. -/
theorem told_publish (hn : Numbered w) (h : Told w) {i : Nat} {eventInfo : EventInfo} (hposted : w.posted[i]? = some eventInfo) :
    Told { w with
      posted := w.posted.eraseIdx i
      published := w.published ++ [eventInfo]
      frame := .publishing eventInfo (w.sessions.head?.map Prod.fst) } where
  events := by
    obtain ⟨hi, hget⟩ := List.getElem?_eq_some_iff.mp hposted
    have hmoved : w.posted.Perm (eventInfo :: w.posted.eraseIdx i) := by
      rw [← hget]
      exact (List.getElem_cons_eraseIdx_perm hi).symm
    rw [List.append_assoc]
    exact h.events.trans (hmoved.append_left w.published)
  once := h.once
  known := by
    intro e he
    obtain ⟨hbound, j, eventInfo', hj, hget, hbuilds⟩ := h.known e he
    refine ⟨hbound, j, eventInfo', hj, ?_, hbuilds⟩
    rw [List.getElem?_append_left (List.getElem?_eq_some_iff.mp hget).1]
    exact hget
  publishing := by
    intro eventInfo' iter hframe
    cases hframe
    have hnew (n : Nat) : ((w.published ++ [eventInfo]).length, n) ∉ w.notified := by
      intro hmem
      obtain ⟨-, j, eventInfo', hj, hget, -⟩ := h.known _ hmem
      have hlt := (List.getElem?_eq_some_iff.mp hget).1
      simp only [List.length_append, List.length_singleton] at hj
      omega
    refine ⟨by simp, fun _ e he _ hpassed => absurd hpassed (not_passed_head hn he), fun n hn => absurd hn (hnew n)⟩
  inHandler := by simp

/-- The loop comes to a session. -/
theorem told_publishTo (hn : Numbered w) (h : Told w) {eventInfo : EventInfo} {iter : Nat} {s : Session μ σ}
    (hframe : w.frame = .publishing eventInfo (some iter)) (hs : (iter, s) ∈ w.sessions) : Told (w.publishToJS eventInfo (iter, s)) := by
  obtain ⟨hlast, hpassed, htold⟩ := h.publishing eventInfo (some iter) hframe
  have hobject : s.object = iter := hn.object (iter, s) hs
  unfold World.publishToJS
  split_ifs with htell
  · obtain ⟨hlistener, hbuilds⟩ := Bool.and_eq_true_iff.mp htell
    exact {
      events := h.events
      once := by
        refine List.Nodup.append h.once (List.nodup_singleton _) (List.disjoint_singleton.mpr ?_)
        rw [hobject]
        intro hmem
        exact Nat.lt_irrefl _ (htold iter hmem)
      known := by
        intro e he
        rcases List.mem_append.mp he with he | he
        · exact h.known e he
        · rw [List.mem_singleton.mp he]
          have hne : w.published ≠ [] := by
            rintro hnil
            simp [hnil] at hlast
          have hlength := List.length_pos_iff.mpr hne
          refine ⟨hobject ▸ hn.bound (iter, s) hs, w.published.length - 1, eventInfo, by simp only; omega, ?_, hbuilds⟩
          rw [← hlast, List.getLast?_eq_getElem?]
      publishing := by simp
      inHandler := by
        intro eventInfo' iter' object hhandler
        cases hhandler
        refine ⟨hlast, hn.bound (iter, s) hs, fun e he hlistener hle => ?_, fun n hmem => ?_⟩
        · rcases Nat.lt_or_eq_of_le hle with hlt | heq
          · exact List.mem_append_left _ (hpassed hbuilds e he hlistener hlt)
          · refine List.mem_append_right _ (List.mem_singleton.mpr ?_)
            simp only at heq
            rw [heq, hobject]
        · rcases List.mem_append.mp hmem with hmem | hmem
          · exact Nat.le_of_lt (htold n hmem)
          · have heq := List.mem_singleton.mp hmem
            simp only [Prod.mk.injEq, true_and] at heq
            rw [heq, hobject] }
  · exact {
      events := h.events
      once := h.once
      known := h.known
      publishing := by
        intro eventInfo' iter' hpublishing
        cases hpublishing
        refine ⟨hlast, fun hbuilds e he hlistener hnext => ?_, fun n hmem => passed_next (Nat.le_of_lt (htold n hmem))⟩
        rcases Nat.lt_or_eq_of_le ((passed_next_iff hn he).mp hnext) with hlt | heq
        · exact hpassed hbuilds e he hlistener hlt
        · -- the session that is passed over is no listener
          have hsame : e = (iter, s) := by
            have h1 := (SortedMap.find_eq_some_iff (k := e.1) (v := e.2) hn.sorted).mpr he
            simp only at heq
            rw [heq, (SortedMap.find_eq_some_iff hn.sorted).mpr hs] at h1
            exact Prod.ext heq (Option.some.inj h1).symm
          subst hsame
          exact absurd (Bool.and_eq_true_iff.mpr ⟨hlistener, hbuilds⟩) htell
      inHandler := by simp }

/-- The loop goes on after a handler. -/
theorem told_publishNext (hn : Numbered w) (h : Told w) {eventInfo : EventInfo} {iter object : Nat}
    (hframe : w.frame = .inHandler eventInfo iter object) : Told { w with frame := .publishing eventInfo (w.next iter) } := by
  obtain ⟨hlast, -, hpassed, htold⟩ := h.inHandler eventInfo iter object hframe
  exact {
    events := h.events
    once := h.once
    known := h.known
    publishing := by
      intro eventInfo' iter' hpublishing
      cases hpublishing
      exact ⟨hlast, fun _ e he hlistener hnext => hpassed e he hlistener ((passed_next_iff hn he).mp hnext),
        fun n hmem => passed_next (htold n hmem)⟩
    inHandler := by simp }

theorem told_step {a : Action μ σ} (hl : Ledger w) (h : Told w) (hs : w.step U kit a = some w') (hids : w'.created < SESSION_IDS) :
    Told w' := by
  have hn := hl.toNumbered
  have hcreated := created_le_of_step hs
  have hgrows := grows_of_shift (shift_of_step hn hs hids)
  cases (moves_of_step hs).2 with
  | call m args =>
    rcases call_cases w m args with ⟨members, -, heq⟩ | ⟨members, request, -, heq⟩
    · rw [heq] at hgrows hcreated ⊢
      exact h.stay hgrows hcreated (.inl rfl) rfl rfl h.events
    · rw [heq] at hgrows hcreated ⊢
      rcases startSession_cases { w with members } request args with ⟨kind, -, heq⟩ | ⟨kind, heq⟩ <;>
        · rw [heq] at hgrows hcreated ⊢
          exact h.stay hgrows hcreated (.inl rfl) rfl rfl h.events
  | on args =>
    rcases on_cases w args with heq | ⟨info, handler, -, heq⟩ | ⟨kind, params, heq⟩ <;>
      · rw [heq] at hgrows hcreated ⊢
        exact h.stay hgrows hcreated (.inl rfl) rfl rfl h.events
  | off args =>
    rcases off_cases w args with heq | ⟨info, handle, heq⟩ <;>
      · rw [heq] at hgrows hcreated ⊢
        exact h.stay hgrows hcreated (.inl rfl) rfl rfl h.events
  | @complete object e =>
    unfold World.completeWork at hgrows hcreated ⊢
    split at hgrows <;> rename_i hkind <;> simp only [hkind] at hcreated ⊢
    · exact h.stay hgrows hcreated (.inr (by simp)) rfl rfl h.events
    · exact h.stay hgrows hcreated (.inl rfl) rfl rfl h.events
  | notifyEvent eventInfo =>
    refine h.stay hgrows hcreated (.inl rfl) rfl rfl ?_
    rw [← List.append_assoc]
    exact h.events.append_right [eventInfo]
  | publish hframe hposted => exact told_publish hn h hposted
  | publishTo hframe hfind => exact told_publishTo hn h hframe ((SortedMap.find_eq_some_iff hn.sorted).mp hfind)
  | publishNext hframe => exact told_publishNext hn h hframe
  | published | completed => exact h.stay hgrows hcreated (.inr (by simp)) rfl rfl h.events
  | otherSession | serviceMoves | execute | wake | timeout | deadSession | notifyCheckVersionDone | emit | deadIterator =>
    exact h.stay hgrows hcreated (.inl rfl) rfl rfl h.events

/-! ## Subscriptions -/

/-- No handler is subscribed twice. -/
def Apart (w : World μ σ) : Prop := (w.sessions.filterMap fun e => subscription e.2).Nodup

theorem apart_of_shift {a : Action μ σ} (h : Apart w) (hshift : Shift w a w') : Apart w' := by
  unfold Apart at h ⊢
  cases hshift with
  | same hsessions => rwa [hsessions]
  | unsubscribed _ hsub | answered _ hsub => exact h.sublist (hsub.filterMap _)
  | @made s _ hnew hsessions =>
    rw [hsessions, List.filterMap_append]
    refine List.Nodup.append h ?_ ?_
    · rw [List.filterMap_cons]
      cases subscription s <;> simp
    · rw [List.disjoint_left]
      intro x hx hx'
      obtain ⟨e, he, hsub⟩ := List.mem_filterMap.mp hx
      obtain ⟨e', he', hsub'⟩ := List.mem_filterMap.mp hx'
      rw [List.mem_singleton.mp he'] at hsub'
      exact hnew e he x hsub hsub'
  | @written f hf hsessions =>
    have hsame : (fun e => subscription (f e).2) = fun e : Nat × Session μ σ => subscription e.2 :=
      funext fun e => subscription_of_same (hf e).2
    rw [hsessions, List.filterMap_map]
    exact (congrArg (fun g => (w.sessions.filterMap g).Nodup) hsame).mpr h

theorem told_of_reached {service : σ} {members : μ} (h : World.Reached U kit service members w) (hids : w.created < SESSION_IDS) :
    Ledger w ∧ Told w ∧ Apart w := by
  refine h.invariant (I := fun w => w.created < SESSION_IDS → Ledger w ∧ Told w ∧ Apart w)
    (fun _ => ⟨ledger_fresh service members, told_fresh service members, List.nodup_nil⟩) ?_ hids
  intro w a w' hI _ hs hids'
  obtain ⟨hledger, htold, hapart⟩ := hI (Nat.lt_of_le_of_lt (created_le_of_step hs) hids')
  exact ⟨ledger_step hledger hs hids', told_step hledger htold hs hids', apart_of_shift hapart (shift_of_step hledger.toNumbered hs hids')⟩

/-! ## The listener at which the loop stands -/

/-- The listener whose handler runs is there. -/
def Stands (w : World μ σ) : Prop := ∀ eventInfo iter object, w.frame = .inHandler eventInfo iter object →
  ∃ s, (iter, s) ∈ w.sessions ∧ s.object = object

/-- A handler that runs after a step ran before it, but for one that is called by it. -/
theorem inHandler_of_step {a : Action μ σ} (hs : w.step U kit a = some w') {eventInfo : EventInfo} {iter object : Nat}
    (hframe : w'.frame = .inHandler eventInfo iter object) :
    w.frame = .inHandler eventInfo iter object ∨
      ∃ s, SortedMap.find w.sessions iter = some s ∧ s.object = object ∧ w'.sessions = w.sessions := by
  cases (moves_of_step hs).2 with
  | call m args =>
    rcases call_cases w m args with ⟨members, -, heq⟩ | ⟨members, request, -, heq⟩
    · rw [heq] at hframe
      exact .inl hframe
    · rw [heq] at hframe
      rcases startSession_cases { w with members } request args with ⟨kind, -, heq⟩ | ⟨kind, heq⟩ <;>
        · rw [heq] at hframe
          exact .inl hframe
  | on args =>
    rcases on_cases w args with heq | ⟨info, handler, -, heq⟩ | ⟨kind, params, heq⟩ <;>
      · rw [heq] at hframe
        exact .inl hframe
  | off args =>
    rcases off_cases w args with heq | ⟨info, handle, heq⟩ <;>
      · rw [heq] at hframe
        exact .inl hframe
  | complete =>
    unfold World.completeWork at hframe
    split at hframe
    · cases hframe
    · exact .inl hframe
  | publishTo _ hfind =>
    unfold World.publishToJS at hframe ⊢
    split_ifs at hframe ⊢
    cases hframe
    exact .inr ⟨_, hfind, rfl, rfl⟩
  | completed | publish | published | publishNext => cases hframe
  | otherSession | serviceMoves | execute | wake | timeout | deadSession | notifyCheckVersionDone | emit | notifyEvent | deadIterator =>
    exact .inl hframe

theorem stands_step {a : Action μ σ} (hl : Ledger w) (h : Stands w) (hok : w.sparesItself a = true) (hs : w.step U kit a = some w')
    (hids : w'.created < SESSION_IDS) : Stands w' := by
  intro eventInfo iter object hframe'
  rcases inHandler_of_step hs hframe' with hframe | ⟨s, hfind, hobject, hsessions⟩
  swap
  · exact ⟨s, hsessions ▸ (SortedMap.find_eq_some_iff hl.sorted).mp hfind, hobject⟩
  obtain ⟨s, hsession, hobject⟩ := h eventInfo iter object hframe
  cases shift_of_step hl.toNumbered hs hids with
  | same hsessions => exact ⟨s, hsessions ▸ hsession, hobject⟩
  | @unsubscribed args ha =>
    -- here alone a listener may go while its handler runs
    subst ha
    simp only [World.sparesItself, hframe] at hok
    obtain ⟨e, hfind⟩ := Option.isSome_iff_exists.mp hok
    have hl' := ledger_step hl hs hids
    cases (moves_of_step hs).2 with
    | off _ =>
      obtain ⟨he, hkey⟩ := (find_eq_some_iff hl'.toNumbered).mp hfind
      have hiter : iter = object := (hl.object (iter, s) hsession).symm.trans hobject
      refine ⟨e.2, ?_, (hl'.object e he).trans hkey⟩
      rw [hiter, ← hkey]
      exact he
    | deadSession => exact ⟨s, hsession, hobject⟩
  | answered hno => exact absurd hframe' (hno eventInfo iter object)
  | made _ _ hsessions => exact ⟨s, hsessions ▸ List.mem_append_left _ hsession, hobject⟩
  | @written f hf hsessions =>
    refine ⟨(f (iter, s)).2, ?_, (hf (iter, s)).2.1.trans hobject⟩
    rw [hsessions]
    exact List.mem_map.mpr ⟨(iter, s), hsession, Prod.ext (hf (iter, s)).1 rfl⟩

theorem fault_completeWork (e : Nat × Session μ σ) : (w.completeWork U e).fault = w.fault := by
  unfold World.completeWork
  cases e.2.kind <;> rfl

/-- Nothing is at fault where the listener whose handler runs is there. -/
theorem fault_eq_none {a : Action μ σ} (hl : Ledger w) (h : Stands w) (hs : w.step U kit a = some w') (hids : w'.created < SESSION_IDS) :
    w'.fault = none := by
  have hn := hl.toNumbered
  have hsound := (ledger_step hl hs hids).sound
  obtain ⟨hfault, hmoves⟩ := moves_of_step hs
  cases hmoves with
  | call m args =>
    rcases call_cases w m args with ⟨members, -, heq⟩ | ⟨members, request, -, heq⟩
    · rwa [heq]
    · rw [heq]
      rcases startSession_cases { w with members } request args with ⟨kind, -, heq⟩ | ⟨kind, heq⟩ <;> rwa [heq]
  | on args =>
    rcases on_cases w args with heq | ⟨info, handler, -, heq⟩ | ⟨kind, params, heq⟩ <;> rwa [heq]
  | off args =>
    rcases off_cases w args with heq | ⟨info, handle, heq⟩ <;> rwa [heq]
  | complete => rwa [fault_completeWork]
  | publishTo =>
    unfold World.publishToJS
    split_ifs <;> exact hfault
  | deadSession => exact absurd rfl (hsound _)
  | @deadIterator eventInfo iter object hframe hgone =>
    obtain ⟨s, hsession, hobject⟩ := h eventInfo iter object hframe
    exact absurd hobject (hgone s ((SortedMap.find_eq_some_iff hn.sorted).mpr hsession))
  | otherSession | serviceMoves | execute | wake | timeout | completed | notifyCheckVersionDone | emit | notifyEvent | publish
  | published | publishNext => exact hfault

end PublicationsAux

open SessionsAux PublicationsAux

/-- An updater goes wrong in no run in which no handler unsubscribes its own listener, while the numbers of sessions have not come
round. -/
theorem sound_unless_own_unsubscribed {service : σ} {members : μ}
    (h : Leads (World.step U kit) (fun w a => w.sparesItself a = true) (World.fresh service members) w) (hids : w.created < SESSION_IDS) :
    w.fault = none := by
  have hinv := h.invariant (I := fun w => w.created < SESSION_IDS → Ledger w ∧ Stands w ∧ w.fault = none)
    (fun _ => ⟨ledger_fresh service members, fun _ _ _ hframe => by simp [World.fresh] at hframe, rfl⟩) ?_ hids
  · exact hinv.2.2
  intro w a w' hI hok hs hids'
  obtain ⟨hledger, hstands, -⟩ := hI (Nat.lt_of_le_of_lt (created_le_of_step hs) hids')
  exact ⟨ledger_step hledger hs hids', stands_step hledger hstands hok hs hids', fault_eq_none hledger hstands hs hids'⟩

/-- What a script hands over to subscribe a handler. -/
def subscribing (handler : Nat) : List Value := [.object [("eventClassify", .number 0x01000000)], .function handler]

/-- Two handlers are subscribed, and the second is unsubscribed by the first while it runs. -/
def otherUnsubscribed : List (Action UpdateClient Unit) :=
  [.on (subscribing 7), .on (subscribing 8), .notifyEvent { eventId := 0x01000001 }, .publish 0, .publishNext,
    .off (subscribing 8), .publishNext, .publishNext]

/-- Nothing goes wrong there. -/
theorem sound_unless_own_unsubscribed_other : ∃ w : World UpdateClient Unit, w.sessions.length = 1 ∧ w.published.length = 1 ∧
    w.fault = none := by
  have hfollows : (follow (World.step UpdateClient.updater willing) World.sparesItself otherUnsubscribed (World.fresh () {})).any (fun w =>
      w.created == 2 && w.sessions.length == 1 && w.published.length == 1) = true := by decide
  obtain ⟨w, hleads, hw⟩ := Leads.exists_of_follow hfollows
  simp only [Bool.and_eq_true, beq_iff_eq] at hw
  have hids : w.created < SESSION_IDS := hw.1.1 ▸ by decide
  exact ⟨w, hw.1.2, hw.2, sound_unless_own_unsubscribed hleads hids⟩

/-- While the numbers of sessions have not come round, every event that came is posted or published, once, and every listener is told of
every publication that ends while it is subscribed, once. -/
theorem listeners_informed {service : σ} {members : μ} (h : World.Reached U kit service members w) (hids : w.created < SESSION_IDS) :
    w.Informed := by
  obtain ⟨hledger, htold, hapart⟩ := told_of_reached h hids
  refine ⟨hapart, htold.events, htold.once, fun e he => (htold.known e he).2, ?_⟩
  intro eventInfo hframe hbuilds e he hlistener
  rw [hledger.object e he]
  exact (htold.publishing eventInfo none hframe).2.1 hbuilds e he hlistener trivial

/-- Two handlers are subscribed, a download is reported, and the first handler subscribes a third while it runs. -/
def threeListeners : List (Action UpdateClient Unit) :=
  [.on (subscribing 7), .on (subscribing 8), .notifyEvent { eventId := 0x01000001 }, .publish 0, .publishNext,
    .on (subscribing 9), .publishNext, .publishNext, .publishNext, .publishNext, .publishNext]

/-- At the end of this publication all three were told. -/
theorem listeners_informed_three : ∃ w : World UpdateClient Unit, w.sessions.length = 3 ∧
    w.frame = .publishing { eventId := 0x01000001 } none ∧ w.Informed := by
  have hfollows : (follow (World.step UpdateClient.updater willing) (fun _ _ => true) threeListeners (World.fresh () {})).any (fun w =>
      w.created == 3 && w.sessions.length == 3 && w.frame == .publishing { eventId := 0x01000001 } none) = true := by decide
  obtain ⟨w, hleads, hw⟩ := Leads.exists_of_follow hfollows
  simp only [Bool.and_eq_true, beq_iff_eq] at hw
  have hids : w.created < SESSION_IDS := hw.1.1 ▸ by decide
  exact ⟨w, hw.1.2, hw.2, listeners_informed (hleads.mono fun _ _ _ => trivial) hids⟩

end UpdateEngine.Ipc.Client
