import UpdateEngine.Lemmas.FilingAux

/-!
# How the status of checks is used

`StatusCache` is read and set by the threads of checks only: a request reads it to be let in, and sets it before it starts its
executor; the executor sets it back.
-/

namespace UpdateEngine

open Concurrent

/-- `StatusCache::IsChecking`, once the status is read: whether a check is let in at the time `now`. -/
def letsIn (checking : Bool) (lastCheckTime now : Int) : Bool := !checking || 300 < (now - lastCheckTime).natAbs

/-- How far a thread has come with the status: it has no business with it; a request is to read it, has read it, has been let in, has
asked for the time of its start, has set it; an executor is to set it back, has read it for that. -/
inductive Testing where
  | apart
  | request
  | read (checking : Bool) (lastCheckTime : Int)
  | passed
  | starting (now : Int)
  | created
  | running
  | closing (lastCheckTime : Int)

namespace CheckingAux

/-- How a thread begins. -/
def entry : Thread → Testing
  | .checkNewVersion _ => .request
  | .checkExecutor _ => .running
  | _ => .apart

/-- Which operations are allowed when. -/
def allowed (n : Thread) (r : Testing) : Op → Prop
  | .getStatusCache => r = .request ∨ r = .running
  | .setStatusCache checking t => (checking = true ∧ r = .starting t) ∨ (checking = false ∧ r = .closing t)
  | .spawn _ => n.kind = .check → r = .created
  | _ => True

/-- What is expected: the executor of a check finds its flow past the first step. -/
def expects (n : Thread) : (o : Op) → o.Res → Prop
  | .getNextStep, step => ∀ f, n = .checkExecutor f → step ≠ .init
  | _, _ => True

/-- What an answer leads to. -/
def next (r : Testing) (o : Op) (x : o.Res) : Testing :=
  match r, o, x with
  | .request, .getStatusCache, (checking, lastCheckTime) =>
    if lastCheckTime = -1 then if checking then .apart else .passed else .read checking lastCheckTime
  | .read checking lastCheckTime, .ask .now, now => if letsIn checking lastCheckTime now then .passed else .apart
  | .passed, .setFlow (.buildError _ _), _ => .apart
  | .passed, .ask .now, now => .starting now
  | .starting _, .setStatusCache _ _, _ => .created
  | .created, .spawn _, _ => .apart
  | .running, .getStatusCache, (_, lastCheckTime) => .closing lastCheckTime
  | .closing _, .setStatusCache _ _, _ => .apart
  | r, _, _ => r

/-- How the status is used. -/
def testing : Protocol Op Op.Res Thread Testing where
  entry := entry
  allowed := allowed
  expects := fun n _ => expects n
  next := fun _ => next
  final := fun _ => True

variable {P : Platform} {n : Thread}

/-! ## Threads of other flows -/

/-- A text that leaves the status alone. -/
theorem apart_of_filing {α : Type} (hn : n.kind ≠ .check) {p : Prog α} {r : Filing} {Q : α → Filing → Prop}
    (h : (FilingAux.filing P).Spec n p r Q) : testing.Spec n p .apart fun _ r' => r' = .apart := by
  induction p generalizing r with
  | ret a => rfl
  | op o k ih =>
    obtain ⟨ha, hk⟩ := h
    have hallowed : allowed n .apart o := by
      cases o with
      | getStatusCache | setStatusCache => exact absurd ha.2 hn
      | spawn t => exact fun h => absurd h hn
      | _ => trivial
    refine ⟨hallowed, fun x _ => ?_⟩
    have hnext : next .apart o x = .apart := by
      cases o <;> rfl
    have hrest := ih x (hk x trivial)
    rwa [← hnext] at hrest

/-! ## Checks -/

/-- The kinds of operations that leave a thread where it is, before it is let in and after it has started. -/
def stillKind : OpKind → Bool
  | .cache | .spawn | .assign | .ask | .getStep => false
  | _ => true

theorem still_of_kind {o : Op} (ho : stillKind o.kind = true) (n : Thread) (r : Testing) :
    allowed n r o ∧ ∀ x, next r o x = r := by
  cases o with
  | setFlow u =>
    refine ⟨trivial, fun x => ?_⟩
    cases u <;> first | (cases ho; done) | (cases r <;> rfl)
  | ask q =>
    refine ⟨trivial, fun x => ?_⟩
    cases q <;> first | (cases ho; done) | (cases r <;> rfl)
  | getStatusCache | setStatusCache | spawn => cases ho
  | _ => exact ⟨trivial, fun x => by cases r <;> rfl⟩

theorem still_of_kinds {l : List OpKind} (hl : l.all stillKind = true) (n : Thread) (r : Testing) (o : Op)
    (ho : l.contains o.kind = true) : allowed n r o ∧ ∀ x, next r o x = r :=
  still_of_kind (List.all_eq_true.mp hl _ (List.contains_iff_mem.mp ho)) n r

/-- A text of such kinds. -/
theorem skip_kinds {α β : Type} {r : Testing} {l : List OpKind} {p : Prog α} {f : α → Prog β} {Q : β → Testing → Prop}
    (hp : Kinds l p) (hl : l.all stillKind = true) (hf : ∀ a, testing.Spec n (f a) r Q) : testing.Spec n (p >>= f) r Q :=
  Protocol.Spec.skip (still_of_kinds hl n r) hp hf

/-- An executor before it sets the status back, and any thread after it has done with the status, may also ask and assign. -/
theorem idle_of_kind {o : Op} (ho : (o.kind != .cache && o.kind != .spawn) = true) (n : Thread) {r : Testing}
    (hr : r = .running ∨ r = .apart) : allowed n r o ∧ ∀ x, next r o x = r := by
  cases o with
  | getStatusCache | setStatusCache | spawn => cases ho
  | _ => exact ⟨trivial, fun x => by rcases hr with rfl | rfl <;> rfl⟩

theorem idle_kinds {α β : Type} {r : Testing} (hr : r = .running ∨ r = .apart) {l : List OpKind} {p : Prog α} {f : α → Prog β}
    {Q : β → Testing → Prop} (hp : Kinds l p) (hl : (l.all fun k => k != .cache && k != .spawn) = true)
    (hf : ∀ a, testing.Spec n (f a) r Q) : testing.Spec n (p >>= f) r Q :=
  Protocol.Spec.skip (fun _ ho => idle_of_kind (List.all_eq_true.mp hl _ (List.contains_iff_mem.mp ho)) n hr) hp hf

/-- A request is let in, or has no more to do with the status. -/
theorem isChecking_spec : testing.Spec n FirmwareStatusCache.isChecking .request fun b r => r = if b then .apart else .passed := by
  refine ⟨.inl rfl, fun x _ => ?_⟩
  obtain ⟨checking, lastCheckTime⟩ := x
  by_cases hlast : lastCheckTime = -1
  · subst hlast
    cases checking <;> rfl
  · have hread : testing.next n .request .getStatusCache (checking, lastCheckTime) = .read checking lastCheckTime := if_neg hlast
    rw [hread]
    change testing.Spec n (if lastCheckTime ≠ -1 then _ else _) _ _
    rw [if_pos hlast]
    refine ⟨trivial, fun now _ => ?_⟩
    have hnow : testing.next n (.read checking lastCheckTime) (.ask .now) now =
        if letsIn checking lastCheckTime now then .passed else .apart := rfl
    rw [hnow]
    change testing.Spec n (if 300 < (now - lastCheckTime).natAbs then _ else _) _ _
    by_cases hold : 300 < (now - lastCheckTime).natAbs
    · simp [letsIn, hold]
    · cases checking <;> simp [letsIn, hold]

/-- The mode lets a request go on only when it was let in. -/
theorem stepAfterInit_spec : testing.Spec n FirmwareManualCheckMode.getStepAfterInit .request fun step r =>
    step = .complete ∨ (step = .checkStep ∧ r = .passed) := by
  have hrefuse {r : Testing} (hr : r = .passed ∨ r = .apart) (msg : String) (code : Int) (text : String) : testing.Spec n
      (call (.setFlow (.buildError .fail msg)) >>= fun _ => call (.setFlow (.addErrorMessage code text)) >>= fun _ =>
        .ret FirmwareStep.complete) r fun step r => step = .complete ∨ (step = .checkStep ∧ r = .passed) := by
    exact ⟨trivial, fun _ _ => ⟨trivial, fun _ _ => .inl rfl⟩⟩
  refine Protocol.Spec.seq isChecking_spec ?_
  rintro b r rfl
  cases b with
  | true => exact hrefuse (.inr rfl) ..
  | false =>
    refine skip_kinds KindsAux.isUpdateOnStatus_kinds rfl fun b => ?_
    cases b with
    | true => exact hrefuse (.inl rfl) ..
    | false =>
      refine skip_kinds (KindsAux.isNetAvailable_kinds _) rfl fun b => ?_
      cases b with
      | true => exact .inr ⟨rfl, rfl⟩
      | false => exact hrefuse (.inl rfl) ..

/-- After the check the flow is over. -/
theorem stepAfterCheck_returns : FirmwareManualCheckMode.getStepAfterCheck.Returns fun step => step = .complete := by
  intro w
  change Prog.Returns _ (if (_ : Bool) = true then _ else _)
  split
  · rfl
  · refine Prog.Returns.bind (Prog.returns_true _) fun task _ => ?_
    split
    · refine Prog.Returns.bind (Prog.returns_true _) fun _ _ => ?_
      intro b
      change Prog.Returns _ (if (!b) = true then notifyEvent _ _ _ _ >>= _ else _)
      split
      · exact Prog.Returns.bind (Prog.returns_true _) fun _ _ => rfl
      · rfl
    · rfl

/-- Whatever the mode says after the first step, the flow is over. -/
theorem getNextStep_spec {r : Testing} {step : FirmwareStep} (hstep : step ≠ .init) :
    testing.Spec n (getNextStep P .manualCheck step) r fun step r' => step = .complete ∧ r' = r := by
  cases step with
  | init => exact absurd rfl hstep
  | checkStep =>
    exact Protocol.Spec.of_returns (still_of_kinds rfl n r) KindsAux.stepAfterCheck_kinds stepAfterCheck_returns
  | _ => exact ⟨rfl, rfl⟩

/-- What comes after a step: the flow is over, or the executor of the check is started by one that was let in. -/
theorem executeCheck_spec (f : Nat) {r : Testing}
    (hmode : ∀ step, (∀ g, n = .checkExecutor g → step ≠ .init) → testing.Spec n (getNextStep P .manualCheck step) r fun step r =>
      step = .complete ∨ (step = .checkStep ∧ r = .passed)) :
    testing.Spec n (FirmwareFlowManager.execute P f .manualCheck) r fun _ _ => True := by
  simp only [FirmwareFlowManager.execute, Prog.perform_bind]
  refine ⟨by cases r <;> trivial, fun step hstep => ?_⟩
  have hgiven : testing.next n r .getNextStep step = r := by cases r <;> rfl
  rw [hgiven]
  refine Protocol.Spec.seq (hmode step hstep) ?_
  rintro nextStep r' (rfl | ⟨rfl, rfl⟩)
  · refine ⟨trivial, fun _ _ => ⟨trivial, fun _ _ => ?_⟩⟩
    exact (Protocol.Spec.of_uses (still_of_kinds rfl n _) (KindsAux.checkComplete_kinds P)).mono fun _ _ _ => trivial
  · exact ⟨trivial, fun _ _ => ⟨trivial, fun _ _ => ⟨.inl ⟨rfl, rfl⟩, fun _ _ => ⟨fun _ => rfl, fun _ _ => trivial⟩⟩⟩⟩

/-! ## Every thread -/

/-- Every text keeps to the order in which the status is used. -/
theorem conforms (P : Platform) (n : Thread) : testing.Conforms n (body P n) (entry n) := by
  have hother (hn : n.kind ≠ .check) (hentry : entry n = .apart) : testing.Conforms n (body P n) (entry n) := by
    rw [hentry]
    exact (apart_of_filing hn (FilingAux.conforms P n)).mono fun _ _ _ => trivial
  cases n with
  | checkNewVersion f =>
    refine executeCheck_spec f fun step _ => ?_
    by_cases hstep : step = .init
    · subst hstep
      exact stepAfterInit_spec
    · exact (getNextStep_spec hstep).mono fun _ _ h => .inl h.1
  | checkExecutor f =>
    refine idle_kinds (.inl rfl) (KindsAux.doAction_kinds P) rfl ?_
    rintro ⟨status, l⟩
    refine ⟨.inr rfl, fun _ _ => ⟨.inr ⟨rfl, rfl⟩, fun _ _ => ?_⟩⟩
    change testing.Spec _ (FirmwareCheckDataProcessor.setCheckResult P status _ >>= _) .apart _
    refine idle_kinds (.inr rfl) (KindsAux.setCheckResult_kinds P status _) rfl fun _ => ?_
    exact executeCheck_spec f fun step hstep => (getNextStep_spec (hstep f rfl)).mono fun _ _ h => .inl h.1
  | upgrade f o =>
    refine hother ?_ rfl
    simp only [Thread.kind]
    split
    · exact FlowKind.noConfusion
    · split <;> exact FlowKind.noConfusion
  | _ => exact hother FlowKind.noConfusion rfl

end CheckingAux

end UpdateEngine
