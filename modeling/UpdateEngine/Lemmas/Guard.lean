import UpdateEngine.Lemmas.FlowsAux

/-!
# Guards by the stored status

Downloads and installations exclude each other in the same way: a mode lets its flow go on only from certain stored statuses, and the
flow itself writes another status later, from another thread. The guard holds on the runs on which no request falls into the window
between the two, and nobody else writes such a status while a flow is at work.
-/

namespace UpdateEngine

open Concurrent StepAux FlowsAux

/-- The read by which the mode of a request decides. -/
def Thread.asks (n : Thread) (c : Caller) : Prop :=
  (c = .downloadMode ∧ n.isDownload = true) ∨ ∃ o, c = .installApplyMode o ∧ n.order = some o

/-- A guard by the stored status: the flows it is for, and the statuses from which their mode lets them go on. -/
structure Guard where
  kind : FlowKind
  opens : UpgradeStatus → Bool
  not_check : kind ≠ .check
  mode : ∀ (n : Thread) (c : Caller) t, n.kind = kind → n.asks c → c.admits t = true → opens t = true
  recovery : kind = .install → opens .downloadSuccess = true

namespace Guard

variable (G : Guard)

/-- The last change a flow made to the task table left no status that opens the guard. -/
def settled (j : Journal) : Bool := j.recorded.any fun rec => !(statusOf rec).any G.opens

/-- Whether an operation gives a task a status that opens the guard. -/
def unlocks : Op → Bool
  | .insertTask t => G.opens t.status
  | .updateTasks _ _ (.progress st _) => G.opens st
  | _ => false

/-- Whether every thread at work for another accepted flow of the kind belongs to one whose journal passes a test. -/
def others (c : Config) (n : Thread) (p : Journal → Bool) : Bool :=
  c.all fun m => m.flow = n.flow || m.kind ≠ G.kind || !(c.state.journals m.flow).admitted || p (c.state.journals m.flow)

/-- A flow is accepted only when every other accepted one that is at work has settled, and a status that opens the guard is written
only when no other accepted flow is at work. -/
def kept (c : Config) : Action → Bool
  | .start _ => true
  | .run n _ => match c.next n with
    | some o => (n.kind ≠ G.kind || !admits c.state o || G.others c n G.settled) && (!G.unlocks o || G.others c n fun _ => false)
    | none => true

/-! ## Roles -/

/-- The roles of a thread whose flow has been accepted and goes on. -/
def engaged : Role → Bool
  | .accepted | .ready | .download _ | .install _ | .performing _ | .installed | .dropped => true
  | _ => false

/-- The mode of a flow that is a request still, or the recovery. -/
def undecided : Role → Bool
  | .request | .recovering => true
  | _ => false

variable {G} {P : Platform} {n : Thread} {r : Role} {o : Op} {x : o.Res}

/-- A thread comes to be engaged by the read of its mode. -/
theorem engaged_next (ha : Outline.allowed P n r o) (hc : n.kind ≠ .check) (h : engaged (Outline.next n r o x) = true) :
    engaged r = true ∨ ∃ c, o = .queryTasks c ∧ n.asks c ∧
      ∀ a s, o.answer n a s = some x → (s.status.any fun t => c.admits t) = true := by
  have hread {c : Caller} {tasks : List FirmwareTask} (h : engaged (Outline.decide c tasks) = true) :
      (tasks.head?.any fun t => c.admits t.status) = true := by
    unfold Outline.decide at h
    split at h
    · assumption
    · cases h
  rcases next_cases ha x with ⟨w, rfl, -⟩ | ⟨-, hn⟩ | ⟨-, hmove, hn⟩
  · exact .inl rfl
  · exact .inl (hn ▸ h)
  · rw [hn] at h
    cases hmove with
    | downloadMode hd =>
      refine .inr ⟨_, rfl, .inl ⟨rfl, hd⟩, fun a s hx => ?_⟩
      rw [status_any, Option.some.inj hx]
      exact hread h
    | installApplyMode hr ho =>
      refine .inr ⟨_, rfl, .inr ⟨_, rfl, ho⟩, fun a s hx => ?_⟩
      rw [status_any, Option.some.inj hx]
      exact hread h
    | hasUndoneTask =>
      simp only [Outline.nextRole] at h
      split at h <;> cases h
    | step hs =>
      obtain ⟨-, ⟨rfl, -⟩ | rfl | rfl | ⟨rfl, f, rfl⟩ | ⟨-, hp, -⟩⟩ := hs
      · exact .inl rfl
      · cases h
      · cases h
      · exact absurd rfl hc
      · cases r <;> first | exact .inl rfl | exact (Bool.false_ne_true h).elim | cases hp
    | clear | record => cases r <;> first | exact .inl rfl | cases h
    | clearing hcl =>
      rw [nextRole_clearing hcl] at h
      cases h
    | handled hh => rcases hh with rfl | rfl <;> cases h
    | start => cases h
    | components | callback | perform | performEnd => exact .inl rfl

/-- A thread that has not decided was so before. -/
theorem undecided_next (ha : Outline.allowed P n r o) (h : undecided (Outline.next n r o x) = true) :
    Outline.next n r o x = r ∧ o ≠ .deleteTasks := by
  rcases next_cases ha x with ⟨w, -, hn⟩ | ⟨hm, hn⟩ | ⟨-, hmove, hn⟩
  · rw [hn] at h
    cases h
  · exact ⟨hn, by rintro rfl; cases hm⟩
  · rw [hn] at h ⊢
    cases hmove with
    | downloadMode hd =>
      simp only [Outline.nextRole, Outline.decide] at h
      split at h <;> cases h
    | installApplyMode hr ho =>
      simp only [Outline.nextRole, Outline.decide] at h
      split at h <;> cases h
    | hasUndoneTask =>
      simp only [Outline.nextRole] at h
      split at h <;> cases h
    | clear hd => cases r <;> first | exact (Bool.false_ne_true h).elim | exact hd.elim
    | record => cases r <;> first | exact ⟨rfl, fun h => by cases h⟩ | cases h
    | step => cases r <;> first | exact ⟨rfl, fun h => by cases h⟩ | cases h
    | clearing hcl =>
      rw [nextRole_clearing hcl] at h
      cases h
    | handled hh => rcases hh with rfl | rfl <;> cases h
    | start | components | callback | perform | performEnd => cases h

theorem undecided_entering (h : undecided r = true) : r.entering = true := by
  cases r <;> first | rfl | cases h

/-- The read of a mode comes from a request, or the recovery, that has not decided. -/
theorem undecided_of_admits {s : State} (ha : Outline.allowed P n r o) (ho : admits s o = true) :
    undecided r = true ∧ ∃ c, o = .queryTasks c ∧ n.asks c := by
  cases o with
  | queryTasks c =>
    cases c with
    | downloadMode =>
      obtain ⟨rfl, hd⟩ := ha
      exact ⟨rfl, _, rfl, .inl ⟨rfl, hd⟩⟩
    | installApplyMode order =>
      obtain ⟨hr, ho⟩ := ha
      exact ⟨by rcases hr with rfl | rfl <;> rfl, _, rfl, .inr ⟨_, rfl, ho⟩⟩
    | _ => simp [admits, Caller.admits] at ho
  | _ => cases ho

/-! ## The invariant -/

/-- The flows of the kind on a run on which the guard holds. -/
structure Kept (G : Guard) (s : State) (ρ : Thread → Option Role) : Prop where
  admitted : ∀ n r, ρ n = some r → n.kind = G.kind → engaged r = true → (s.journals n.flow).admitted = true
  one : ∀ n r m r', ρ n = some r → n.kind = G.kind → engaged r = true → ρ m = some r' → m.kind = G.kind → engaged r' = true →
    n.flow = m.flow
  unsettled : ∀ n r, ρ n = some r → n.kind = G.kind → undecided r = true → G.settled (s.journals n.flow) = false
  shut : ∀ n r, ρ n = some r → n.kind = G.kind → (s.journals n.flow).admitted = true →
    G.settled (s.journals n.flow) = true → s.status.any G.opens = false

theorem engaged_entry (hn : (Outline.entry n).past = false) : engaged (Outline.entry n) = false := by
  cases n <;> first | rfl | cases hn

/-- A start keeps the invariant: a request has not done anything, a callback finds its installer at work. -/
theorem kept_start {s s' : State} {ρ : Thread → Option Role} (hF : Flows s ρ) (hJ : Kept G s ρ) (hs : starts n s = some s') :
    Kept G s' (Function.update ρ n (some (Outline.entry n))) := by
  rcases starts_cases hs with ⟨hf, rfl, hp⟩ | ⟨rfl, he, hc, hk⟩
  · have hj : s.journals n.flow = {} := (hF.fresh n.flow (Nat.le_of_eq hf.symm)).2
    have hold {m : Thread} {r : Role} (hm : Function.update ρ n (some (Outline.entry n)) m = some r) (hr : engaged r = true) :
        ρ m = some r := by
      rcases Protocol.role_update hm with ⟨rfl, rfl⟩ | ⟨-, hm⟩
      · exact absurd hr (by simp [engaged_entry hp])
      · exact hm
    refine ⟨fun m r hm hmk hr => hJ.admitted m r (hold hm hr) hmk hr,
      fun m r k r' hm hmk hr hk hkk hr' => hJ.one m r k r' (hold hm hr) hmk hr (hold hk hr') hkk hr', fun m r hm hmk hr => ?_,
      fun m r hm hmk hadm hset => ?_⟩
    · rcases Protocol.role_update hm with ⟨rfl, -⟩ | ⟨-, hm⟩
      · show G.settled (s.journals m.flow) = false
        rw [hj]
        rfl
      · exact hJ.unsettled m r hm hmk hr
    · rcases Protocol.role_update hm with ⟨rfl, -⟩ | ⟨-, hm⟩
      · exact absurd hadm (by simp [hj])
      · exact hJ.shut m r hm hmk hadm hset
  · obtain ⟨l, hl, hlf⟩ := hF.captured n.flow hc
    have hlk : l.kind = n.kind := by rw [hk, kind_of_performing (hF.plays l _ hl)]
    -- every thread of the kind is, or stands for, one that was there before
    have hold {m : Thread} {r : Role} (hm : Function.update ρ n (some (Outline.entry n)) m = some r) :
        ∃ k r', ρ k = some r' ∧ k.flow = m.flow ∧ k.kind = m.kind ∧ (engaged r = true → engaged r' = true) := by
      rcases Protocol.role_update hm with ⟨rfl, rfl⟩ | ⟨-, hm⟩
      · exact ⟨l, _, hl, hlf, hlk, fun _ => rfl⟩
      · exact ⟨m, r, hm, rfl, rfl, id⟩
    refine ⟨fun m r hm hmk hr => ?_, fun m r k r' hm hmk hr hk hkk hr' => ?_, fun m r hm hmk hr => ?_,
      fun m r hm hmk hadm hset => ?_⟩
    · obtain ⟨k, r', hk, hkf, hkk, hke⟩ := hold hm
      rw [← hkf]
      exact hJ.admitted k r' hk (hkk.trans hmk) (hke hr)
    · obtain ⟨i, ri, hi, hif, hik, hie⟩ := hold hm
      obtain ⟨j, rj, hj, hjf, hjk, hje⟩ := hold hk
      rw [← hif, ← hjf]
      exact hJ.one i ri j rj hi (hik.trans hmk) (hie hr) hj (hjk.trans hkk) (hje hr')
    · rcases Protocol.role_update hm with ⟨rfl, rfl⟩ | ⟨-, hm⟩
      · exact absurd hr (by simp [he, undecided])
      · exact hJ.unsettled m r hm hmk hr
    · obtain ⟨k, r', hk, hkf, hkk, -⟩ := hold hm
      rw [← hkf] at hadm hset
      exact hJ.shut k r' hk (hkk.trans hmk) hadm hset

/-- Starting an executor keeps the invariant: it goes on for the thread that starts it. -/
theorem kept_spawn {s : State} {ρ : Thread → Option Role} {m : Thread} (hJ : Kept G s ρ) (hr : ρ n = some r)
    (ha : Outline.allowed P n r (.spawn m)) :
    Kept G s (Function.update (Function.update ρ n (some (Outline.next n r (.spawn m) ()))) m (some (Outline.entry m))) := by
  obtain ⟨hmf, -, hme, -, -, hmk⟩ := spawns_cases ha
  have hre : engaged r = true := by
    rcases ha with ⟨rfl, -⟩ | ⟨_, _, _, _, _, _, -, rfl, -⟩ <;> rfl
  have hold {k : Thread} {r' : Role}
      (hk : Function.update (Function.update ρ n (some (Outline.next n r (.spawn m) ()))) m (some (Outline.entry m)) k =
        some r') :
      ∃ j r'', ρ j = some r'' ∧ j.flow = k.flow ∧ j.kind = k.kind ∧ (engaged r' = true → engaged r'' = true) ∧
        (undecided r' = true → j = k ∧ undecided r'' = true) := by
    rcases Protocol.role_update hk with ⟨rfl, rfl⟩ | ⟨-, hk⟩
    · refine ⟨n, r, hr, hmf.symm, hmk.symm, fun _ => hre, fun h => ?_⟩
      exact absurd (undecided_entering h) (by simp [hme])
    · rcases Protocol.role_update hk with ⟨rfl, rfl⟩ | ⟨-, hk⟩
      · refine ⟨k, r, hr, rfl, rfl, fun _ => hre, fun h => ?_⟩
        exact ⟨rfl, (undecided_next ha h).1 ▸ h⟩
      · exact ⟨k, r', hk, rfl, rfl, id, fun h => ⟨rfl, h⟩⟩
  refine ⟨fun k r' hk hkk he => ?_, fun k r' l r'' hk hkk he hl hlk he' => ?_, fun k r' hk hkk hu => ?_,
    fun k r' hk hkk hadm hset => ?_⟩
  · obtain ⟨j, rj, hj, hjf, hjk, hje, -⟩ := hold hk
    rw [← hjf]
    exact hJ.admitted j rj hj (hjk.trans hkk) (hje he)
  · obtain ⟨i, ri, hi, hif, hik, hie, -⟩ := hold hk
    obtain ⟨j, rj, hj, hjf, hjk, hje, -⟩ := hold hl
    rw [← hif, ← hjf]
    exact hJ.one i ri j rj hi (hik.trans hkk) (hie he) hj (hjk.trans hlk) (hje he')
  · obtain ⟨j, rj, hj, -, -, -, hju⟩ := hold hk
    obtain ⟨rfl, hu'⟩ := hju hu
    exact hJ.unsettled j rj hj hkk hu'
  · obtain ⟨j, rj, hj, hjf, hjk, -, -⟩ := hold hk
    rw [← hjf] at hadm hset
    exact hJ.shut j rj hj (hjk.trans hkk) hadm hset

/-- What other flows are known by when a status that opens the guard is found or written. -/
theorem others_of_kept {c : Config} {a : Answer} (hok : G.kept c (.run n a) = true) (hn : c.next n = some o) {p : Journal → Bool}
    (hp : (n.kind = G.kind ∧ admits c.state o = true ∧ p = G.settled) ∨ (G.unlocks o = true ∧ p = fun _ => false))
    {m : Thread} (hm : c.live m = true) (hmf : m.flow ≠ n.flow) (hmk : m.kind = G.kind)
    (hadm : (c.state.journals m.flow).admitted = true) : p (c.state.journals m.flow) = true := by
  simp only [kept, hn, Bool.and_eq_true, Bool.or_eq_true] at hok
  have hothers : G.others c n p = true := by
    rcases hp with ⟨hk, ho, rfl⟩ | ⟨ho, rfl⟩
    · simpa [hk, ho] using hok.1
    · simpa [ho] using hok.2
  simpa [hmf, hmk, hadm] using Config.all_eq_true.mp hothers m hm

/-- The last change of the task table, after an operation. -/
theorem settled_after {s : State} (f : Nat) :
    G.settled ((o.after n s x).journals f) = if f = n.flow then match recordsOf s o with
      | some rec => !(statusOf rec).any G.opens
      | none => G.settled (s.journals f)
    else G.settled (s.journals f) := by
  rw [after_journals]
  split
  · simp only [settled, noteOf_recorded]
    cases recordsOf s o <;> rfl
  · rfl

/-- A change that leaves a status that opens the guard is one the condition is about. -/
theorem unlocks_of_recordsOf {s : State} {rec : Recorded} (h : recordsOf s o = some rec) (hs : (statusOf rec).any G.opens = true) :
    G.unlocks o = true := by
  cases o with
  | updateTasks c i u =>
    cases u with
    | progress st p =>
      simp only [recordsOf, Option.ite_none_right_eq_some, Option.some.injEq] at h
      rw [← h.2] at hs
      exact hs
    | _ => cases h
  | deleteTasks =>
    cases h
    cases hs
  | _ => cases h

/-- A request changes no status; the recovery writes that the download succeeded. -/
theorem recordsOf_undecided {s : State} {rec : Recorded} (ha : Outline.allowed P n r o) (hu : undecided r = true)
    (ho : o ≠ .deleteTasks) (h : recordsOf s o = some rec) : r = .recovering ∧ rec = .status .downloadSuccess := by
  cases o with
  | updateTasks c i u =>
    cases u with
    | progress st p =>
      simp only [recordsOf, Option.ite_none_right_eq_some, Option.some.injEq] at h
      cases r <;> first | exact (Bool.false_ne_true hu).elim | skip
      · exact ha.elim
      · exact ⟨rfl, by rw [← h.2, ha.2]⟩
    | _ => cases h
  | deleteTasks => exact absurd rfl ho
  | _ => cases h

theorem kind_of_recovering (h : plays n .recovering = true) : n.kind = .install := by
  cases n <;> first | rfl | cases h

/-- A row is added by a check. -/
theorem check_of_insertsOf {s : State} {st : UpgradeStatus} (ha : Outline.allowed P n r o) (hp : plays n r = true)
    (h : insertsOf s o = some st) : n.kind = .check ∧ ∀ G : Guard, G.opens st = true → G.unlocks o = true := by
  cases o with
  | insertTask t =>
    obtain ⟨rfl, -⟩ := ha
    simp only [insertsOf, Option.ite_none_right_eq_some, Option.some.injEq] at h
    refine ⟨?_, fun G hs => ?_⟩
    · cases n <;> first | rfl | cases hp
    · rw [← h.2] at hs
      exact hs
  | _ => cases h

/-- An operation keeps the invariant. -/
theorem kept_run {c : Config} {ρ : Thread → Option Role} {a : Answer} (hρ : (outline P).Tracks c ρ) (hF : Flows c.state ρ)
    (hJ : Kept G c.state ρ) (hok : G.kept c (.run n a) = true) (hn : c.next n = some o) (hr : ρ n = some r)
    (ha : Outline.allowed P n r o) (hx : o.answer n a c.state = some x) :
    Kept G (o.after n c.state x) (Function.update ρ n (some (Outline.next n r o x))) := by
  have hlive {m : Thread} {r' : Role} (hm : ρ m = some r') : c.live m = true := (hρ.live_iff m).mpr (by simp [hm])
  have hmono {f : Nat} (h : (c.state.journals f).admitted = true) : ((o.after n c.state x).journals f).admitted = true := by
    rw [after_journals]
    split
    · simp [noteOf_admitted, h]
    · exact h
  -- an engaged thread was engaged before, or its mode has just read a status that opens the guard
  have hengaged {m : Thread} {r' : Role} (hm : Function.update ρ n (some (Outline.next n r o x)) m = some r')
      (hk : m.kind = G.kind) (he : engaged r' = true) :
      (∃ r'', ρ m = some r'' ∧ engaged r'' = true) ∨
        (m = n ∧ admits c.state o = true ∧ (c.state.status.any G.opens) = true) := by
    rcases Protocol.role_update hm with ⟨rfl, rfl⟩ | ⟨-, hm⟩
    · rcases engaged_next ha (hk ▸ G.not_check) he with he | ⟨caller, rfl, hc, hs⟩
      · exact .inl ⟨r, hr, he⟩
      · refine .inr ⟨rfl, hs a c.state hx, ?_⟩
        obtain ⟨st, hst, hadm⟩ := (Option.any_eq_true ..).mp (hs a c.state hx)
        exact (Option.any_eq_true ..).mpr ⟨st, hst, G.mode m caller st hk hc hadm⟩
    · exact .inl ⟨r', hm, he⟩
  have hold {m : Thread} {r' : Role} (hm : Function.update ρ n (some (Outline.next n r o x)) m = some r') :
      ∃ r'', ρ m = some r'' := by
    rcases Protocol.role_update hm with ⟨rfl, -⟩ | ⟨-, hm⟩
    · exact ⟨r, hr⟩
    · exact ⟨r', hm⟩
  refine ⟨fun m r' hm hk he => ?_, fun m r' k r'' hm hmk he hk hkk he' => ?_, fun m r' hm hk hu => ?_,
    fun m r' hm hk hadm hset => ?_⟩
  · rcases hengaged hm hk he with ⟨rm, hm, he⟩ | ⟨rfl, ho, -⟩
    · exact hmono (hJ.admitted m rm hm hk he)
    · rw [after_journals, if_pos rfl, noteOf_admitted, ho, Bool.or_true]
  · -- a flow that has just been accepted is alone: any other one at work has settled, and would have shut the guard
    have halone {m : Thread} {rm : Role} (hm : ρ m = some rm) (hmk : m.kind = G.kind) (he : engaged rm = true)
        (hnk : n.kind = G.kind) (ho : admits c.state o = true) (hs : (c.state.status.any G.opens) = true) : m.flow = n.flow := by
      by_contra hmf
      have hadm := hJ.admitted m rm hm hmk he
      have hset := others_of_kept hok hn (.inl ⟨hnk, ho, rfl⟩) (hlive hm) hmf hmk hadm
      exact absurd hs (by simp [hJ.shut m rm hm hmk hadm hset])
    rcases hengaged hm hmk he with ⟨rm, hm', hme⟩ | ⟨rfl, ho, hs⟩
    · rcases hengaged hk hkk he' with ⟨rk, hk', hke⟩ | ⟨rfl, ho, hs⟩
      · exact hJ.one m rm k rk hm' hmk hme hk' hkk hke
      · exact halone hm' hmk hme hkk ho hs
    · rcases hengaged hk hkk he' with ⟨rk, hk', hke⟩ | ⟨rfl, -, -⟩
      · exact (halone hk' hkk hke hmk ho hs).symm
      · rfl
  · rcases Protocol.role_update hm with ⟨rfl, rfl⟩ | ⟨hmn, hm⟩
    · obtain ⟨hnext, hdel⟩ := undecided_next ha hu
      rw [hnext] at hu
      rw [settled_after, if_pos rfl]
      cases hrec : recordsOf c.state o with
      | none => exact hJ.unsettled m r hr hk hu
      | some rec =>
        obtain ⟨rfl, rfl⟩ := recordsOf_undecided ha hu hdel hrec
        have hkind : G.kind = .install := hk.symm.trans (kind_of_recovering (hF.plays m _ hr))
        simp [statusOf, G.recovery hkind]
    · have hmf : m.flow ≠ n.flow := fun h => hmn (hF.alone m r' n r hm (undecided_entering hu) hr h.symm).symm
      rw [after_journals, if_neg hmf]
      exact hJ.unsettled m r' hm hk hu
  · obtain ⟨rm, hm'⟩ := hold hm
    have hadm' : (c.state.journals m.flow).admitted = true ∨ (m.flow = n.flow ∧ admits c.state o = true) := by
      rw [after_journals] at hadm
      split at hadm
      · rename_i hmf
        rw [noteOf_admitted, Bool.or_eq_true] at hadm
        exact hadm.imp id fun h => ⟨hmf, h⟩
      · exact .inl hadm
    -- nobody gives the row a status that opens the guard while another flow of the kind is at work
    have hunlock (hu : G.unlocks o = true) : m.flow = n.flow := by
      by_contra hmf
      have := others_of_kept hok hn (.inr ⟨hu, rfl⟩) (hlive hm') hmf hk (hadm'.resolve_right fun h => hmf h.1)
      cases this
    rw [settled_after] at hset
    rw [after_status]
    cases hrec : recordsOf c.state o with
    | some rec =>
      rw [hrec] at hset
      by_contra hs
      have hs : (statusOf rec).any G.opens = true := by simpa using hs
      rw [if_pos (hunlock (unlocks_of_recordsOf hrec hs))] at hset
      simp [hs] at hset
    | none =>
      have hset' : G.settled (c.state.journals m.flow) = true := by simpa [hrec] using hset
      cases hins : insertsOf c.state o with
      | some st =>
        by_contra hs
        obtain ⟨hcheck, hu⟩ := check_of_insertsOf ha (hF.plays n r hr) hins
        have hmf := hunlock (hu G (by simpa using hs))
        exact G.not_check (hk.symm.trans ((hF.kind m rm n r hm' hr hmf).trans hcheck))
      | none =>
        rcases hadm' with hadm' | ⟨hmf, ho⟩
        · exact hJ.shut m rm hm' hk hadm' hset'
        · obtain ⟨hu, -⟩ := undecided_of_admits ha ho
          obtain rfl : m = n := hF.alone n r m rm hr (undecided_entering hu) hm' hmf
          rw [hJ.unsettled m r hr hk hu] at hset'
          cases hset'

/-- On the runs on which the guard is kept, `Kept` is an invariant. -/
theorem invariant (G : Guard) (P : Platform) (d : Store) : Invariant P d (fun c a => G.kept c a = true) (Kept G) where
  init := ⟨fun _ _ h => (by cases h), fun _ _ _ _ h => (by cases h), fun _ _ h => (by cases h), fun _ _ h => (by cases h)⟩
  start := fun _ _ _ _ _ hF hJ _ _ hs => kept_start hF hJ hs
  run := fun _ _ _ _ _ _ _ hρ hF hJ hok hn hr ha _ _ hx _ => kept_run hρ hF hJ hok hn hr ha hx
  spawn := fun _ _ _ _ _ _ _ _ hJ _ _ hr ha _ _ => kept_spawn hJ hr ha
  retire := fun s ρ n r hJ _ _ =>
    ⟨fun m r' hm => hJ.admitted m r' (Protocol.role_retire hm).2,
      fun m r' k r'' hm hmk he hk => hJ.one m r' k r'' (Protocol.role_retire hm).2 hmk he (Protocol.role_retire hk).2,
      fun m r' hm => hJ.unsettled m r' (Protocol.role_retire hm).2, fun m r' hm => hJ.shut m r' (Protocol.role_retire hm).2⟩

end Guard

end UpdateEngine
