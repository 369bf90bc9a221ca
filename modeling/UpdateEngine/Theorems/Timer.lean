import UpdateEngine.Utils.Timer
import Mathlib.Data.List.Induction
import Mathlib.Data.List.Nodup

/-!
# The timers of the table

A timer that was created is held by the slot of its id and then deleted once. Every call but one keeps it so: slot 0 is never given
to a timer and looks free, and free is also what it means that a slot holds the id 0. To deregister the id 0 is to delete a timer
that was never created.
-/

namespace UpdateEngine.Timer

/-- What is to hold over a sequence of calls. -/
structure Consistent (ops : List Op) : Prop where
  slots : ∀ pre, pre <+: ops → ∀ i, ((run pre).timerList i).tid = 0 ∨ ((run pre).timerList i).tid = UInt32.ofNat i
  registered : ∀ pre timeout created, pre ++ [.register timeout created] <+: ops →
    (registerCycleTimerCB (run pre) timeout created).1 = 0 ∨
      ¬ (run pre).Live (registerCycleTimerCB (run pre) timeout created).1
  deregistered : ∀ pre tid deleted, pre ++ [.deregister tid deleted] <+: ops →
    (deregisterCycleTimerCB (run pre) tid deleted).1 = OHOS_SUCCESS → (run pre).Live tid
  deletedOnce : ∀ pre, pre <+: ops → ∀ h, 1 ≤ h → h ≤ (run pre).created →
    (run pre).Holds h ∧ h ∉ (run pre).deletes ∨ ¬ (run pre).Holds h ∧ (run pre).deletes.count h = 1
  deletedOnly : ∀ pre, pre <+: ops → ∀ h ∈ (run pre).deletes, 1 ≤ h ∧ h ≤ (run pre).created

namespace TimerAux

variable {s : State}

/-! ## Slots -/

/-- The number of a slot as an id. -/
theorem ofNat_inj {i j : Fin TIMERLIST_LEN} : UInt32.ofNat i = UInt32.ofNat j ↔ i = j := by
  revert i j
  decide

theorem ofNat_eq_zero {i : Fin TIMERLIST_LEN} : UInt32.ofNat i = 0 ↔ i = 0 := by
  revert i
  decide

theorem ne_zero_of_mem_tail : ∀ i ∈ (List.finRange TIMERLIST_LEN).tail, i ≠ 0 := by decide

/-- What holds of the table after every sequence of calls that does not deregister the id 0. -/
structure Inv (s : State) : Prop where
  zero : s.timerList 0 = {}
  slots : ∀ i, (s.timerList i).tid = 0 ∨ (s.timerList i).tid = UInt32.ofNat i
  held : ∀ i, (s.timerList i).tid ≠ 0 →
    1 ≤ (s.timerList i).timer.timerId ∧ (s.timerList i).timer.timerId ≤ s.created ∧ (s.timerList i).timer.timerId ∉ s.deletes
  apart : ∀ i j, (s.timerList i).tid ≠ 0 → (s.timerList j).tid ≠ 0 →
    (s.timerList i).timer.timerId = (s.timerList j).timer.timerId → i = j
  created : ∀ h, 1 ≤ h → h ≤ s.created → s.Holds h ∨ h ∈ s.deletes
  deleted : ∀ h ∈ s.deletes, 1 ≤ h ∧ h ≤ s.created
  once : s.deletes.Nodup

theorem inv_init : Inv {} where
  zero := rfl
  slots _ := Or.inl rfl
  held i h := absurd rfl h
  apart i _ h := absurd rfl h
  created h h₁ h₂ := by
    have : h ≤ 0 := h₂
    omega
  deleted h hh := by cases hh
  once := List.nodup_nil

/-- What `RegisterCycleTimerCB` does: nothing, or it gives a timer that is created to a free slot other than slot 0. -/
theorem register_cases (s : State) (timeout : UInt32) (created : Bool) :
    registerCycleTimerCB s timeout created = (0, s) ∨
      ∃ i : Fin TIMERLIST_LEN, i ≠ 0 ∧ (s.timerList i).tid = 0 ∧ registerCycleTimerCB s timeout created =
        (UInt32.ofNat i, { s with
          created := s.created + 1
          timerList := Function.update s.timerList i
            { timer := { timeout, timerId := s.created + 1 }, tid := UInt32.ofNat i } }) := by
  unfold registerCycleTimerCB
  cases hf : (List.finRange TIMERLIST_LEN).tail.find? fun i => (s.timerList i).tid = 0 with
  | none => exact Or.inl rfl
  | some i =>
    cases created with
    | false => exact Or.inl (by simp)
    | true =>
      have hfree : (s.timerList i).tid = 0 := by simpa using List.find?_some hf
      exact Or.inr ⟨i, ne_zero_of_mem_tail i (List.mem_of_find?_eq_some hf), hfree, by simp⟩

/-- What `DeregisterCycleTimerCB` does: nothing and it fails, or it frees a slot that holds the id and deletes its timer. -/
theorem deregister_cases (s : State) (tid : UInt32) (deleted : Bool) :
    deregisterCycleTimerCB s tid deleted = (OHOS_FAILURE, s) ∨
      ∃ i : Fin TIMERLIST_LEN, UInt32.ofNat i = tid ∧ (s.timerList i).tid = tid ∧ (deregisterCycleTimerCB s tid deleted).2 =
        { s with
          deletes := s.deletes ++ [(s.timerList i).timer.timerId]
          timerList := Function.update s.timerList i { s.timerList i with tid := 0 } } := by
  unfold deregisterCycleTimerCB
  by_cases h : tid.toNat < TIMERLIST_LEN
  · by_cases hslot : (s.timerList ⟨tid.toNat, h⟩).tid = tid
    · exact Or.inr ⟨⟨tid.toNat, h⟩, by simp, hslot, by simp [h, hslot]⟩
    · exact Or.inl (by simp [h, hslot])
  · exact Or.inl (by simp [h])

/-! ## The calls -/

theorem inv_register (h : Inv s) (timeout : UInt32) (created : Bool) : Inv (registerCycleTimerCB s timeout created).2 := by
  rcases register_cases s timeout created with heq | ⟨i, hne, hfree, heq⟩
  · rw [heq]
    exact h
  · rw [heq]
    have hfresh : s.created + 1 ∉ s.deletes := by
      intro hmem
      have := (h.deleted _ hmem).2
      omega
    have hold (j : Fin TIMERLIST_LEN) (hj : (s.timerList j).tid ≠ 0) : (s.timerList j).timer.timerId ≠ s.created + 1 := by
      have := (h.held j hj).2.1
      omega
    refine ⟨?_, ?_, ?_, ?_, ?_, ?_, h.once⟩
    · dsimp only
      rw [Function.update_of_ne hne.symm]
      exact h.zero
    · intro j
      by_cases hj : j = i
      · subst hj
        simp
      · dsimp only
        rw [Function.update_of_ne hj]
        exact h.slots j
    · intro j
      by_cases hj : j = i
      · subst hj
        simpa using fun _ => hfresh
      · dsimp only
        rw [Function.update_of_ne hj]
        intro hlive
        obtain ⟨h₁, h₂, h₃⟩ := h.held j hlive
        exact ⟨h₁, by omega, h₃⟩
    · intro j k
      by_cases hj : j = i <;> by_cases hk : k = i
      · intro _ _ _
        rw [hj, hk]
      · subst hj
        dsimp only
        rw [Function.update_of_ne hk, Function.update_self]
        intro _ hlive heq
        exact absurd heq.symm (hold k hlive)
      · subst hk
        dsimp only
        rw [Function.update_of_ne hj, Function.update_self]
        intro hlive _ heq
        exact absurd heq (hold j hlive)
      · dsimp only
        rw [Function.update_of_ne hj, Function.update_of_ne hk]
        exact h.apart j k
    · intro t h₁ h₂
      by_cases ht : t = s.created + 1
      · exact Or.inl ⟨i, by simpa using fun h0 => hne (ofNat_eq_zero.mp h0), by simp [ht]⟩
      · rcases h.created t h₁ (by dsimp only at h₂; omega) with ⟨j, hlive, hid⟩ | hmem
        · have hj : j ≠ i := by
            rintro rfl
            exact hlive hfree
          exact Or.inl ⟨j, by simpa [Function.update_of_ne hj] using hlive, by simpa [Function.update_of_ne hj] using hid⟩
        · exact Or.inr hmem
    · intro t ht
      obtain ⟨h₁, h₂⟩ := h.deleted t ht
      exact ⟨h₁, Nat.le_succ_of_le h₂⟩

theorem inv_deregister (h : Inv s) {tid : UInt32} (htid : tid ≠ 0) (deleted : Bool) :
    Inv (deregisterCycleTimerCB s tid deleted).2 := by
  rcases deregister_cases s tid deleted with heq | ⟨i, rfl, hslot, heq⟩
  · rw [heq]
    exact h
  · rw [heq]
    have hlive : (s.timerList i).tid ≠ 0 := by
      rw [hslot]
      exact htid
    obtain ⟨hi₁, hi₂, hi₃⟩ := h.held i hlive
    have hlater (j : Fin TIMERLIST_LEN)
        (hj : (Function.update s.timerList i { s.timerList i with tid := 0 } j).tid ≠ 0) : j ≠ i := by
      rintro rfl
      simp at hj
    refine ⟨?_, ?_, ?_, ?_, ?_, ?_, ?_⟩
    · dsimp only
      rw [Function.update_of_ne (by rintro rfl; exact hlive (by rw [h.zero]))]
      exact h.zero
    · intro j
      by_cases hj : j = i
      · subst hj
        simp
      · dsimp only
        rw [Function.update_of_ne hj]
        exact h.slots j
    · intro j hj
      have hji := hlater j hj
      dsimp only at hj ⊢
      rw [Function.update_of_ne hji] at hj ⊢
      obtain ⟨h₁, h₂, h₃⟩ := h.held j hj
      refine ⟨h₁, h₂, ?_⟩
      simp only [List.mem_append, List.mem_singleton, not_or]
      exact ⟨h₃, fun hid => hji (h.apart j i hj hlive hid)⟩
    · intro j k hj hk
      have hji := hlater j hj
      have hki := hlater k hk
      dsimp only at hj hk ⊢
      rw [Function.update_of_ne hji] at hj ⊢
      rw [Function.update_of_ne hki] at hk ⊢
      exact h.apart j k hj hk
    · intro t h₁ h₂
      by_cases ht : t = (s.timerList i).timer.timerId
      · exact Or.inr (by simp [ht])
      · rcases h.created t h₁ h₂ with ⟨j, hj, hid⟩ | hmem
        · have hji : j ≠ i := by
            rintro rfl
            exact ht hid.symm
          exact Or.inl ⟨j, by simpa [Function.update_of_ne hji] using hj, by simpa [Function.update_of_ne hji] using hid⟩
        · exact Or.inr (List.mem_append_left _ hmem)
    · intro t ht
      rcases List.mem_append.mp ht with hmem | hmem
      · exact h.deleted t hmem
      · obtain rfl := List.mem_singleton.mp hmem
        exact ⟨hi₁, hi₂⟩
    · simpa [List.nodup_append] using ⟨h.once, fun t ht => by rintro rfl; exact hi₃ ht⟩

theorem inv_exit (h : Inv s) : Inv (exitUpdateTimer s) := by
  have hmem (t : Nat) : t ∈ (exitUpdateTimer s).deletes ↔ t ∈ s.deletes ∨ s.Holds t := by
    simp [exitUpdateTimer, State.Holds]
  refine ⟨rfl, fun _ => Or.inl rfl, fun i hi => absurd rfl hi, fun i _ hi => absurd rfl hi, ?_, ?_, ?_⟩
  · intro t h₁ h₂
    exact Or.inr ((hmem t).mpr (h.created t h₁ h₂).symm)
  · intro t ht
    rcases (hmem t).mp ht with hold | ⟨i, hlive, rfl⟩
    · exact h.deleted t hold
    · obtain ⟨h₁, h₂, -⟩ := h.held i hlive
      exact ⟨h₁, h₂⟩
  · refine List.nodup_append.mpr ⟨h.once, ?_, ?_⟩
    · refine List.Nodup.map_on ?_ ((List.nodup_finRange _).filter _)
      intro i hi j hj heq
      exact h.apart i j (by simpa using hi) (by simpa using hj) heq
    · rintro t ht _ hheld rfl
      obtain ⟨i, hi, rfl⟩ := List.mem_map.mp hheld
      exact (h.held i (by simpa using hi)).2.2 ht

/-- After every sequence of calls that does not deregister the id 0: by induction on its last call. -/
theorem inv_run (ops : List Op) (hops : ∀ deleted, Op.deregister 0 deleted ∉ ops) : Inv (run ops) := by
  induction ops using List.reverseRecOn with
  | nil => exact inv_init
  | append_singleton ops op ih =>
    have hold := ih fun deleted hmem => hops deleted (List.mem_append_left _ hmem)
    rw [run, List.foldl_append]
    cases op with
    | register timeout created => exact inv_register hold timeout created
    | deregister tid deleted =>
      refine inv_deregister hold ?_ deleted
      rintro rfl
      exact hops deleted (by simp)
    | exit => exact inv_exit hold

/-! ## Slot 0 -/

theorem zero_apply (op : Op) (h : s.timerList 0 = {}) : (op.apply s).timerList 0 = {} := by
  cases op with
  | register timeout created =>
    show (registerCycleTimerCB s timeout created).2.timerList 0 = {}
    rcases register_cases s timeout created with heq | ⟨i, hne, -, heq⟩
    · rw [heq]
      exact h
    · rw [heq]
      exact (Function.update_of_ne hne.symm _ _).trans h
  | deregister tid deleted =>
    show (deregisterCycleTimerCB s tid deleted).2.timerList 0 = {}
    rcases deregister_cases s tid deleted with heq | ⟨i, -, -, heq⟩
    · rw [heq]
      exact h
    · rw [heq]
      by_cases hi : 0 = i
      · subst hi
        simp [h]
      · exact (Function.update_of_ne hi _ _).trans h
  | exit => rfl

/-- Slot 0 is as it was filled, whatever is called. -/
theorem zero_run (ops : List Op) : (run ops).timerList 0 = {} := by
  induction ops using List.reverseRecOn with
  | nil => rfl
  | append_singleton ops op ih =>
    rw [run, List.foldl_append]
    exact zero_apply op ih

/-- To deregister the id 0 is to delete what slot 0 was filled with. -/
theorem deletes_deregister_zero (h : s.timerList 0 = {}) (deleted : Bool) :
    (Op.apply s (.deregister 0 deleted)).deletes = s.deletes ++ [0] := by
  show (deregisterCycleTimerCB s 0 deleted).2.deletes = _
  simp [deregisterCycleTimerCB, h]

/-! ## What holds of a table of which the invariant holds -/

theorem Inv.not_live_of_free (h : Inv s) {i : Fin TIMERLIST_LEN} (hfree : (s.timerList i).tid = 0) :
    ¬ s.Live (UInt32.ofNat i) := by
  rintro ⟨hne, j, hj⟩
  rcases h.slots j with h0 | hid
  · exact hne (hj.symm.trans h0)
  · obtain rfl : j = i := ofNat_inj.mp (hid.symm.trans hj)
    exact hne (hj.symm.trans hfree)

theorem Inv.deleted_once (h : Inv s) {t : Nat} (h₁ : 1 ≤ t) (h₂ : t ≤ s.created) :
    s.Holds t ∧ t ∉ s.deletes ∨ ¬ s.Holds t ∧ s.deletes.count t = 1 := by
  by_cases hmem : t ∈ s.deletes
  · refine Or.inr ⟨?_, List.count_eq_one_of_mem h.once hmem⟩
    rintro ⟨i, hlive, rfl⟩
    exact (h.held i hlive).2.2 hmem
  · exact Or.inl ⟨(h.created t h₁ h₂).resolve_right hmem, hmem⟩

end TimerAux

open TimerAux

/-- `GetTimerById`, by which a timer is started and stopped, finds the live ids. -/
theorem getTimerById_isSome_iff (s : State) (tid : UInt32) : (getTimerById s tid).isSome = true ↔ s.Live tid := by
  by_cases h : tid = 0 <;> simp [getTimerById, State.Live, h, List.find?_isSome]

/-- The table is consistent over a sequence of calls exactly when none of them deregisters the id 0. -/
theorem consistent_iff (ops : List Op) : Consistent ops ↔ ∀ deleted, Op.deregister 0 deleted ∉ ops := by
  constructor
  · intro h deleted hmem
    obtain ⟨pre, post, rfl⟩ := List.append_of_mem hmem
    have hrun : run (pre ++ [.deregister 0 deleted]) = Op.apply (run pre) (.deregister 0 deleted) := by
      simp [run, List.foldl_append]
    have hzero := h.deletedOnly (pre ++ [.deregister 0 deleted]) (by simp) 0 (by
      rw [hrun, deletes_deregister_zero (zero_run pre)]
      simp)
    omega
  · intro h
    have hinv {pre : List Op} (hpre : pre <+: ops) : Inv (run pre) := inv_run pre fun deleted hmem => h deleted (hpre.subset hmem)
    have hbefore {pre : List Op} {op : Op} (hpre : pre ++ [op] <+: ops) : Inv (run pre) :=
      hinv ((List.prefix_append _ _).trans hpre)
    refine ⟨fun pre hpre => (hinv hpre).slots, ?_, ?_, fun pre hpre t => (hinv hpre).deleted_once,
      fun pre hpre => (hinv hpre).deleted⟩
    · intro pre timeout created hpre
      rcases register_cases (run pre) timeout created with heq | ⟨i, -, hfree, heq⟩
      · exact Or.inl (by rw [heq])
      · refine Or.inr ?_
        rw [heq]
        exact (hbefore hpre).not_live_of_free hfree
    · intro pre tid deleted hpre hsuccess
      rcases deregister_cases (run pre) tid deleted with heq | ⟨i, -, hslot, -⟩
      · rw [heq] at hsuccess
        have hfailure : OHOS_FAILURE ≠ OHOS_SUCCESS := by decide
        exact absurd hsuccess hfailure
      · refine ⟨?_, i, hslot⟩
        rintro rfl
        exact h deleted (hpre.subset (by simp))

/-- The id 0 is deregistered with success from an empty table. -/
theorem deregistered_zero : ¬ Consistent [.deregister 0 true] := by
  intro h
  have hlive := h.deregistered [] 0 true (List.prefix_refl _) (by decide)
  exact hlive.1 rfl

end UpdateEngine.Timer
