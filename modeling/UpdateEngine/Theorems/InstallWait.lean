import Mathlib.Data.Nat.Find
import UpdateEngine.Concurrent.Trace
import UpdateEngine.Firmware.InstallWait
import UpdateEngine.Firmware.Lives

/-!
# How long the system installer is waited for

The loop counts its polls in 32 bits and compares inclusively. With the largest timeout the comparison never fails.
-/

namespace UpdateEngine

open Concurrent SysInstallerInstall

/-- The wait is over within the timeout and one more poll, and it is a success when a poll reads that the installation is complete
before one reads that it has failed. -/
def WaitsInTime (configTime : UInt32) (observe : Nat → Progress) : Prop :=
  ∃ polls result, WaitReturns configTime observe polls result ∧ polls ≤ configTime.toNat + 1 ∧
    (result = true ↔ ∃ i ≤ configTime.toNat, (observe i).isInstalled = true ∧ ∀ j < i, (observe j).status ≠ .installFail)

/-- A progress that ends the wait. -/
def Progress.decides (p : Progress) : Bool := p.status = .installFail || p.isInstalled

namespace InstallWaitAux

variable {configTime : UInt32} {observe : Nat → Progress} {w w' : Waiting} {i n polls : Nat}

/-- The variables before the poll `i`. -/
def waiting (i : Nat) : Waiting := { timeout := UInt32.ofNat i, polls := i }

/-- A poll that does not end the wait. -/
theorem round_of_undecided (ht : UInt32.ofNat i ≤ configTime) (h : (observe i).decides = false) :
    waitRound configTime observe (waiting i) = some (waiting (i + 1)) := by
  have hfail : (observe i).status ≠ .installFail := by
    intro hfail
    simp [Progress.decides, hfail] at h
  have hdone : (observe i).isInstalled = false := by
    simpa [Progress.decides, hfail] using h
  have hround : waitRound configTime observe (waiting i) = some { waiting i with timeout := UInt32.ofNat i + 1, polls := i + 1 } := by
    simp [waitRound, waiting, ht, hfail, hdone]
  rw [hround, waiting, waiting, UInt32.ofNat_add]
  rfl

/-- A poll that ends it. -/
theorem round_of_decided (ht : UInt32.ofNat i ≤ configTime) (h : (observe i).decides = true) :
    waitRound configTime observe (waiting i) =
      some { waiting i with polls := i + 1, result := some (observe i).isInstalled } := by
  by_cases hfail : (observe i).status = .installFail
  · have hdone : (observe i).isInstalled = false := by simp [Progress.isInstalled, hfail]
    simp [waitRound, waiting, ht, hfail, hdone]
  · have hdone : (observe i).isInstalled = true := by simpa [Progress.decides, hfail] using h
    simp [waitRound, waiting, ht, hfail, hdone]

/-- The counter has not wrapped. -/
theorem ofNat_le (h : i ≤ configTime.toNat) : UInt32.ofNat i ≤ configTime := by
  rw [UInt32.le_iff_toNat_le, UInt32.toNat_ofNat_of_lt' (Nat.lt_of_le_of_lt h configTime.toNat_lt)]
  exact h

/-- The wait gets to a poll that no earlier poll has decided. -/
theorem ends_iff_waiting (hn : n ≤ configTime.toNat + 1) (h : ∀ i < n, (observe i).decides = false) :
    Loop.Ends (waitRound configTime observe) {} w ↔ Loop.Ends (waitRound configTime observe) (waiting n) w :=
  Loop.ends_iff_of_states waiting n fun i hi => round_of_undecided (ofNat_le (by omega)) (h i hi)

/-- The least poll that decides the wait ends it. -/
theorem returns_of_decided (hn : n ≤ configTime.toNat) (h : ∀ i < n, (observe i).decides = false) (hd : (observe n).decides = true) :
    WaitReturns configTime observe (n + 1) (observe n).isInstalled := by
  refine ⟨{ waiting n with polls := n + 1, result := some (observe n).isInstalled }, ?_, rfl, rfl⟩
  rw [ends_iff_waiting (by omega) h, Loop.ends_step_iff (round_of_decided (ofNat_le hn) hd)]
  exact Loop.ends_of_none rfl

/-- Unless the timeout is the largest number, the counter ends the loop. -/
theorem round_of_timeout (hmax : configTime.toNat ≠ 4294967295) :
    waitRound configTime observe (waiting (configTime.toNat + 1)) = none := by
  have hsize : configTime.toNat < 4294967296 := configTime.toNat_lt
  have hgt : ¬ UInt32.ofNat (configTime.toNat + 1) ≤ configTime := by
    have hlt : configTime.toNat + 1 < UInt32.size := by
      change configTime.toNat + 1 < 4294967296
      omega
    rw [UInt32.le_iff_toNat_le, UInt32.toNat_ofNat_of_lt' hlt]
    omega
  simp only [waitRound, waiting, Option.isSome_none, Bool.false_eq_true, if_false]
  exact if_neg hgt

/-- Where no poll decides the wait, it takes all the polls there are. -/
theorem returns_of_timeout (hmax : configTime.toNat ≠ 4294967295) (h : ∀ i ≤ configTime.toNat, (observe i).decides = false) :
    WaitReturns configTime observe (configTime.toNat + 1) false := by
  refine ⟨waiting (configTime.toNat + 1), ?_, rfl, rfl⟩
  rw [ends_iff_waiting (Nat.le_refl _) fun i hi => h i (by omega)]
  exact Loop.ends_of_none (round_of_timeout hmax)

theorem polls_of_round (h : waitRound configTime observe w = some w') : w'.polls = w.polls + 1 := by
  unfold waitRound at h
  split_ifs at h <;> exact (Option.some.inj h) ▸ rfl

/-- With the largest timeout the counter is back at zero before the comparison can fail. -/
theorem polls_of_max (hmax : configTime.toNat = 4294967295) (h : ∀ i ≤ configTime.toNat, (observe i).decides = false)
    {result : Bool} (hr : WaitReturns configTime observe polls result) : configTime.toNat + 1 < polls := by
  obtain ⟨w, hw, rfl, -⟩ := hr
  rw [ends_iff_waiting (Nat.le_refl _) fun i hi => h i (by omega)] at hw
  have hzero : UInt32.ofNat (configTime.toNat + 1) ≤ configTime := by
    rw [hmax]
    exact UInt32.zero_le
  have hround : ∃ w', waitRound configTime observe (waiting (configTime.toNat + 1)) = some w' := by
    cases hd : (observe (configTime.toNat + 1)).decides with
    | true => exact ⟨_, round_of_decided hzero hd⟩
    | false => exact ⟨_, round_of_undecided hzero hd⟩
  obtain ⟨w', hw'⟩ := hround
  rw [Loop.ends_step_iff hw'] at hw
  have hpolls : w'.polls = configTime.toNat + 1 + 1 := polls_of_round hw'
  refine hw.keeps (I := fun w => configTime.toNat + 1 < w.polls) (fun w w' hlt hround => ?_) (by omega)
  have hnext := polls_of_round hround
  omega

/-- The verdict of the least poll that decides the wait. -/
theorem isInstalled_iff (hn : n ≤ configTime.toNat) (h : ∀ i < n, (observe i).decides = false) (hd : (observe n).decides = true) :
    (observe n).isInstalled = true ↔
      ∃ i ≤ configTime.toNat, (observe i).isInstalled = true ∧ ∀ j < i, (observe j).status ≠ .installFail := by
  constructor
  · intro hdone
    refine ⟨n, hn, hdone, fun j hj hfail => ?_⟩
    have hundecided := h j hj
    simp [Progress.decides, hfail] at hundecided
  · rintro ⟨i, -, hdone, hfail⟩
    have hi : (observe i).decides = true := by simp [Progress.decides, hdone]
    rcases Nat.lt_trichotomy i n with hlt | rfl | hlt
    · rw [h i hlt] at hi
      cases hi
    · exact hdone
    · simpa [Progress.decides, hfail n hlt] using hd

/-- The polls that are left when the poll `i` is due. -/
theorem ends_of_trace {l : List (Σ o : Op, o.Res)} {result : Bool} (hmax : configTime.toNat ≠ 4294967295)
    (h : (waitInstallResult n).Trace l result) (hn : i + n = configTime.toNat + 1)
    (hl : ∀ m w, l[m]? = some ⟨.getFlow, w⟩ → observe (i + m) = w.sysInstallProgress) :
    ∃ w, Loop.Ends (waitRound configTime observe) (waiting i) w ∧ w.polls = i + l.length ∧ w.result.getD false = result := by
  induction n generalizing i l with
  | zero =>
    obtain ⟨rfl, rfl⟩ := h
    have hi : i = configTime.toNat + 1 := hn
    subst hi
    exact ⟨_, Loop.ends_of_none (round_of_timeout hmax), rfl, rfl⟩
  | succ n ih =>
    obtain ⟨w, l, rfl, h⟩ := h
    have hw : observe i = w.sysInstallProgress := hl 0 w rfl
    have hle : UInt32.ofNat i ≤ configTime := ofNat_le (by omega)
    change Prog.Trace (if w.sysInstallProgress.status = .installFail then _ else
      if w.sysInstallProgress.isInstalled then _ else _) _ _ at h
    rw [← hw] at h
    cases hd : (observe i).decides with
    | true =>
      have hend : l = [] ∧ (observe i).isInstalled = result := by
        by_cases hfail : (observe i).status = .installFail
        · rw [if_pos hfail] at h
          exact ⟨h.1, by simp [Progress.isInstalled, hfail, ← h.2]⟩
        · have hdone : (observe i).isInstalled = true := by simpa [Progress.decides, hfail] using hd
          rw [if_neg hfail, if_pos hdone] at h
          exact ⟨h.1, hdone.trans h.2⟩
      obtain ⟨rfl, rfl⟩ := hend
      exact ⟨_, (Loop.ends_step_iff (round_of_decided hle hd)).mpr (Loop.ends_of_none rfl), rfl, rfl⟩
    | false =>
      have hfail : (observe i).status ≠ .installFail := by
        intro hfail
        simp [Progress.decides, hfail] at hd
      have hdone : ¬ (observe i).isInstalled = true := by simpa [Progress.decides, hfail] using hd
      rw [if_neg hfail, if_neg hdone] at h
      obtain ⟨w', hends, hpolls, hresult⟩ := @ih (i + 1) l h (by omega) (fun m w' hm => by
        have hnext := hl (m + 1) w' hm
        rw [← hnext]
        congr 1
        omega)
      refine ⟨w', (Loop.ends_step_iff (round_of_undecided hle hd)).mpr hends, ?_, hresult⟩
      rw [hpolls, List.length_cons]
      omega

end InstallWaitAux

open InstallWaitAux in
/-- Below the largest timeout, the polls of the installers' text are those of the loop. -/
theorem waitInstallResult_refines {configTime : UInt32} {observe : Nat → Progress} {l : List (Σ o : Op, o.Res)} {result : Bool}
    (hmax : configTime ≠ 4294967295) (h : (waitInstallResult (configTime.toNat + 1)).Trace l result)
    (hl : ∀ m w, l[m]? = some ⟨.getFlow, w⟩ → observe m = w.sysInstallProgress) :
    WaitReturns configTime observe l.length result := by
  have hne : configTime.toNat ≠ 4294967295 := fun heq => hmax (UInt32.toNat_inj.mp heq)
  obtain ⟨w, hends, hpolls, hresult⟩ := @ends_of_trace configTime observe 0 (configTime.toNat + 1) l result hne h (by omega)
    (fun m w hm => by rw [Nat.zero_add]; exact hl m w hm)
  exact ⟨w, hends, by omega, hresult⟩

open InstallWaitAux in
/-- The wait is over in time unless the timeout is the largest number of 32 bits and no poll within it reads the end of the
installation. -/
theorem waits_in_time_iff (configTime : UInt32) (observe : Nat → Progress) : WaitsInTime configTime observe ↔
    configTime ≠ 4294967295 ∨ ∃ i ≤ configTime.toNat, (observe i).status = .installFail ∨ (observe i).isInstalled = true := by
  have hdecides (i : Nat) : (observe i).decides = true ↔ (observe i).status = .installFail ∨ (observe i).isInstalled = true := by
    simp [Progress.decides]
  by_cases hsome : ∃ i, i ≤ configTime.toNat ∧ (observe i).decides = true
  · have hcond : configTime ≠ 4294967295 ∨ ∃ i ≤ configTime.toNat, (observe i).status = .installFail ∨ (observe i).isInstalled = true := by
      obtain ⟨i, hi, hd⟩ := hsome
      exact .inr ⟨i, hi, (hdecides i).mp hd⟩
    obtain ⟨hn, hd⟩ := Nat.find_spec hsome
    have hbefore : ∀ i < Nat.find hsome, (observe i).decides = false := by
      intro i hi
      have hnot := Nat.find_min hsome hi
      have hle : i ≤ configTime.toNat := by omega
      simpa [hle] using hnot
    refine iff_of_true ⟨_, _, returns_of_decided hn hbefore hd, by omega, isInstalled_iff hn hbefore hd⟩ hcond
  · have hnone : ∀ i ≤ configTime.toNat, (observe i).decides = false := by
      intro i hi
      by_contra hd
      exact hsome ⟨i, hi, by simpa using hd⟩
    have hmax : configTime.toNat = 4294967295 ↔ configTime = 4294967295 := by
      rw [← UInt32.toNat_inj]
      rfl
    constructor
    · rintro ⟨polls, result, hreturns, hpolls, -⟩
      refine .inl fun heq => ?_
      have hlt := polls_of_max (hmax.mpr heq) hnone hreturns
      omega
    · rintro (hne | ⟨i, hi, hd⟩)
      · refine ⟨_, _, returns_of_timeout (mt hmax.mp hne) hnone, Nat.le_refl _, ?_⟩
        constructor
        · intro h
          cases h
        · rintro ⟨i, hi, hdone, -⟩
          have hundecided := hnone i hi
          simp [Progress.decides, hdone] at hundecided
      · exact absurd ⟨i, hi, (hdecides i).mpr hd⟩ hsome

/-- A configuration with the largest timeout. -/
def longestTimeout : String := "\x7b\"abInstallTimeout\":4294967295\x7d"

/-- A phone that knows the text of that configuration. -/
def Platform.patient : Platform := { Platform.phone with
  jsonParse := fun text => if text = longestTimeout then some (.obj [("abInstallTimeout", .num 4294967295)]) else none }

open InstallWaitAux in
/-- It waits for ever for an installer that does not report anything more. -/
theorem wait_without_end : ConfigParse.loadConfigInfo .patient (some longestTimeout) = 4294967295 ∧
    (∀ polls result, ¬ WaitReturns 4294967295 (fun _ => { status := .installing }) polls result) ∧
    ¬ WaitsInTime 4294967295 fun _ => { status := .installing } := by
  have hends (w : Waiting) : ¬ Loop.Ends (waitRound 4294967295 fun _ => { status := .installing }) {} w := by
    refine Loop.not_ends_of_closed (I := fun w => w.result = none) (fun w hw => ?_) rfl
    have hle : w.timeout ≤ 4294967295 := by
      rw [UInt32.le_iff_toNat_le]
      exact Nat.le_of_lt_succ w.timeout.toNat_lt
    exact ⟨{ w with timeout := w.timeout + 1, polls := w.polls + 1 }, by simp [waitRound, hw, hle, Progress.isInstalled], hw⟩
  refine ⟨by decide, ?_, ?_⟩
  · rintro polls result ⟨w, hw, -⟩
    exact hends w hw
  · rintro ⟨polls, result, ⟨w, hw, -⟩, -⟩
    exact hends w hw

end UpdateEngine
