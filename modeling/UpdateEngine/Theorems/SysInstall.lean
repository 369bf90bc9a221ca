import UpdateEngine.Concurrent.Trace
import UpdateEngine.Firmware.InstallWait
import UpdateEngine.Firmware.Lives

/-!
# Installing every component

What `SysInstallerInstall::PerformInstall` has the system installer do, whatever the installer answers and reports to the polls. The
loop over the components returns what comes of the first one.
-/

namespace UpdateEngine

open Concurrent

/-- What the system installer was passed, which of it was reported as installed, and what it is at work on. -/
structure InstallerRecord where
  passed : List String := []
  installed : List String := []
  awaited : Option String := none

/-- One operation and its answer. A package is awaited once the installer has accepted it, until a poll reads how it ended. -/
def InstallerRecord.note (r : InstallerRecord) : (Σ o : Op, o.Res) → InstallerRecord
  | ⟨.ask (.startUpdatePackageZip path), ret⟩ =>
    { r with passed := r.passed ++ [path], awaited := if ret = (0 : Int) then some path else none }
  | ⟨.getFlow, w⟩ =>
    if w.sysInstallProgress.status = .installFail then { r with awaited := none }
    else if w.sysInstallProgress.isInstalled then { r with installed := r.installed ++ r.awaited.toList, awaited := none }
    else r
  | _ => r

/-- What a trace records. -/
def installerRecord (l : List (Σ o : Op, o.Res)) : InstallerRecord := l.foldl InstallerRecord.note {}

/-- A success means that every component was passed to the installer and installed, in their order; otherwise the installer got
as far as one of them, and was passed none after it. -/
structure AllInstalled (components : List FirmwareComponent) (result : Bool) (r : InstallerRecord) : Prop where
  complete : result = true → r.passed = components.map (·.spath) ∧ r.installed = components.map (·.spath)
  stopped : result = false → ∃ m, r.installed = (components.map (·.spath)).take m ∧
    (r.passed = (components.map (·.spath)).take m ∨ r.passed = (components.map (·.spath)).take (m + 1))

/-- A poll reads that an installation is complete. -/
def ReportsInstalled (l : List (Σ o : Op, o.Res)) : Prop :=
  ∃ w : Flow, (⟨.getFlow, w⟩ : Σ o : Op, o.Res) ∈ l ∧ w.sysInstallProgress.isInstalled = true

namespace SysInstallAux

variable {P : Platform} {o : UpgradeOptions} {c : FirmwareComponent} {l : List (Σ o : Op, o.Res)} {result : Bool} {r : InstallerRecord}

@[simp] theorem reportsInstalled_nil : ¬ ReportsInstalled [] := by
  rintro ⟨w, hw, -⟩
  cases hw

/-- A poll is what reads the progress. -/
theorem reportsInstalled_poll {w : Flow} : ReportsInstalled (⟨.getFlow, w⟩ :: l) ↔
    w.sysInstallProgress.isInstalled = true ∨ ReportsInstalled l := by
  constructor
  · rintro ⟨w', hw', hdone⟩
    rcases List.mem_cons.mp hw' with heq | hw'
    · cases heq
      exact .inl hdone
    · exact .inr ⟨w', hw', hdone⟩
  · rintro (hdone | ⟨w', hw', hdone⟩)
    · exact ⟨w, List.mem_cons_self, hdone⟩
    · exact ⟨w', List.mem_cons_of_mem _ hw', hdone⟩

theorem reportsInstalled_other {o : Op} {x : o.Res} (ho : o ≠ .getFlow) : ReportsInstalled (⟨o, x⟩ :: l) ↔ ReportsInstalled l := by
  constructor
  · rintro ⟨w, hw, hdone⟩
    rcases List.mem_cons.mp hw with heq | hw
    · cases heq
      exact absurd rfl ho
    · exact ⟨w, hw, hdone⟩
  · rintro ⟨w, hw, hdone⟩
    exact ⟨w, List.mem_cons_of_mem _ hw, hdone⟩

/-- The polls for a package: they succeed when one of them reads so, which is recorded, and nothing else is. -/
theorem waitInstallResult_record {polls : Nat} {path : String} (h : (SysInstallerInstall.waitInstallResult polls).Trace l result)
    (hr : r.awaited = some path) : (l.foldl InstallerRecord.note r).passed = r.passed ∧
      (l.foldl InstallerRecord.note r).installed = r.installed ++ (if result then [path] else []) ∧
      (result = true ↔ ReportsInstalled l) := by
  induction polls generalizing l with
  | zero =>
    obtain ⟨rfl, rfl⟩ := h
    simp
  | succ polls ih =>
    obtain ⟨w, l, rfl, h⟩ := h
    rw [List.foldl_cons]
    change Prog.Trace (if w.sysInstallProgress.status = .installFail then _ else
      if w.sysInstallProgress.isInstalled then _ else _) _ _ at h
    by_cases hfail : w.sysInstallProgress.status = .installFail
    · rw [if_pos hfail] at h
      obtain ⟨rfl, rfl⟩ := h
      simp [InstallerRecord.note, reportsInstalled_poll, Progress.isInstalled, hfail]
    · rw [if_neg hfail] at h
      by_cases hdone : w.sysInstallProgress.isInstalled = true
      · rw [if_pos hdone] at h
        obtain ⟨rfl, rfl⟩ := h
        simp [InstallerRecord.note, reportsInstalled_poll, hfail, hdone, hr]
      · rw [if_neg hdone] at h
        have hnote : r.note ⟨.getFlow, w⟩ = r := by simp [InstallerRecord.note, hfail, hdone]
        rw [hnote, reportsInstalled_poll, or_iff_right hdone]
        exact ih h

/-- One component: it is passed at most once, and recorded as installed when a poll reads so. -/
theorem doSysInstall_record (h : (SysInstallerInstall.doSysInstall P o c).Trace l result) :
    (installerRecord l).installed = (if result then [c.spath] else []) ∧
      ((installerRecord l).passed = [c.spath] ∨ result = false ∧ (installerRecord l).passed = []) ∧
      (result = true ↔ ReportsInstalled l) := by
  have hskip {q : Query} {x : q.Reply} {l : List (Σ o : Op, o.Res)} : ReportsInstalled (⟨.ask q, x⟩ :: l) ↔ ReportsInstalled l :=
    reportsInstalled_other (o := .ask q) (fun h => by cases h)
  have hset {u : FlowUpdate} {l : List (Σ o : Op, o.Res)} : ReportsInstalled (⟨.setFlow u, ()⟩ :: l) ↔ ReportsInstalled l :=
    reportsInstalled_other (o := .setFlow u) (fun h => by cases h)
  obtain ⟨_, l, rfl, _, l, rfl, init, l, rfl, h⟩ := h
  rw [hset, hset, hskip]
  change Prog.Trace (if init ≠ 0 then _ else _) _ _ at h
  by_cases hinit : init ≠ 0
  · rw [if_pos hinit] at h
    obtain ⟨_, l, rfl, rfl, rfl⟩ := h
    exact ⟨rfl, .inr ⟨rfl, rfl⟩, by simp [hset]⟩
  rw [if_neg hinit] at h
  obtain ⟨status, l, rfl, h⟩ := h
  rw [hskip]
  change Prog.Trace (if status ≠ .stateInit then _ else _) _ _ at h
  by_cases hstatus : status ≠ .stateInit
  · rw [if_pos hstatus] at h
    obtain ⟨_, l, rfl, rfl, rfl⟩ := h
    exact ⟨rfl, .inr ⟨rfl, rfl⟩, by simp [hset]⟩
  rw [if_neg hstatus] at h
  obtain ⟨ret, l, rfl, h⟩ := h
  rw [hskip]
  change Prog.Trace (if ret ≠ 0 then _ else _) _ _ at h
  by_cases hret : ret ≠ 0
  · rw [if_pos hret] at h
    obtain ⟨_, l, rfl, rfl, rfl⟩ := h
    exact ⟨rfl, .inr ⟨rfl, rfl⟩, by simp [hset]⟩
  rw [if_neg hret] at h
  obtain ⟨_, l, rfl, started, l, rfl, h⟩ := h
  rw [hset, hskip]
  change Prog.Trace (if started ≠ 0 then _ else _) _ _ at h
  by_cases hstarted : started ≠ 0
  · rw [if_pos hstarted] at h
    obtain ⟨_, l, rfl, _, l, rfl, rfl, rfl⟩ := h
    exact ⟨rfl, .inl rfl, by simp [hset]⟩
  rw [if_neg hstarted] at h
  -- the package is at work
  obtain ⟨result', l₁, l₂, rfl, hwait, _, l, rfl, rfl, rfl⟩ := Prog.trace_bind.mp h
  have hzero : started = 0 := not_not.mp hstarted
  subst hzero
  obtain ⟨hpassed, hinstalled, hreports⟩ := waitInstallResult_record hwait (r := ⟨[c.spath], [], some c.spath⟩) rfl
  have hlast : ReportsInstalled (l₁ ++ [⟨.setFlow (.sysCallback none), ()⟩]) ↔ ReportsInstalled l₁ := by
    simp [ReportsInstalled]
  rw [hlast]
  unfold installerRecord
  simp only [List.foldl_cons, List.foldl_append, List.foldl_nil]
  exact ⟨hinstalled, .inl hpassed, hreports⟩

/-- `PerformInstall` has the installer do the first component of the list, if anything. -/
theorem performInstall_record {taskId : String} {components : List FirmwareComponent}
    (h : (SysInstallerInstall.performInstall P o taskId components).Trace l result) :
    (installerRecord l).installed = (if result then (components.map (·.spath)).take 1 else []) ∧
      ((installerRecord l).passed = (components.map (·.spath)).take 1 ∨ result = false ∧ (installerRecord l).passed = []) ∧
      (result = true ↔ ReportsInstalled l) ∧ (result = true → components ≠ []) := by
  cases components with
  | nil =>
    obtain ⟨rfl, rfl⟩ := h
    exact ⟨rfl, .inl rfl, by simp, fun h => by cases h⟩
  | cons c rest =>
    obtain ⟨_, l, rfl, h⟩ := h
    obtain ⟨hinstalled, hpassed, hreports⟩ := doSysInstall_record h
    refine ⟨hinstalled, hpassed, ?_, fun _ => List.cons_ne_nil c rest⟩
    exact hreports.trans (reportsInstalled_other fun h => by cases h).symm

/-- The installer may install the first component at once. -/
theorem exists_trace (P : Platform) (o : UpgradeOptions) (taskId : String) (c : FirmwareComponent) (rest : List FirmwareComponent) :
    ∃ l, (SysInstallerInstall.performInstall P o taskId (c :: rest)).Trace l true := by
  let done : Flow := { sysInstallProgress := { status := .installSuccess, percent := Firmware.ONE_HUNDRED } }
  have hwait : (SysInstallerInstall.waitInstallResult (P.abInstallTimeout + 1)).Trace [⟨.getFlow, done⟩] true :=
    ⟨done, [], rfl, rfl, rfl⟩
  have hrest : (SysInstallerInstall.waitInstallResult (P.abInstallTimeout + 1) >>= fun result =>
      call (.setFlow (.sysCallback none)) >>= fun _ => pure result).Trace
        [⟨.getFlow, done⟩, ⟨.setFlow (.sysCallback none), ()⟩] true :=
    Prog.trace_bind.mpr ⟨true, [⟨.getFlow, done⟩], [⟨.setFlow (.sysCallback none), ()⟩], rfl, hwait, (), [], rfl, rfl, rfl⟩
  exact ⟨_, (), _, rfl, (), _, rfl, (), _, rfl, (0 : Int), _, rfl, SysUpdateStatus.stateInit, _, rfl, (0 : Int), _, rfl,
    (), _, rfl, (0 : Int), _, rfl, hrest⟩

end SysInstallAux

open SysInstallAux in
/-- Every component is installed where there is at most one, or where no poll reads that an installation is complete. -/
theorem all_installed_iff {P : Platform} {o : UpgradeOptions} {taskId : String} {components : List FirmwareComponent}
    {l : List (Σ o : Op, o.Res)} {result : Bool}
    (h : (SysInstallerInstall.performInstall P o taskId components).Trace l result) :
    AllInstalled components result (installerRecord l) ↔ components.length ≤ 1 ∨ ¬ ReportsInstalled l := by
  obtain ⟨hinstalled, hpassed, hreports, hne⟩ := performInstall_record h
  have htake (hlen : components.length ≤ 1) : (components.map (·.spath)).take 1 = components.map (·.spath) :=
    List.take_of_length_le (by simpa using hlen)
  cases result with
  | false =>
    have hsilent : ¬ ReportsInstalled l := by simpa using hreports
    refine iff_of_true ⟨fun h => (by cases h), fun _ => ⟨0, hinstalled, ?_⟩⟩ (.inr hsilent)
    rcases hpassed with hpassed | ⟨-, hpassed⟩
    · exact .inr hpassed
    · exact .inl hpassed
  | true =>
    have hall : (installerRecord l).passed = (components.map (·.spath)).take 1 := by simpa using hpassed
    constructor
    · intro hcomplete
      have hlen := congrArg List.length (hinstalled.symm.trans (hcomplete.complete rfl).2)
      simp only [if_true, List.length_take, List.length_map] at hlen
      exact .inl (by omega)
    · intro hlen
      have hlen := hlen.resolve_right (not_not.mpr (hreports.mp rfl))
      exact ⟨fun _ => ⟨hall.trans (htake hlen), hinstalled.trans (htake hlen)⟩, fun h => by cases h⟩

open SysInstallAux in
theorem all_installed_iff_phone : ∃ l, (SysInstallerInstall.performInstall .phone {} "" [{ spath := "a" }]).Trace l true ∧
    (AllInstalled [{ spath := "a" }] true (installerRecord l) ↔
      [({ spath := "a" } : FirmwareComponent)].length ≤ 1 ∨ ¬ ReportsInstalled l) := by
  obtain ⟨l, hl⟩ := exists_trace .phone {} "" { spath := "a" } []
  exact ⟨l, hl, all_installed_iff hl⟩

open SysInstallAux in
/-- The second of two components is never passed to the installer, and the result is a success. -/
theorem second_not_installed : ∃ l,
    (SysInstallerInstall.performInstall .phone {} "" [{ spath := "a" }, { spath := "b" }]).Trace l true ∧
      (installerRecord l).passed = ["a"] ∧ ¬ AllInstalled [{ spath := "a" }, { spath := "b" }] true (installerRecord l) := by
  obtain ⟨l, hl⟩ := exists_trace .phone {} "" { spath := "a" } [{ spath := "b" }]
  obtain ⟨-, hpassed, -⟩ := performInstall_record hl
  have hfirst : (installerRecord l).passed = ["a"] := by simpa using hpassed
  refine ⟨l, hl, hfirst, fun h => ?_⟩
  have hall := (h.complete rfl).1
  rw [hfirst] at hall
  exact absurd hall (by decide)

end UpdateEngine
