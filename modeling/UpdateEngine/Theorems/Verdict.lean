import Mathlib.Algebra.Group.Nat.Defs
import UpdateEngine.Lemmas.AloneAux
import UpdateEngine.Lemmas.ReportAux

/-!
# The verdict on a download

`DownloadCallback` leaves a status and a percentage in three places: the row of the component, the task row, and the flow. It rewrites
its copy of the progress when a package fails its test, and the first of the three is given the progress from before.
-/

namespace UpdateEngine

open Concurrent

namespace FirmwareDownloadExecutor

/-- What `VerifyDownloadPkg` says of a package, for the components of the flow and the files. -/
def accepts (P : Platform) (components : List FirmwareComponent) (files : String → Option Bytes) (pkgName : String) : Bool :=
  verifyInfoOf components pkgName = "" ||
    (files pkgName).any fun content => strcasecmp (P.sha256 content) (verifyInfoOf components pkgName)

end FirmwareDownloadExecutor

/-- Where `DownloadCallback` leaves its verdict. -/
inductive Place where
  | component | task | flow
  deriving DecidableEq, Repr

/-- The status and the percentage that an operation leaves there, for the component with the URL and the task. -/
def Place.verdict (serverUrl taskId : String) : Place → Op → Option (UpgradeStatus × Int)
  | .component, .updateComponents .downloadCallback (.progressByUrl url status progress) =>
    if url = serverUrl then some (status, progress.toInt) else none
  | .task, .updateTasks .downloadCallback i (.progress status progress) => if i = taskId then some (status, progress.toInt) else none
  | .flow, .enter (.onDownloadCallback p) => some (p.status, p.percent.toNat)
  | _, _ => none

/-- The program, run alone by a thread, leaves the verdict there. -/
def Leaves {α : Type} (n : Thread) (a : Answer) (s : State) (p : Prog α) (serverUrl taskId : String) (place : Place)
    (v : UpgradeStatus × Int) : Prop :=
  ∃ o, p.Takes (n.alone a) s o ∧ place.verdict serverUrl taskId o = some v

/-- There is one verdict: it is left in every place, and no other. -/
def OneVerdict {α : Type} (n : Thread) (a : Answer) (s : State) (p : Prog α) (serverUrl taskId : String) : Prop :=
  ∃ v, ∀ place v', Leaves n a s p serverUrl taskId place v' ↔ v' = v

namespace VerdictAux

open ReportAux AloneAux

variable {P : Platform} {n : Thread} {a : Answer} {s : State} {α β : Type} {serverUrl taskId : String} {place : Place}
  {v : UpgradeStatus × Int}

/-! ## What a program leaves -/

/-- An operation leaves what it does, and what comes after it. -/
theorem leaves_op {o : Op} {k : o.Res → Prog α} {x : o.Res} (hs : s.stopped = false) (hx : o.answer n a s = some x) :
    Leaves n a s (.op o k) serverUrl taskId place v ↔
      place.verdict serverUrl taskId o = some v ∨ Leaves n a (o.after n s x) (k x) serverUrl taskId place v := by
  have hstep : n.alone a o s = some (x, o.after n s x) := by simp [Thread.alone, exec, hs, hx]
  constructor
  · rintro ⟨o', rfl | ⟨y, s', hy, ht⟩, hv⟩
    · exact .inl hv
    · rw [hstep] at hy
      cases hy
      exact .inr ⟨o', ht, hv⟩
  · rintro (hv | ⟨o', ht, hv⟩)
    · exact ⟨o, .inl rfl, hv⟩
    · exact ⟨o', .inr ⟨x, _, hstep, ht⟩, hv⟩

/-- What is no report leaves nothing. -/
theorem verdict_of_quiet {o : Op} (h : o.isReport = false) : place.verdict serverUrl taskId o = none := by
  cases place with
  | component =>
    cases o with
    | updateComponents c u => cases c <;> first | rfl | cases h
    | _ => rfl
  | task =>
    cases o with
    | updateTasks c i u => cases c <;> first | rfl | cases h
    | _ => rfl
  | flow =>
    cases o with
    | enter m => cases m <;> first | rfl | cases h
    | _ => rfl

theorem not_leaves_of_quiet {p : Prog α} (hp : Silent p) : ¬ Leaves n a s p serverUrl taskId place v := by
  rintro ⟨o, ht, hv⟩
  have hquiet : o.isReport = false := Prog.Takes.of_uses (S := fun o => o.isReport = false) hp ht
  rw [verdict_of_quiet hquiet] at hv
  cases hv

/-- A part that makes no report leaves nothing, and the rest begins where it ends. -/
theorem leaves_skip {p : Prog α} {f : α → Prog β} {R : Prop} (hp : Silent p)
    (h : p.Ends (n.alone a) s fun b s' => Leaves n a s' (f b) serverUrl taskId place v ↔ R) :
    Leaves n a s (p >>= f) serverUrl taskId place v ↔ R := by
  obtain ⟨b, s', hrun, hiff⟩ := Prog.ends_iff_run.mp h
  constructor
  · rintro ⟨o, ht, hv⟩
    rcases ht.bind h with hleft | ⟨b', s'', hiff', hright⟩
    · exact absurd ⟨o, hleft, hv⟩ (not_leaves_of_quiet hp)
    · exact hiff'.mp ⟨o, hright, hv⟩
  · intro hR
    obtain ⟨o, ht, hv⟩ := hiff.mpr hR
    exact ⟨o, Prog.Takes.right (Prog.ends_iff_run.mpr ⟨b, s', hrun, ht⟩), hv⟩

/-! ## The test of a package -/

theorem checkFileSha256String_ends (hs : s.stopped = false) (path text : String) :
    (Sha256Utils.checkFileSha256String P path text).Ends (n.alone a) s fun same s' =>
      same = (s.files path).any (fun content => strcasecmp (P.sha256 content) text) ∧ s'.stopped = false := by
  refine ends_op hs rfl ?_
  cases hfile : s.files path with
  | none => exact ⟨rfl, hs⟩
  | some content =>
    have hagain : (Op.after n s (.readFile path) (some content)).files path = some content := hfile
    have hs' : (Op.after n s (.readFile path) (some content)).stopped = false := hs
    generalize Op.after n s (.readFile path) (some content) = s' at hagain hs'
    refine ends_op hs' rfl ?_
    rw [hagain]
    have hs'' : (Op.after n s' (.readFile path) (some content)).stopped = false := hs'
    generalize Op.after n s' (.readFile path) (some content) = s'' at hs''
    change Prog.Ends _ (if (!strcasecmp (P.sha256 content) text) = true then _ else _) _ _
    rw [Option.any_some]
    cases strcasecmp (P.sha256 content) text with
    | false => exact ⟨rfl, hs''⟩
    | true => exact ends_op hs'' rfl ⟨rfl, hs''⟩

theorem verifyDownloadPkg_ends (hs : s.stopped = false) (components : List FirmwareComponent) (packageName : String) :
    (FirmwareDownloadExecutor.verifyDownloadPkg P components packageName).Ends (n.alone a) s fun accepted s' =>
      accepted = FirmwareDownloadExecutor.accepts P components s.files packageName ∧ s'.stopped = false := by
  unfold FirmwareDownloadExecutor.verifyDownloadPkg FirmwareDownloadExecutor.accepts
  by_cases hinfo : FirmwareDownloadExecutor.verifyInfoOf components packageName = ""
  · rw [if_neg (not_not_intro hinfo)]
    exact ends_op hs rfl ⟨by simp [hinfo], hs⟩
  · rw [if_pos hinfo]
    refine Prog.Ends.seq (checkFileSha256String_ends hs _ _) ?_
    rintro same s' ⟨hsame, hs'⟩
    cases same with
    | false => exact ⟨by simp [hinfo, ← hsame], hs'⟩
    | true => exact ends_op hs' rfl ⟨by simp [hinfo, ← hsame], hs'⟩

/-- The status after the test of a package: it fails when a downloaded package is not accepted. -/
def verified (status : UpgradeStatus) (accepted : Bool) : UpgradeStatus :=
  if status = .downloadSuccess ∧ accepted = false then .downloadFail else status

theorem verifiedProgress_ends (hs : s.stopped = false) (w : Flow) (packageName : String) (progress : Progress)
    (hw : w.upgradeStatus = .downloadSuccess ↔ progress.status = .downloadSuccess) :
    (FirmwareDownloadExecutor.verifiedProgress P w packageName progress).Ends (n.alone a) s fun p s' =>
      p.status = verified progress.status (FirmwareDownloadExecutor.accepts P w.components s.files packageName) ∧
        p.percent = progress.percent ∧ s'.stopped = false := by
  unfold FirmwareDownloadExecutor.verifiedProgress verified
  by_cases hstatus : progress.status = .downloadSuccess
  · rw [if_neg (not_not_intro (hw.mpr hstatus))]
    refine Prog.Ends.seq (verifyDownloadPkg_ends hs w.components packageName) ?_
    rintro accepted s' ⟨haccepted, hs'⟩
    rw [← haccepted]
    cases accepted with
    | true => exact ⟨by simp, rfl, hs'⟩
    | false => exact ends_op hs' rfl ⟨by simp [hstatus], rfl, hs'⟩
  · rw [if_pos fun h => hstatus (hw.mp h)]
    exact ⟨by simp [hstatus], rfl, hs⟩

/-! ## The callback -/

variable {f : Nat} {o : DownloadOptions}

/-- What the flow does with a report leaves no verdict of its own. -/
theorem onDownloadCallback_leaves (hs : s.stopped = false) (p : Progress) :
    Leaves n a s (FirmwareFlowManager.onDownloadCallback P f o p) serverUrl taskId place v ↔
      place.verdict serverUrl taskId (.enter (.onDownloadCallback p)) = some v := by
  refine (leaves_op hs rfl).trans (or_iff_left (not_leaves_of_quiet ?_))
  change Silent (FirmwareDownloadDataProcessor.setDownloadProgress p >>= _)
  refine Prog.Uses.bind (setDownloadProgress_quiet p) fun _ => ?_
  split
  · exact execute_quiet
  · trivial

/-- The three verdicts, once the package is tested. -/
def verdicts (progress : Progress) (accepted : Bool) : Place → UpgradeStatus × Int
  | .component => (progress.status, progress.percent.toInt32.toInt)
  | .task => (verified progress.status accepted, progress.percent.toInt32.toInt)
  | .flow => (verified progress.status accepted, progress.percent.toNat)

/-- `DownloadCallback` from the read of the flow on. -/
theorem judged_leaves (hs : s.stopped = false) (packageName : String) (progress : Progress)
    (hw : (s.flows n.flow).upgradeStatus = .downloadSuccess ↔ progress.status = .downloadSuccess)
    (htask : (s.flows n.flow).executorTasks.taskId = taskId) {components : List FirmwareComponent}
    (hcomponents : (s.flows n.flow).components = components) {files : String → Option Bytes} (hfiles : s.files = files) :
    Leaves n a s (do
        let w ← call .getFlow
        let downloadProgress ← FirmwareDownloadExecutor.verifiedProgress P w packageName progress
        FirmwareComponentOperator.updateProgressByUrl .downloadCallback serverUrl progress.status progress.percent.toInt32
        FirmwareTaskOperator.updateProgressByTaskId .downloadCallback w.executorTasks.taskId downloadProgress.status
          downloadProgress.percent.toInt32
        FirmwareFlowManager.onDownloadCallback P f o downloadProgress) serverUrl taskId place v ↔
      v = verdicts progress (FirmwareDownloadExecutor.accepts P components files packageName) place := by
  subst hcomponents hfiles
  refine (leaves_op hs rfl).trans ?_
  rw [verdict_of_quiet rfl, or_iff_right (Option.some_ne_none v).symm]
  change Leaves n a _ (FirmwareDownloadExecutor.verifiedProgress P _ packageName progress >>= _) _ _ _ _ ↔ _
  refine leaves_skip (verifiedProgress_quiet _ _ _) ?_
  have hread : (Op.after n s .getFlow (s.flows n.flow)).stopped = false := hs
  refine (verifiedProgress_ends hread (s.flows n.flow) packageName progress hw).mono ?_
  rintro p s' ⟨hstatus, hpercent, hs'⟩
  have hverified : p.status =
      verified progress.status (FirmwareDownloadExecutor.accepts P (s.flows n.flow).components s.files packageName) := hstatus
  -- the two rows, then the flow
  let s₁ := Op.after n s' (.updateComponents .downloadCallback (.progressByUrl serverUrl progress.status progress.percent.toInt32)) ()
  have hs₁ : s₁.stopped = false := hs'
  let s₂ := Op.after n s₁
    (.updateTasks .downloadCallback (s.flows n.flow).executorTasks.taskId (.progress p.status p.percent.toInt32)) ()
  have hs₂ : s₂.stopped = false := hs'
  have hflow : Leaves n a s₂ (FirmwareFlowManager.onDownloadCallback P f o p) serverUrl taskId place v ↔
      place.verdict serverUrl taskId (.enter (.onDownloadCallback p)) = some v := onDownloadCallback_leaves hs₂ p
  refine (leaves_op (x := ()) hs' rfl).trans ?_
  refine (or_congr_right ((leaves_op (x := ()) hs₁ rfl).trans (or_congr_right hflow))).trans ?_
  cases place <;> simp [Place.verdict, verdicts, htask, hverified, hpercent, eq_comm]

/-- Setting `upgradeStatus_` changes nothing else that the callback reads. -/
theorem after_upgradeStatus (n : Thread) (s : State) (status : UpgradeStatus) {s' : State}
    (h : Op.after n s (.setFlow (.upgradeStatus status)) () = s') :
    s'.stopped = s.stopped ∧ s'.files = s.files ∧ (s'.flows n.flow).upgradeStatus = status ∧
      (s'.flows n.flow).executorTasks.taskId = (s.flows n.flow).executorTasks.taskId ∧
      (s'.flows n.flow).components = (s.flows n.flow).components := by
  subst h
  simp [Op.after, Op.effect, State.setFlow, FlowUpdate.apply]

/-- What `DownloadCallback` leaves in each place. -/
theorem downloadCallback_leaves (hs : s.stopped = false) (packageName : String) (progress : Progress)
    (htask : (s.flows n.flow).executorTasks.taskId = taskId) :
    Leaves n a s (FirmwareDownloadExecutor.downloadCallback P f o serverUrl packageName progress) serverUrl taskId place v ↔
      v = verdicts progress (FirmwareDownloadExecutor.accepts P (s.flows n.flow).components s.files packageName) place := by
  have hquiet (u : FlowUpdate) : place.verdict serverUrl taskId (.setFlow u) = none := verdict_of_quiet rfl
  refine (leaves_op (x := ()) hs rfl).trans ?_
  rw [hquiet, or_iff_right (Option.some_ne_none v).symm]
  generalize h₁ : Op.after n s (.setFlow (.upgradeStatus .downloading)) () = s₁
  obtain ⟨hs₁, hfiles₁, hshown₁, htask₁, hcomponents₁⟩ := after_upgradeStatus n s .downloading h₁
  rw [hs] at hs₁
  rw [htask] at htask₁
  change Leaves n a s₁ (if (decide _ || decide _) = true then _ else _) _ _ _ _ ↔ _
  split
  · refine (leaves_op (x := ()) hs₁ rfl).trans ?_
    rw [hquiet, or_iff_right (Option.some_ne_none v).symm]
    generalize h₂ : Op.after n s₁ (.setFlow (.upgradeStatus progress.status)) () = s₂
    obtain ⟨hs₂, hfiles₂, hshown₂, htask₂, hcomponents₂⟩ := after_upgradeStatus n s₁ progress.status h₂
    have hshown : (s₂.flows n.flow).upgradeStatus = .downloadSuccess ↔ progress.status = .downloadSuccess := by rw [hshown₂]
    exact judged_leaves (hs₂.trans hs₁) packageName progress hshown (htask₂.trans htask₁) (hcomponents₂.trans hcomponents₁)
      (hfiles₂.trans hfiles₁)
  · rename_i h
    have hshown : (s₁.flows n.flow).upgradeStatus = .downloadSuccess ↔ progress.status = .downloadSuccess := by
      rw [hshown₁]
      refine iff_of_false UpgradeStatus.noConfusion fun hsuccess => ?_
      simp [hsuccess] at h
    exact judged_leaves hs₁ packageName progress hshown htask₁ hcomponents₁ hfiles₁

/-- What 32 bits with a sign keep of a percentage. -/
theorem toInt_percent_iff (percent : UInt32) : percent.toInt32.toInt = percent.toNat ↔ percent.toNat < 2 ^ 31 := by
  have hint : percent.toInt32.toInt = (percent.toNat : Int).bmod (2 ^ 32) := BitVec.toInt_eq_toNat_bmod percent.toInt32.toBitVec
  have hlt := percent.toNat_lt
  rw [hint, Int.bmod_def]
  omega

/-- The test changes nothing exactly for a package that is accepted, or not shown as downloaded. -/
theorem verified_eq_iff (status : UpgradeStatus) (accepted : Bool) :
    verified status accepted = status ↔ (status = .downloadSuccess → accepted = true) := by
  unfold verified
  cases accepted with
  | true => simp
  | false =>
    split
    · rename_i h
      simp [h.1]
    · simp_all

end VerdictAux

open VerdictAux in
/-- `DownloadCallback` leaves one verdict in the row of the component, in the task row and with the flow exactly when the percentage
fits the column and a package that is reported as downloaded is accepted. -/
theorem one_verdict_iff (P : Platform) (f : Nat) (o : DownloadOptions) (serverUrl packageName : String) (progress : Progress)
    {n : Thread} {a : Answer} {s : State} (hs : s.stopped = false) :
    OneVerdict n a s (FirmwareDownloadExecutor.downloadCallback P f o serverUrl packageName progress) serverUrl
        (s.flows n.flow).executorTasks.taskId ↔
      progress.percent.toNat < 2 ^ 31 ∧ (progress.status = .downloadSuccess →
        FirmwareDownloadExecutor.accepts P (s.flows n.flow).components s.files packageName = true) := by
  simp only [OneVerdict, downloadCallback_leaves hs packageName progress rfl]
  rw [← toInt_percent_iff, ← verified_eq_iff]
  generalize FirmwareDownloadExecutor.accepts P (s.flows n.flow).components s.files packageName = accepted
  constructor
  · rintro ⟨v, hv⟩
    have hall (place : Place) : verdicts progress accepted place = v := (hv place _).mp rfl
    have hflow := (hall .flow).trans (hall .component).symm
    exact ⟨(congrArg Prod.snd hflow).symm, congrArg Prod.fst hflow⟩
  · rintro ⟨hpercent, hstatus⟩
    refine ⟨(progress.status, progress.percent.toNat), fun place v' => ?_⟩
    cases place <;> simp only [verdicts, hpercent, hstatus]

/-- The package of the phone. -/
def phonePackage : String := Firmware.PACKAGE_PATH ++ "/package"

/-- A phone that has downloaded its package, for which the server named a digest. -/
def downloadedPackage (verifyInfo : String) : State where
  files := fun path => if path = phonePackage then some [0] else none
  flows := fun _ => { components := [{ spath := phonePackage, verifyInfo := verifyInfo }] }

/-- What its thread does once it has arrived. -/
def phoneCallback : Prog Unit := FirmwareDownloadExecutor.downloadCallback .phone 2 {} "server/package" phonePackage
  { percent := 100, status := .downloadSuccess }

theorem one_verdict_iff_phone :
    OneVerdict (phoneThread 2) .none (downloadedPackage "") phoneCallback "server/package" "" ↔
      (100 : UInt32).toNat < 2 ^ 31 ∧ (UpgradeStatus.downloadSuccess = .downloadSuccess →
        FirmwareDownloadExecutor.accepts .phone [{ spath := phonePackage }] (downloadedPackage "").files phonePackage = true) :=
  one_verdict_iff .phone 2 {} "server/package" phonePackage { percent := 100, status := .downloadSuccess } rfl

open VerdictAux in
/-- A package that fails its test stays downloaded in the row of its component. -/
theorem two_verdicts :
    Leaves (phoneThread 2) .none (downloadedPackage "ff") phoneCallback "server/package" "" .component (.downloadSuccess, 100) ∧
      Leaves (phoneThread 2) .none (downloadedPackage "ff") phoneCallback "server/package" "" .task (.downloadFail, 100) ∧
      ¬ OneVerdict (phoneThread 2) .none (downloadedPackage "ff") phoneCallback "server/package" "" := by
  have hrejected : FirmwareDownloadExecutor.accepts .phone ((downloadedPackage "ff").flows 2).components
      (downloadedPackage "ff").files phonePackage = false := by decide
  have hleaves (place : Place) (v : UpgradeStatus × Int) :
      Leaves (phoneThread 2) .none (downloadedPackage "ff") phoneCallback "server/package" "" place v ↔
        v = verdicts { percent := 100, status := .downloadSuccess } (FirmwareDownloadExecutor.accepts .phone
          ((downloadedPackage "ff").flows 2).components (downloadedPackage "ff").files phonePackage) place :=
    downloadCallback_leaves rfl phonePackage _ rfl
  rw [hrejected] at hleaves
  have hcomponent := (hleaves .component (.downloadSuccess, 100)).mpr rfl
  have htask := (hleaves .task (.downloadFail, 100)).mpr rfl
  refine ⟨hcomponent, htask, ?_⟩
  rintro ⟨v, hv⟩
  have hsame := ((hv .component _).mp hcomponent).trans ((hv .task _).mp htask).symm
  exact absurd hsame (by decide)

end UpdateEngine
