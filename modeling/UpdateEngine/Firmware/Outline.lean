import UpdateEngine.Concurrent.Protocol
import UpdateEngine.Firmware.Manager

/-!
# The threads in outline

What each thread of the service does, without the details: a role says how far a thread has come (whether the mode of its flow has
let it go on, whether its check result has passed the test for undone tasks, which progress a download is reporting, whether it is
inside an installer), `allowed` which operations it may ask for there, and `next` what an answer makes of the role. The outline is
the abstract model the invariants are stated on; that the texts keep to it is `Outline.conforms`.
-/

namespace UpdateEngine

open Concurrent

/-! ## Roles -/

/-- What came of the test of a package: none was made, it was accepted (with the comparison that was made, if there was one), or it
was rejected. -/
inductive Verdict where
  | skipped
  | accepted (path : String) (v : Option Verified)
  | rejected

/-- How far a download thread, or its executor, has come with a report. -/
inductive Phase where
  /-- The thread has not been woken yet. -/
  | waiting
  /-- Nothing is being reported. -/
  | working
  /-- `DownloadCallback` has set `upgradeStatus_`. -/
  | called (shown : UpgradeStatus)
  /-- The package is being tested against the `verifyInfo` in these components: the file last read, and the comparison made. -/
  | verifying (shown : UpgradeStatus) (components : List FirmwareComponent) (seen : Option (String × Option Bytes))
      (v : Option Verified)
  /-- The test is over, or there was none. -/
  | judged (shown : UpgradeStatus) (verdict : Verdict)
  /-- The component row is written; the status the task row will get. -/
  | written (status : UpgradeStatus) (verdict : Verdict)
  /-- The task row is written. -/
  | recorded (status : UpgradeStatus)
  /-- An end of the download has been reported; what `GetStepAfterDownload` has read in the task row. -/
  | closing (won : Bool) (read : Option UpgradeStatus)
  /-- `HandleComplete` has been entered. -/
  | finished

/-- A download thread or a download executor: the components left to start (once they are read), the `DownloadThread` object that is
about to be woken, whether the package at hand is complete, and whether the report has met the work of another thread (in
`upgradeStatus_`, or in the file it tests). -/
structure Worker where
  left : Option (List FirmwareComponent) := none
  waking : Option Nat := none
  complete : Bool := false
  raced : Bool := false
  phase : Phase := .working

/-- The role of a thread. -/
inductive Role where
  /-- It has no more to do with the flows. -/
  | idle
  /-- A request whose mode has not decided yet. -/
  | request
  /-- The recovery, before the mode has decided. -/
  | recovering
  /-- A request whose mode has read a status that lets it go on. -/
  | accepted
  /-- A request whose mode has read something else. -/
  | refused
  /-- A request that clears everything: an accepted one that found its files missing, or the recovery of a download. -/
  | withdrawn
  /-- A request that may start the executor. -/
  | ready
  /-- A check executor outside of `HandleCheckResult`. -/
  | checking
  /-- A check executor whose result is being processed. -/
  | processing
  /-- The same, once the task table is cleared. -/
  | cleared
  /-- A download executor or thread. -/
  | download (w : Worker)
  /-- An install executor before its installer; the components it has read. -/
  | install (components : Option (List FirmwareComponent))
  /-- An install executor inside its installer; whether the system installer has been given a callback. -/
  | performing (given : Bool)
  /-- An install executor after its installer, or a callback of the system installer. -/
  | installed
  /-- The same, once the task table is cleared. -/
  | dropped
  /-- An apply executor that has not written its status yet. (Once it has, it is `idle`.) -/
  | applying
  /-- The work after a boot, or a request to clear an error, once it has read the task. -/
  | clearing

/-! ## What the roles allow -/

/-- The statuses an installation gives a task. -/
def UpgradeStatus.isInstallStatus (s : UpgradeStatus) : Bool :=
  s = .init || s = .installing || s = .installFail || s = .installSuccess || s = .updating || s = .updateFail

/-- The status `DownloadCallback` keeps in `upgradeStatus_`. -/
def UpgradeStatus.shown (s : UpgradeStatus) : UpgradeStatus :=
  if s = .downloadFail || s = .downloadSuccess then s else .downloading

/-- What a flow is for. -/
inductive FlowKind where
  | check | download | install | apply | other
  deriving DecidableEq, Repr

namespace Thread

/-- What the flow of a thread is for. -/
def kind : Thread → FlowKind
  | .checkNewVersion _ | .checkExecutor _ => .check
  | .download _ _ | .downloadExecutor _ _ | .downloadThread _ _ _ _ _ => .download
  | .upgrade _ o =>
    if o.order = .install || o.order = .installAndApply then .install else if o.order = .apply then .apply else .other
  | .delayInit _ _ | .installExecutor _ _ _ | .installerCallback _ _ _ _ _ _ => .install
  | .applyExecutor _ _ _ => .apply
  | .cancel _ | .netChanged _ _ | .clearError _ => .other

/-- The request that starts a download. -/
def isDownload : Thread → Bool
  | .download _ _ => true
  | _ => false

/-- The executor of a download. -/
def isDownloadExecutor : Thread → Bool
  | .downloadExecutor _ _ => true
  | _ => false

/-- A thread of a download. -/
def isDownloadThread : Thread → Bool
  | .downloadThread _ _ _ _ _ => true
  | _ => false

/-- The index of a download thread. -/
def index : Thread → Option Nat
  | .downloadThread _ _ i _ _ => some i
  | _ => none

/-- The order a request to install or apply carries. -/
def order : Thread → Option Order
  | .upgrade _ o => some o.order
  | .delayInit _ _ => some .installAndApply
  | _ => none

/-- A thread that may clear everything outside of any flow. -/
def clears : Thread → Bool
  | .delayInit _ _ | .clearError _ => true
  | _ => false

/-- The executors a request may start. -/
def starts : Thread → Thread → Bool
  | .checkNewVersion f, .checkExecutor g => f = g
  | .download f o, .downloadExecutor g o' => f = g && o = o'
  | .upgrade f o, .installExecutor g o' _ => f = g && o = o' && (o.order = .install || o.order = .installAndApply)
  | .upgrade f o, .applyExecutor g o' _ => f = g && o = o' && o.order = .apply
  | .delayInit f _, .installExecutor g o' _ => f = g && o' = { order := .installAndApply }
  | _, _ => false

end Thread

namespace Worker

/-- The package at hand. -/
def path (w : Worker) : Thread → Option String
  | .downloadThread _ _ _ fileName _ => some fileName
  | _ => (w.left.bind List.head?).map (·.spath)

/-- Whether the worker may do what concerns no other thread. -/
def free (w : Worker) : Prop := w.phase ≠ .waiting ∧ w.phase ≠ .finished

end Worker

namespace Role

/-- Whether a thread may do what concerns no other thread. -/
def free : Role → Prop
  | .download w => w.free
  | _ => True

/-- Whether the flow has not been given its first step yet. -/
def entering : Role → Bool
  | .request | .recovering | .accepted | .refused | .withdrawn => true
  | _ => false

/-- Whether a thread is one of an executor, or is about to start one. -/
def past : Role → Bool
  | .idle | .request | .recovering | .accepted | .refused | .withdrawn | .clearing => false
  | _ => true

/-- Which status a thread may give the task row. -/
def records (r : Role) (c : Caller) (s : UpgradeStatus) : Prop :=
  match r with
  | .recovering => c = .restoreUpdate ∧ s = .downloadSuccess
  | .download w =>
    (c = .downloadCallback ∧ ∃ v, w.phase = .written s v) ∨
      (c = .stepAfterDownload ∧ s = .checkVersionSuccess ∧ ∃ won, w.phase = .closing won (some .downloadCancel))
  | .install (some _) | .installed =>
    (c = .installExecutor ∨ c = .handleInstallProgress ∨ c = .handleInstallResult) ∧ s.isInstallStatus
  | .applying => c = .applyExecutor ∧ s = .updating
  | _ => False

/-- Whether a thread may clear the task table. -/
def drops : Role → Prop
  | .recovering | .accepted | .processing | .install _ | .installed | .clearing => True
  | .download w => ∃ won, w.phase = .closing won (some .downloadFail)
  | _ => False

/-- Whether a thread may clear the component table and the packages. -/
def sweeps : Role → Prop
  | .withdrawn | .cleared | .dropped | .clearing => True
  | .download w => ∃ won s, w.phase = .closing won (some s) ∧ (s = .downloadFail ∨ s = .downloadCancel)
  | _ => False

/-- Which assignments to fields of its flow a thread may make. -/
def sets (n : Thread) (r : Role) : FlowUpdate → Prop
  | .nextStep s => s ≠ .init ∧
    ((r = .accepted ∧ (n.order = some .apply → s ≠ .installStep)) ∨ r = .refused ∨ r = .withdrawn ∨
      (r = .request ∧ ∃ f, n = .checkNewVersion f) ∨ (r.free ∧ r.past ∧ s = .complete))
  | .components l => ∃ w, r = .download w ∧ n.isDownloadExecutor ∧ w.phase = .working ∧ w.left = some l
  | .upgradeStatus s => ∃ w, r = .download w ∧ (n.isDownloadExecutor → ∃ c l, w.left = some (c :: l)) ∧
    (w.phase = .working ∨ ∃ shown, w.phase = .called shown) ∧ (s = .downloadSuccess → w.complete)
  | .wake i k => ∃ w, r = .download w ∧ n.isDownloadExecutor ∧ k.isWake ∧ (k.isExitThread ∨ w.waking = some i)
  | .taskProgress p => r.free ∧ p.status.isInstallStatus
  | .sysCallback _ => ∃ given, r = .performing given
  | _ => r.free

/-- Which threads a thread may start. -/
def spawns (n : Thread) (r : Role) (m : Thread) : Prop :=
  (r = .ready ∧ n.starts m) ∨
    ∃ f o i c l w, n = .downloadExecutor f o ∧ r = .download w ∧ w.phase = .working ∧ w.left = some (c :: l) ∧
      m = .downloadThread f o i c.spath c.url

/-- Which places a thread may pass. -/
def passes (P : Platform) (n : Thread) (r : Role) : Mark → Prop
  | .checkResultHandled => r = .processing ∨ r = .cleared
  | .onDownloadCallback p => ∃ w, r = .download w ∧
    (w.phase = .recorded p.status ∨ (n.isDownloadExecutor ∧ w.phase = .working ∧ p.status = .downloadFail))
  | .handleComplete | .downloadThreadCallback _ | .handleInstallResult _ _ => r.free
  | .accepted path => ∃ w shown components seen v, r = .download w ∧ w.phase = .verifying shown components seen v ∧
    w.path n = some path ∧ (v = none → FirmwareDownloadExecutor.verifyInfoOf components path = "" ∨ w.raced)
  | .complete path => ∃ w, r = .download w ∧ w.phase = .working ∧ w.path n = some path
  | .verified v => ∃ w shown components, r = .download w ∧
    w.phase = .verifying shown components (some (v.path, some v.content)) none ∧ w.path n = some v.path ∧
    v.verifyInfo = FirmwareDownloadExecutor.verifyInfoOf components v.path ∧
    strcasecmp (P.sha256 v.content) v.verifyInfo
  | .performInstall l => r = .install (some l)
  | .performInstallEnd => r = .performing false
  | .applyDoInstall => r = .applying

end Role

namespace Outline

/-- The role a thread starts in. -/
def entry : Thread → Role
  | .checkNewVersion _ | .download _ _ | .upgrade _ _ => .request
  | .delayInit _ _ => .recovering
  | .cancel _ | .netChanged _ _ | .clearError _ => .idle
  | .checkExecutor _ => .checking
  | .downloadExecutor _ _ => .download {}
  | .downloadThread _ _ _ _ _ => .download { phase := .waiting }
  | .installExecutor _ _ _ => .install none
  | .installerCallback _ _ _ _ _ _ => .installed
  | .applyExecutor _ _ _ => .applying

/-- Which operations a role allows. -/
def allowed (P : Platform) (n : Thread) (r : Role) : Op → Prop
  | .queryTasks .downloadMode => r = .request ∧ n.isDownload
  | .queryTasks (.installApplyMode o) => (r = .request ∨ r = .recovering) ∧ n.order = some o
  | .queryTasks .hasUndoneTask => r = .checking
  | .queryTasks .handleBootComplete | .queryTasks .doClearError =>
    n.clears ∧ (r = .idle ∨ r = .recovering ∨ r = .withdrawn ∨ r = .ready)
  | .insertTask t => r = .cleared ∧ t.status = .checkVersionSuccess ∧ t.combinationType = .hota
  | .updateTasks c _ (.progress s _) => r.records c s
  | .deleteTasks => r.drops
  | .queryComponents .downloadExecutor => r = .download {} ∧ n.isDownloadExecutor
  | .queryComponents .installExecutor => r = .install none
  | .insertComponents l => r = .cleared ∧ ∀ c ∈ l, ∃ name, c.spath = Firmware.PACKAGE_PATH ++ "/" ++ name
  | .updateComponents .downloadCallback (.progressByUrl _ s _) =>
    ∃ w verdict, r = .download w ∧ w.phase = .judged s.shown verdict
  | .updateComponents .downloadCallback (.urlByVersionId _ _) => False
  | .deleteComponents | .deleteDownloadFiles => r.sweeps
  | .openFile p | .appendFile p _ => ∃ w, r = .download w ∧ w.phase = .working ∧ w.path n = some p
  | .removeFile p => ∃ w, r = .download w ∧ w.path n = some p ∧
    (w.phase = .working ∨ ∃ shown components seen, w.phase = .verifying shown components seen none)
  | .saveDataToFile p _ => r = .checking ∧ ∃ id, p = FirmwareCheckAnalyzeUtils.changelogFilePath id
  | .getNextStep => r = .request ∨ r = .recovering ∨ (r.free ∧ r.past)
  | .setFlow u => r.sets n u
  | .spawn m => r.spawns n m
  | .join _ => ∃ w, r = .download w ∧ n.isDownloadExecutor
  | .awaitWake i => (∃ w, r = .download w) ∧ n.index = some i
  | .ask .newThread => ∃ w, r = .download w ∧ n.isDownloadExecutor
  | .enter m => r.passes P n m
  | .reboot => r = .idle
  | _ => r.free

/-- What is known of an answer: only a request finds its flow without a step, an apply executor not at the install step, and an
installation keeps to its statuses. -/
def expects (r : Role) : (o : Op) → o.Res → Prop
  | .getNextStep, s => (s = .init ↔ r.entering) ∧ (r = .applying → s ≠ .installStep)
  | .getFlow, w => w.taskProgress.status.isInstallStatus
  | _, _ => True

/-- The phase after an answer. -/
def nextPhase (n : Thread) (w : Worker) : (o : Op) → o.Res → Phase
  | .queryTasks .stepAfterDownload, tasks => match w.phase with
    | .closing won _ => .closing won (tasks.head?.map (·.status))
    | ph => ph
  | .setFlow (.upgradeStatus s), _ => .called s
  | .getFlow, x => match w.phase with
    | .called shown =>
      if x.upgradeStatus = .downloadSuccess then .verifying shown x.components none none else .judged shown .skipped
    | ph => ph
  | .readFile p, content => match w.phase with
    | .verifying shown components _ v => .verifying shown components (some (p, content)) v
    | ph => ph
  | .removeFile _, _ => match w.phase with
    | .verifying shown _ _ _ => .judged shown .rejected
    | ph => ph
  | .updateComponents .downloadCallback (.progressByUrl _ s _), _ => match w.phase with
    | .judged _ .rejected => .written .downloadFail .rejected
    | .judged _ verdict => .written s verdict
    | ph => ph
  | .updateTasks .downloadCallback _ (.progress s _), _ => .recorded s
  | .awaitWake _, exit => if exit then .finished else .working
  | .ask .newThread, _ => .working
  | .enter (.onDownloadCallback p), _ =>
    if p.status = .downloading then .working else .closing (p.status = .downloadSuccess) none
  | .enter .handleComplete, _ => if n.isDownloadExecutor || w.raced then .working else .finished
  | .enter (.accepted path), _ => match w.phase with
    | .verifying shown _ _ v => .judged shown (.accepted path v)
    | ph => ph
  | .enter (.verified v), _ => match w.phase with
    | .verifying shown components seen _ => .verifying shown components seen (some v)
    | ph => ph
  | _, _ => w.phase

/-- The worker after an answer. -/
def nextWorker (n : Thread) (w : Worker) (o : Op) (x : o.Res) : Worker :=
  { phase := nextPhase n w o x
    left := match o, x with
      | .queryComponents .downloadExecutor, l => some l
      | .ask .newThread, created => if created then w.left else w.left.map List.tail
      | .spawn _, _ => w.left.map List.tail
      | _, _ => w.left
    waking := match o with
      | .spawn m => m.index
      | .setFlow (.wake _ k) => if k.isExitThread then w.waking else none
      | _ => w.waking
    complete := match o with
      | .enter (.complete _) => true
      | .ask .newThread | .awaitWake _ => false
      | _ => w.complete
    raced := match o, x with
      | .getFlow, x => match w.phase with
        | .called shown => x.upgradeStatus = .downloadSuccess && shown ≠ .downloadSuccess
        | _ => w.raced
      | .readFile _, content => match w.phase with
        | .verifying _ _ (some (_, some _)) _ => w.raced || content.isNone
        | _ => w.raced
      | _, _ => w.raced }

/-- The role of a request after what its mode has read: whether it is let go on. -/
def decide (c : Caller) (tasks : List FirmwareTask) : Role :=
  if tasks.head?.any fun t => c.admits t.status then .accepted else .refused

/-- The role of any other thread after an answer. -/
def nextRole (r : Role) : (o : Op) → o.Res → Role
  | .queryTasks .downloadMode, tasks => decide .downloadMode tasks
  | .queryTasks (.installApplyMode o), tasks => decide (.installApplyMode o) tasks
  | .queryTasks .hasUndoneTask, tasks => if tasks.head?.any fun t => t.status.isUndone then .checking else .processing
  | .queryTasks .handleBootComplete, _ | .queryTasks .doClearError, _ => .clearing
  | .updateTasks .applyExecutor _ (.progress _ _), _ => match r with
    | .applying => .idle
    | r => r
  | .deleteTasks, _ => match r with
    | .processing => .cleared
    | .recovering | .accepted => .withdrawn
    | .install _ | .installed => .dropped
    | r => r
  | .queryComponents .installExecutor, l => .install (some l)
  | .setFlow (.nextStep _), _ => match r with
    | .accepted | .request => .ready
    | .refused | .withdrawn => .idle
    | r => r
  | .setFlow (.sysCallback c), _ => .performing c.isSome
  | .spawn _, _ => .idle
  | .enter .checkResultHandled, _ => .checking
  | .enter (.performInstall _), _ => .performing false
  | .enter .performInstallEnd, _ => .installed
  | _, _ => r

/-- The role after an answer. -/
def next (n : Thread) (r : Role) (o : Op) (x : o.Res) : Role :=
  match r with
  | .download w => .download (nextWorker n w o x)
  | r => nextRole r o x

end Outline

/-- The outline of the service. -/
def outline (P : Platform) : Protocol Op Op.Res Thread Role where
  entry := Outline.entry
  allowed := Outline.allowed P
  expects := fun _ => Outline.expects
  next := Outline.next
  final := fun r => ∀ given, r ≠ .performing given

end UpdateEngine
