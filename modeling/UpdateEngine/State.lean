import Mathlib.Logic.Function.Basic
import UpdateEngine.Types
import UpdateEngine.Concurrent.Machine

/-!
# The state of the service and its atomic operations

The two tables, the files, what clients were told, the static flags, and one object for each flow (a `FirmwareFlowManager` with its
mode, its data processor and its executor). A thread of the service changes them one operation (`Op`) at a time: one call of the
database, of the file system, of a library, or one access to a field that several threads share. What lies outside the repository
is either a function of the platform (`Platform`) or an answer of the environment (`Query`).

`Journal`, `State.verified` and `History` are history: they note what has happened, and no operation of the code reads them.
-/

namespace UpdateEngine

open Concurrent

/-! ## What the service runs on -/

/-- A JSON value as the parser hands it over. A floating-point number is known by the integer a `static_cast` makes of it. -/
inductive Json where
  | null
  | bool (b : Bool)
  | num (n : Int)
  | float (truncated : Int)
  | str (s : String)
  | arr (l : List Json)
  | obj (l : List (String × Json))
  deriving Repr

/-- `SysInstaller::UpdateStatus`: what the system installer reports. -/
inductive SysUpdateStatus where
  | stateInit | stateOngoing | stateSuccessful
  | stateOther (n : Int)
  deriving DecidableEq, Repr

/-- The parts of the platform the code relies on: the parser of the analyser (none when the text is discarded); the `valueint` of
`searchStatus` as the parser of the transport reads it (none when the text or the item is refused); the SHA-256 digest in
hexadecimal, as the hash function of files and of strings; the parameter of the boot slots and the version on display; the
percentage a transfer reports, from the local length, the total and the current amount; the product of a size with the compression
ratio; how many seconds an installation is waited for; the code of an update status; and what a variable without initial value
holds. -/
structure Platform where
  jsonParse : String → Option Json
  cJsonSearchStatus : String → Option Int
  sha256 : Bytes → String
  bootSlots : String
  displayVersion : String
  percent : UInt64 → Nat → Nat → UInt32
  compressed : Int64 → Int64
  abInstallTimeout : Nat
  updateStatusCode : SysUpdateStatus → Int
  indeterminate : Int32

/-- `FirmwareUpdateHelper::GetInstallType`: a device with two sets of slots has the system installer. -/
def Platform.installType (P : Platform) : InstallType := if P.bootSlots = "2" then .sysInstaller else .updater

/-- What the transfer library does while one file is fetched: it hands over data, or calls the progress function with the total and
the current amount. -/
inductive TransferEvent where
  | data (bytes : Bytes)
  | progress (dlTotal dlNow : Nat)
  deriving DecidableEq, Repr

/-- A transfer: what the library does, as long as it is not stopped, and its result (`CURLE_OK` is zero). -/
structure Transfer where
  events : List TransferEvent := []
  res : Nat := 0
  deriving DecidableEq, Repr

/-- Questions the environment answers. -/
inductive Query where
  | freeSpace
  | now
  | newThread
  | curlInit
  | curlPerform (url : String) (resumeFrom : UInt64)
  | connect
  | sslRead
  | sysInstallerInit
  | getUpdateStatus
  | setUpdateCallback
  | startUpdatePackageZip (path : String)
  | rebootAndInstallUpgradePackage (files : List String)
  deriving DecidableEq, Repr

/-- What a question is answered with. -/
abbrev Query.Reply : Query → Type
  | .freeSpace => UInt64
  | .now => Int
  | .newThread | .curlInit | .connect => Bool
  | .curlPerform _ _ => Transfer
  | .sslRead => Option String
  | .getUpdateStatus => SysUpdateStatus
  | .sysInstallerInit | .setUpdateCallback | .startUpdatePackageZip _ => Int
  | .rebootAndInstallUpgradePackage _ => Bool

/-- Answers of the environment. -/
inductive Answer where
  | none
  | bool (b : Bool)
  | int (n : Int)
  | space (n : UInt64)
  | transfer (t : Transfer)
  | text (t : Option String)
  | updateStatus (u : SysUpdateStatus)
  deriving DecidableEq, Repr

/-- The answer as a reply to the question, when it is one. -/
def Query.reply : (q : Query) → Answer → Option q.Reply
  | .freeSpace, .space n => some n
  | .now, .int n => some n
  | .newThread, .bool b | .curlInit, .bool b | .connect, .bool b => some b
  | .curlPerform _ _, .transfer t => some t
  | .sslRead, .text t => some t
  | .getUpdateStatus, .updateStatus u => some u
  | .sysInstallerInit, .int n | .setUpdateCallback, .int n => some n
  | .startUpdatePackageZip _, .int n => some n
  | .rebootAndInstallUpgradePackage _, .bool b => some b
  | _, _ => Option.none

/-! ## Threads -/

/-- The threads of the service, each with the flow it works for: the requests of clients, the notice of a network change and the
work after a start; the threads of the executors; the thread of a `DownloadThread` object (the `index`-th of its
executor), and a callback of the system installer. -/
inductive Thread where
  | checkNewVersion (flow : Nat)
  | download (flow : Nat) (options : DownloadOptions)
  | upgrade (flow : Nat) (options : UpgradeOptions)
  | cancel (flow : Nat)
  | netChanged (flow : Nat) (net : NetType)
  | clearError (flow : Nat)
  | delayInit (flow : Nat) (startupReason : StartupReason)
  | checkExecutor (flow : Nat)
  | downloadExecutor (flow : Nat) (options : DownloadOptions)
  | downloadThread (flow : Nat) (options : DownloadOptions) (index : Nat) (fileName url : String)
  | installExecutor (flow : Nat) (options : UpgradeOptions) (installType : InstallType)
  | installerCallback (flow : Nat) (options : UpgradeOptions) (index : Nat) (updateStatus : SysUpdateStatus) (percent : Int32)
      (resultMsg : String)
  | applyExecutor (flow : Nat) (options : UpgradeOptions) (installType : InstallType)
  deriving DecidableEq, Repr

/-- The flow a thread works for. -/
def Thread.flow : Thread → Nat
  | .checkNewVersion f | .download f _ | .upgrade f _ | .cancel f | .netChanged f _ | .clearError f | .delayInit f _ => f
  | .checkExecutor f | .downloadExecutor f _ | .downloadThread f _ _ _ _ => f
  | .installExecutor f _ _ | .installerCallback f _ _ _ _ _ | .applyExecutor f _ _ => f

/-! ## Flows -/

/-- The mode of a flow (`FirmwareIExecuteMode` and its three classes), which it is given before it starts and keeps. -/
inductive Mode where
  | manualCheck
  | download (options : DownloadOptions)
  | installApply (options : UpgradeOptions) (installType : InstallType)
  deriving DecidableEq, Repr

/-- The shared fields of a `ProgressThread` object. -/
structure Wake where
  isWake : Bool := false
  isExitThread : Bool := false
  deriving DecidableEq, Repr

/-- A `FirmwareFlowManager`: its fields, those of its mode and data processor, of its executor and of its installer.
`sysCallback` is what the callback captures that the system installer was given. -/
structure Flow where
  nextStep : FirmwareStep := .init
  businessError : BusinessError := {}
  -- FirmwareCheckDataProcessor
  checkStatus : CheckStatus := .checkFail
  componentList : List FirmwareComponent := []
  isSameWithDb : Bool := true
  -- FirmwareDownloadDataProcessor and FirmwareInstallDataProcessor
  processorTasks : FirmwareTask := {}
  downloadProgress : Progress := {}
  -- the executor
  executorTasks : FirmwareTask := {}
  components : List FirmwareComponent := []
  upgradeStatus : UpgradeStatus := .init
  wakes : Nat → Wake := fun _ => {}
  taskProgress : Progress := {}
  installCallbackInfo : InstallCallbackInfo := {}
  -- FirmwareInstall
  isInstalling : Bool := false
  sysInstallProgress : Progress := {}
  errMsg : ErrorMessage := {}
  sysCallback : Option (UpgradeOptions × FirmwareComponent) := none

/-- One assignment to a field of a flow. -/
inductive FlowUpdate where
  | nextStep (s : FirmwareStep)
  | buildError (callResult : CallResult) (msg : String)
  | addErrorMessage (errorCode : Int) (msg : String)
  | checkResult (status : CheckStatus) (componentList : List FirmwareComponent)
  | isSameWithDb (b : Bool)
  | componentList (l : List FirmwareComponent)
  | processorTasks (t : FirmwareTask)
  | downloadProgress (p : Progress)
  | executorTasks (t : FirmwareTask)
  | components (l : List FirmwareComponent)
  | upgradeStatus (s : UpgradeStatus)
  | wake (index : Nat) (w : Wake)
  | taskProgress (p : Progress)
  | installCallbackInfo (i : InstallCallbackInfo)
  | isInstalling (b : Bool)
  | sysInstallProgress (p : Progress)
  | errMsg (e : ErrorMessage)
  | sysCallback (c : Option (UpgradeOptions × FirmwareComponent))

/-- The flow after an assignment. -/
def FlowUpdate.apply (w : Flow) : FlowUpdate → Flow
  | .nextStep s => { w with nextStep := s }
  | .buildError r m => { w with businessError := w.businessError.build r m }
  | .addErrorMessage e m => { w with businessError := w.businessError.addErrorMessage e m }
  | .checkResult s l => { w with checkStatus := s, componentList := l }
  | .isSameWithDb b => { w with isSameWithDb := b }
  | .componentList l => { w with componentList := l }
  | .processorTasks t => { w with processorTasks := t }
  | .downloadProgress p => { w with downloadProgress := p }
  | .executorTasks t => { w with executorTasks := t }
  | .components l => { w with components := l }
  | .upgradeStatus s => { w with upgradeStatus := s }
  | .wake i k => { w with wakes := Function.update w.wakes i k }
  | .taskProgress p => { w with taskProgress := p }
  | .installCallbackInfo i => { w with installCallbackInfo := i }
  | .isInstalling b => { w with isInstalling := b }
  | .sysInstallProgress p => { w with sysInstallProgress := p }
  | .errMsg e => { w with errMsg := e }
  | .sysCallback c => { w with sysCallback := c }

/-! ## History -/

/-- What the last change of the task table by a flow made of the row that is read first. -/
inductive Recorded where
  | status (s : UpgradeStatus)
  | cleared
  deriving DecidableEq, Repr

/-- What has happened in a flow so far. -/
structure Journal where
  /-- Its mode has read a status that lets it go on. -/
  admitted : Bool := false
  /-- The last change of the task table made by its threads. -/
  recorded : Option Recorded := none
  /-- Its check result has passed the test for undone tasks and is being processed. -/
  processing : Bool := false
  /-- The packages `VerifyDownloadPkg` accepted. -/
  accepted : List String := []
  /-- The packages that are complete: the library ended the transfer with `CURLE_OK`, or the executor found the file of full size. -/
  complete : List String := []
  /-- How often a progress other than `DOWNLOADING` reached `OnDownloadCallback`. -/
  reports : Nat := 0
  /-- How often `HandleComplete` was entered. -/
  completed : Nat := 0
  /-- `DownloadCallback` has written a status other than `DOWNLOADING` to a component row, and to the task row. -/
  componentClosed : Bool := false
  taskClosed : Bool := false
  /-- `PerformInstall` is running. -/
  performing : Bool := false

/-- A comparison of a file's digest that succeeded. -/
structure Verified where
  path : String
  verifyInfo : String
  content : Bytes
  deriving DecidableEq

/-- The places a thread passes that the results speak about. -/
inductive Mark where
  | checkResultHandled
  | onDownloadCallback (p : Progress)
  | handleComplete
  | accepted (path : String)
  | complete (path : String)
  | verified (v : Verified)
  | performInstall (components : List FirmwareComponent)
  | performInstallEnd
  | applyDoInstall
  | downloadThreadCallback (status : UpgradeStatus)
  | handleInstallResult (result : Bool) (errMsg : ErrorMessage)
  deriving DecidableEq

/-- Note a place in a journal. -/
def Mark.note (j : Journal) : Mark → Journal
  | .checkResultHandled => { j with processing := false }
  | .onDownloadCallback p => { j with reports := if p.status = .downloading then j.reports else j.reports + 1 }
  | .handleComplete => { j with completed := j.completed + 1 }
  | .accepted p => { j with accepted := p :: j.accepted }
  | .complete p => { j with complete := p :: j.complete }
  | .verified _ => j
  | .performInstall _ => { j with performing := true }
  | .performInstallEnd => { j with performing := false }
  | .applyDoInstall | .downloadThreadCallback _ | .handleInstallResult _ _ => j

/-- How far a download thread has come with its tests for a cancel: it will test again, it is about to test for the last time, a test
has found a cancel or no network, or no test is left. -/
inductive TestStage where
  | testing | ending | abnormal | over
  deriving DecidableEq, Repr

/-- What the threads of an installation have come to: the events of its end that were sent, what `HandleInstallResult` was given, and
the last status written to the task table. -/
structure Outcome where
  terminals : List EventInfo := []
  verdict : Option (Bool × ErrorMessage) := none
  written : Option UpgradeStatus := none
  deriving DecidableEq

/-- What has happened besides: the flows whose download was going on when a cancel was accepted, the tests of each thread, what has
become of each installation, and the end of a download that a thread has taken to its flow and the flow has not dealt with. -/
structure History where
  cancelled : Nat → Bool := fun _ => false
  tests : Thread → TestStage := fun _ => .testing
  outcomes : Nat → Outcome := fun _ => {}
  delivered : Thread → Option Progress := fun _ => none

/-! ## Operations -/

/-- The function that reads or writes a table. -/
inductive Caller where
  | download
  | upgrade
  | cancel
  | doCancelDownload
  | handleNetChanged
  | restoreUpdate
  | doClearError
  | handleBootComplete
  | handleBootUpdate
  | handleFileResults
  | saveHotaCurrentVersionComponentId
  | getNewVersionInfo
  | getNewVersionDescription
  | canInstall
  | isIdle
  | isUpdateOnStatus
  | hasUndoneTask
  | isVersionSameWithDb
  | updateFirmwareComponent
  | handleNewVersion
  | handleNoNewVersion
  | stepAfterCheck
  | buildCheckResult
  | clearFirmwareInfo
  | downloadMode
  | downloadDataProcessor
  | stepAfterDownload
  | downloadExecutor
  | downloadCallback
  | installApplyMode (order : Order)
  | installDataProcessor
  | installExecutor
  | handleInstallProgress
  | handleInstallResult
  | applyExecutor
  deriving DecidableEq, Repr

/-- The columns a change of the task table sets. -/
inductive TaskUpdate where
  | progress (status : UpgradeStatus) (progress : Int32)
  | downloadOption (mode : DownloadMode) (net : NetType) (order : Order)
  | downloadTaskId (id : String)
  | upgradeMode (mode : UpgradeMode)
  deriving DecidableEq, Repr

/-- The row after a change. -/
def TaskUpdate.apply (t : FirmwareTask) : TaskUpdate → FirmwareTask
  | .progress s p => { t with status := s, progress := p }
  | .downloadOption m n o => { t with downloadMode := m, downloadAllowNetwork := n, downloadOrder := o }
  | .downloadTaskId i => { t with downloadTaskId := i }
  | .upgradeMode m => { t with upgradeMode := m }

/-- The rows a change of the component table is for, and the columns it sets. -/
inductive ComponentUpdate where
  | progressByUrl (url : String) (status : UpgradeStatus) (progress : Int32)
  | urlByVersionId (versionId : String) (url : String)
  deriving DecidableEq, Repr

/-- The row after a change: itself, when the change is not for it. -/
def ComponentUpdate.apply (c : FirmwareComponent) : ComponentUpdate → FirmwareComponent
  | .progressByUrl u s p => if c.url = u then { c with status := s, progress := p } else c
  | .urlByVersionId v u => if c.versionId = v then { c with url := u } else c

/-- The atomic operations of the threads. -/
inductive Op where
  -- the task table
  | queryTasks (caller : Caller)
  | insertTask (t : FirmwareTask)
  | updateTasks (caller : Caller) (taskId : String) (u : TaskUpdate)
  | deleteTasks
  -- the component table
  | queryComponents (caller : Caller)
  | insertComponents (l : List FirmwareComponent)
  | updateComponents (caller : Caller) (u : ComponentUpdate)
  | deleteComponents
  -- files
  | readFile (path : String)
  | openFile (path : String)
  | appendFile (path : String) (bytes : Bytes)
  | removeFile (path : String)
  | deleteDownloadFiles
  | saveDataToFile (path : String) (data : String)
  | readUpdaterResult
  -- the preferences
  | getAutoDownloadSwitch
  | getDueInitFlag
  | setDueInitFlag (b : Bool)
  | saveString (key value : String)
  -- what clients are told
  | publish (e : EventInfo)
  | onCheckVersionDone (e : BusinessError) (r : CheckResult)
  -- the fields of the flow, the static flags and the singletons
  | getFlow
  | getNextStep
  | setFlow (u : FlowUpdate)
  | getIsNoNet
  | setIsNoNet (b : Bool)
  | getIsCancel
  | setIsCancel (b : Bool)
  | getNetType
  | setNetType (t : NetType)
  | getStatusCache
  | setStatusCache (isChecking : Bool) (lastCheckTime : Int)
  | registerNetChangedListener
  | hasNetChangedListener
  | lockNetChange
  | unlockNetChange
  -- threads
  | spawn (t : Thread)
  | join (t : Thread)
  | awaitWake (index : Nat)
  -- everything else
  | ask (q : Query)
  | enter (m : Mark)
  | reboot
  | terminate

/-- What an operation answers. -/
abbrev Op.Res : Op → Type
  | .queryTasks _ => List FirmwareTask
  | .queryComponents _ => List FirmwareComponent
  | .readFile _ => Option Bytes
  | .readUpdaterResult => Option String
  | .openFile _ | .saveDataToFile _ _ => Bool
  | .getFlow => Flow
  | .getNextStep => FirmwareStep
  | .getIsNoNet | .getIsCancel | .getAutoDownloadSwitch | .getDueInitFlag | .hasNetChangedListener | .awaitWake _ => Bool
  | .getNetType => NetType
  | .getStatusCache => Bool × Int
  | .ask q => q.Reply
  | _ => Unit

/-- The tests of a thread after an operation of it. -/
def TestStage.next (t : TestStage) : (o : Op) → o.Res → TestStage
  | .enter (.downloadThreadCallback s), _ => if s = .downloading then .testing else .ending
  | .getIsNoNet, found => match t with
    | .testing | .ending => if found then .abnormal else t
    | _ => t
  | .getIsCancel, found => match t with
    | .testing => if found then .abnormal else .testing
    | .ending | .abnormal => if found then .abnormal else .over
    | .over => .over
  | .setIsCancel false, _ => .over
  | _, _ => t

/-- A thread that carries an installation out. -/
def Thread.installs : Thread → Bool
  | .installExecutor _ _ _ | .installerCallback _ _ _ _ _ _ => true
  | _ => false

/-- An event that reports the end of an installation. -/
def EventId.isInstallEnd (e : EventId) : Bool := e = .upgradeFail || e = .applyWait

/-- What an installation has come to after an operation. -/
def Outcome.next (n : Thread) (j : Outcome) (o : Op) : Outcome :=
  if n.installs then match o with
    | .publish e => if e.eventId.isInstallEnd then { j with terminals := j.terminals ++ [e] } else j
    | .updateTasks _ _ (.progress s _) => { j with written := some s }
    | .enter (.handleInstallResult result errMsg) => { j with verdict := some (result, errMsg) }
    | _ => j
  else j

/-- The end of a download that a thread has taken to its flow, after an operation: the flow deals with it once it reads the task. -/
def Progress.delivered (j : Option Progress) : Op → Option Progress
  | .enter (.onDownloadCallback p) => if p.status = .downloading then none else some p
  | .queryTasks .stepAfterDownload => none
  | _ => j

/-- Programs of the service. -/
abbrev Prog := Concurrent.Prog Op Op.Res

/-- The program that takes one operation. -/
abbrev call (o : Op) : Prog o.Res := Concurrent.Prog.perform o

/-! ## The state -/

/-- The state of the service. -/
structure State where
  tasks : List FirmwareTask := []
  components : List FirmwareComponent := []
  files : String → Option Bytes := fun _ => none
  events : List EventInfo := []
  checkVersionDone : List (BusinessError × CheckResult) := []
  autoDownloadSwitch : Bool := false
  isChecking : Bool := false
  lastCheckTime : Int := -1
  netType : NetType := .noNet
  isNoNet : Bool := false
  isCancel : Bool := false
  updaterResult : Option String := none
  dueInitFlag : Bool := false
  preferences : String → Option String := fun _ => none
  netChangedListener : Bool := false
  netChangeLocked : Bool := false
  flows : Nat → Flow := fun _ => {}
  nextFlow : Nat := 0
  stopped : Bool := false
  journals : Nat → Journal := fun _ => {}
  verified : List Verified := []
  history : History := {}

namespace State

/-- The status of the row that is read first. -/
def status (s : State) : Option UpgradeStatus := s.tasks.head?.map (·.status)

/-- Change the flow `f`. -/
def setFlow (s : State) (f : Nat) (u : FlowUpdate) : State := { s with flows := Function.update s.flows f (u.apply (s.flows f)) }

/-- Change the journal of the flow `f`. -/
def note (s : State) (f : Nat) (g : Journal → Journal) : State :=
  { s with journals := Function.update s.journals f (g (s.journals f)) }

end State

/-- The files after everything in the package directory was deleted. -/
def withoutDownloadFiles (files : String → Option Bytes) : String → Option Bytes := fun path =>
  if (Firmware.PACKAGE_PATH ++ "/").toList.isPrefixOf path.toList then none else files path

/-- `FirmwareCheckDataProcessor::HasUndoneTask` as a test of the status. -/
def UpgradeStatus.isUndone (s : UpgradeStatus) : Bool :=
  s = .downloading || s = .downloadPause || s = .verifying || s = .installing || s = .updating

/-- The statuses `FirmwareDownloadMode::GetStepAfterInit` lets a download start from. -/
def UpgradeStatus.isDownloadable (s : UpgradeStatus) : Bool :=
  s = .checkVersionSuccess || s = .downloadFail || s = .downloadPause

/-- Whether what a function reads in the task table lets its flow go on: the test of the download mode, and the test of the
install and apply mode for its order (an order to apply is not tested). -/
def Caller.admits (s : UpgradeStatus) : Caller → Bool
  | .downloadMode => s.isDownloadable
  | .installApplyMode o =>
    if o = .install || o = .installAndApply then s = .downloadSuccess else o = .apply
  | _ => false

/-- What reading the task table adds to the journal of a flow. -/
def Caller.note (tasks : List FirmwareTask) (j : Journal) (c : Caller) : Journal :=
  match tasks with
  | [] => if c = .hasUndoneTask then { j with processing := true } else j
  | t :: _ =>
    if c = .hasUndoneTask then { j with processing := !t.status.isUndone }
    else if c.admits t.status then { j with admitted := true } else j

/-- What a change of the task table adds to the journal of a flow. -/
def TaskUpdate.note (tasks : List FirmwareTask) (caller : Caller) (taskId : String) (u : TaskUpdate) (j : Journal) : Journal :=
  match u with
  | .progress s _ =>
    { j with
      recorded := if tasks.head?.any (·.taskId = taskId) then some (.status s) else j.recorded
      taskClosed := j.taskClosed || (caller = .downloadCallback && s ≠ .downloading) }
  | _ => j

/-- What a change of the component table adds to the journal of a flow. -/
def ComponentUpdate.note (caller : Caller) (u : ComponentUpdate) (j : Journal) : Journal :=
  match u with
  | .progressByUrl _ s _ => { j with componentClosed := j.componentClosed || (caller = .downloadCallback && s ≠ .downloading) }
  | _ => j

/-- What an operation answers; none when the thread has to wait, or when the environment's answer is none to the operation. -/
def Op.answer (n : Thread) (a : Answer) (s : State) : (o : Op) → Option o.Res
  | .queryTasks _ => some s.tasks
  | .queryComponents _ => some s.components
  | .readFile p => some (s.files p)
  | .readUpdaterResult => some s.updaterResult
  | .openFile _ | .saveDataToFile _ _ => match a with
    | .bool b => some b
    | _ => none
  | .getFlow => some (s.flows n.flow)
  | .getNextStep => some (s.flows n.flow).nextStep
  | .getIsNoNet => some s.isNoNet
  | .getIsCancel => some s.isCancel
  | .getNetType => some s.netType
  | .getStatusCache => some (s.isChecking, s.lastCheckTime)
  | .getAutoDownloadSwitch => some s.autoDownloadSwitch
  | .getDueInitFlag => some s.dueInitFlag
  | .hasNetChangedListener => some s.netChangedListener
  | .registerNetChangedListener | .lockNetChange => if s.netChangeLocked then none else some ()
  | .awaitWake i =>
    let w := (s.flows n.flow).wakes i
    if w.isWake then some w.isExitThread else none
  | .ask q => q.reply a
  | .insertTask _ | .updateTasks _ _ _ | .deleteTasks => some ()
  | .insertComponents _ | .updateComponents _ _ | .deleteComponents => some ()
  | .appendFile _ _ | .removeFile _ | .deleteDownloadFiles => some ()
  | .setDueInitFlag _ | .saveString _ _ => some ()
  | .publish _ | .onCheckVersionDone _ _ => some ()
  | .unlockNetChange => some ()
  | .setFlow _ | .setIsNoNet _ | .setIsCancel _ | .setNetType _ | .setStatusCache _ _ => some ()
  | .spawn _ | .join _ | .enter _ | .reboot | .terminate => some ()

/-- What an operation makes of the state, the journals included. -/
def Op.effect (n : Thread) (s : State) : (o : Op) → o.Res → State
  | .queryTasks c, _ => s.note n.flow fun j => c.note s.tasks j
  | .insertTask t, _ => { s with tasks := s.tasks ++ [t] }
  | .updateTasks c i u, _ => { s.note n.flow (u.note s.tasks c i) with
      tasks := s.tasks.map fun t => if t.taskId = i then u.apply t else t }
  | .deleteTasks, _ => { s.note n.flow fun j => { j with recorded := some .cleared } with tasks := [] }
  | .insertComponents l, _ => { s with components := s.components ++ l }
  | .updateComponents c u, _ => { s.note n.flow (u.note c) with components := s.components.map fun r => u.apply r }
  | .deleteComponents, _ => { s with components := [] }
  | .openFile p, opened =>
    if opened then { s with files := Function.update s.files p (some ((s.files p).getD [])) } else s
  | .appendFile p b, _ => { s with files := Function.update s.files p ((s.files p).map (· ++ b)) }
  | .removeFile p, _ => { s with files := Function.update s.files p none }
  | .deleteDownloadFiles, _ => { s with files := withoutDownloadFiles s.files }
  | .saveDataToFile p d, opened =>
    if opened then { s with files := Function.update s.files p (some d.toUTF8.toList) } else s
  | .setDueInitFlag b, _ => { s with dueInitFlag := b }
  | .saveString k v, _ => { s with preferences := Function.update s.preferences k (some v) }
  | .publish e, _ => { s with events := s.events ++ [e] }
  | .onCheckVersionDone e r, _ => { s with checkVersionDone := s.checkVersionDone ++ [(e, r)] }
  | .setFlow u, _ => s.setFlow n.flow u
  | .setIsNoNet b, _ => { s with isNoNet := b }
  | .setIsCancel b, _ => { s with isCancel := b }
  | .setNetType t, _ => { s with netType := t }
  | .setStatusCache b t, _ => { s with isChecking := b, lastCheckTime := t }
  | .registerNetChangedListener, _ => { s with netChangedListener := true }
  | .lockNetChange, _ => { s with netChangeLocked := true }
  | .unlockNetChange, _ => { s with netChangeLocked := false }
  | .awaitWake i, exit => if exit then s else s.setFlow n.flow (.wake i {})
  | .enter (.verified v), _ => { s with verified := v :: s.verified }
  | .enter m, _ => s.note n.flow m.note
  | .reboot, _ | .terminate, _ => { s with stopped := true }
  | _, _ => s

/-- The history after an operation. -/
def Op.chronicle (n : Thread) (s : State) (o : Op) (x : o.Res) : History where
  cancelled := match o with
    | .setIsCancel true => fun f => s.history.cancelled f || (s.journals f).recorded = some (.status .downloading)
    | _ => s.history.cancelled
  tests := Function.update s.history.tests n ((s.history.tests n).next o x)
  outcomes := Function.update s.history.outcomes n.flow ((s.history.outcomes n.flow).next n o)
  delivered := Function.update s.history.delivered n (Progress.delivered (s.history.delivered n) o)

/-- The state after an operation with its answer. -/
def Op.after (n : Thread) (s : State) (o : Op) (x : o.Res) : State := { o.effect n s x with history := o.chronicle n s x }

/-- One operation of a thread; none when the service has stopped. -/
def exec (n : Thread) (o : Op) (a : Answer) (s : State) : Option (o.Res × State) :=
  if s.stopped then none else (o.answer n a s).map fun x => (x, o.after n s x)

/-- What one operation does. -/
theorem exec_eq_some {n : Thread} {o : Op} {a : Answer} {s s' : State} {x : o.Res} (h : exec n o a s = some (x, s')) :
    s.stopped = false ∧ o.answer n a s = some x ∧ s' = o.after n s x := by
  unfold exec at h
  split at h
  · cases h
  · rename_i hs
    obtain ⟨y, hy, he⟩ := Option.map_eq_some_iff.mp h
    cases he
    exact ⟨by simpa using hs, hy, rfl⟩

end UpdateEngine
