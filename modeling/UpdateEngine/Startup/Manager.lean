import UpdateEngine.Firmware.Manager

/-!
# StartupManager

Why a process of the service starts, and how it comes to its end. The reason of a start is remembered in the preferences
(`PROCESS_RESTART_REASON`), where a `TerminateUpgrade` leaves it for the next process, and where each schedule of an idle exit leaves
its own. A device runs one process after the other; the threads of a process are named after it.
-/

namespace UpdateEngine.Startup

open Concurrent

/-! ## What the code is configured with -/

/-- `ScheduleTask`, with the fields that are read. -/
structure ScheduleTask where
  minDelayTime : UInt64 := 0
  startupReason : StartupReason := .unknown
  deriving DecidableEq, Repr

/-- `ScheduleConfig`: the intervals, in seconds. -/
structure ScheduleConfig where
  pullupInterval : UInt64 := 4 * 60 * 60
  idleCheckInterval : UInt64 := 5 * 60

def ONE_SECOND_MILLISECONDS : UInt64 := 1000
def PULLUP_AFTER_TERMINATE_INTERVAL : UInt64 := 5
def FILES_ROOT_PATH : String := "/data/service/el1/public/update/dupdate_engine/files"
def DUPDATE_ENGINE_PACKAGE_ROOT_PATH : String := "/data/update/ota_package"

/-! ## Operations -/

/-- The threads, each with its process and a number that tells it from others of its kind: the start of the process, a request to
terminate, the thread that ends the process after one, a round of the looper; and what comes from outside: the process is stopped,
the device is rebooted. -/
inductive Thread where
  | onStart (process : Nat)
  | terminateUpgrade (process number : Nat)
  | exit (process number : Nat)
  | idleLoop (process number : Nat)
  | stop (process : Nat)
  | reboot (number : Nat)
  deriving DecidableEq, Repr

/-- The process a thread belongs to, or is about. -/
def Thread.process : Thread → Option Nat
  | .onStart p | .terminateUpgrade p _ | .exit p _ | .idleLoop p _ | .stop p => some p
  | .reboot _ => none

/-- The atomic operations. -/
inductive Op where
  -- the clock
  | isInRebootDuration
  | getTimestamp
  -- the preferences
  | obtainRestartReason
  | removeRestartReason
  | saveRestartReason (startupReason : StartupReason)
  | removeAllPreferences
  -- files and the database
  | destroyBaseDirs
  | destroyFirmwareDirs
  | deleteDbStore
  -- the fields and the service
  | getLastIdleCheckTime
  | setLastIdleCheckTime (t : Int)
  | publish
  -- the platform and the other services
  | isIdle
  | startServiceByTimer (scheduleTime : UInt64)
  | unloadSystemAbility
  | reply (accepted : Bool)
  -- threads and processes
  | spawn (t : Thread)
  | exit
  | stop
  | reboot
  deriving DecidableEq

/-- What an operation answers. -/
abbrev Op.Res : Op → Type
  | .isInRebootDuration | .isIdle => Bool
  | .getTimestamp | .getLastIdleCheckTime | .startServiceByTimer _ => Int
  | .obtainRestartReason => StartupReason
  | _ => Unit

/-- Programs of the startup. -/
abbrev Prog := Concurrent.Prog Op Op.Res

/-- The program that takes one operation. -/
abbrev call (o : Op) : Prog o.Res := Concurrent.Prog.perform o

/-! ## The code -/

/-- `StartupSchedule::Schedule`. -/
def StartupSchedule.schedule (task : ScheduleTask) : Prog Bool := do
  let scheduleTime := task.minDelayTime * ONE_SECOND_MILLISECONDS
  call (.saveRestartReason task.startupReason)
  let ret ← call (.startServiceByTimer scheduleTime)
  return ret = 0

/-- `FirmwareManager::DoTerminateUpgrade`. -/
def FirmwareManager.doTerminateUpgrade (process number : Nat) : Prog Unit := do
  let scheduleTask : ScheduleTask :=
    { startupReason := .processEnvReset, minDelayTime := PULLUP_AFTER_TERMINATE_INTERVAL }
  if !(← StartupSchedule.schedule scheduleTask) then
    call (.reply false)
  else
    call (.spawn (.exit process number))
    call (.reply true)

/-- `FirmwareManager::Init`, past the directories it makes. -/
def FirmwareManager.init (startupReason : StartupReason) : Prog Unit := do
  if startupReason = .processEnvReset then
    call .destroyFirmwareDirs
    call .removeAllPreferences
    call .deleteDbStore

namespace StartupManager

/-- `GetStartupReason`. -/
def getStartupReason : Prog StartupReason := do
  if ← call .isInRebootDuration then return .deviceReboot
  let reasonFromSp ← call .obtainRestartReason
  if reasonFromSp = .unknown then return .scheduleTask
  call .removeRestartReason
  return reasonFromSp

/-- `Init`. -/
def init : Prog Unit := do
  let startupReason ← getStartupReason
  if startupReason = .processEnvReset then call .destroyBaseDirs
  FirmwareManager.init startupReason

/-- `IdleCheck`, with the one of `ScheduleManager`. -/
def idleCheck (config : ScheduleConfig) : Prog Bool := do
  let now ← call .getTimestamp
  let lastIdleCheckTime ← call .getLastIdleCheckTime
  if (now - lastIdleCheckTime).natAbs < config.idleCheckInterval.toNat then return false
  let now ← call .getTimestamp
  call (.setLastIdleCheckTime now)
  call .isIdle

/-- `PreExit`: the task `ScheduleManager` schedules has no reason. -/
def preExit (config : ScheduleConfig) : Prog Bool :=
  StartupSchedule.schedule { minDelayTime := config.pullupInterval }

/-- What the looper of `IdleLoop` does. -/
def idleLoop (config : ScheduleConfig) : Prog Unit := do
  if !(← idleCheck config) then return ()
  if !(← preExit config) then return ()
  call .unloadSystemAbility

end StartupManager

/-- `UpdateService::OnStart`, with the construction of the `StartupManager`: requests, and rounds of the looper, come after it. -/
def UpdateService.onStart : Prog Unit := do
  let now ← call .getTimestamp
  call (.setLastIdleCheckTime now)
  StartupManager.init
  call .publish

/-- The text of each thread. -/
def body (config : ScheduleConfig) : Thread → Prog Unit
  | .onStart _ => UpdateService.onStart
  | .terminateUpgrade p i => FirmwareManager.doTerminateUpgrade p i
  | .exit _ _ => call .exit
  | .idleLoop _ _ => StartupManager.idleLoop config
  | .stop _ => call .stop
  | .reboot _ => call .reboot

/-! ## The device -/

/-- What has become of the requests to terminate: one has stored its reason, and one has been accepted, since the last reset; a start
has come to its end without the reset of one that was accepted; a reset was begun for none. -/
structure History where
  stored : Bool := false
  accepted : Bool := false
  missed : Bool := false
  repeated : Bool := false
  deriving DecidableEq

/-- A device, with the process that is running. -/
structure Device where
  store : Store := {}
  restartReason : Option StartupReason := none
  rebooted : Bool := false
  process : Option Nat := none
  nextProcess : Nat := 0
  published : Bool := false
  lastIdleCheckTime : Int := 0
  history : History := {}

/-- What the environment answers. -/
inductive Answer where
  | none
  | bool (b : Bool)
  | int (n : Int)
  deriving DecidableEq, Repr

/-- Whether a path lies in one of the directories `StartupManager::Init` may empty. -/
def inBaseDirs (path : String) : Bool :=
  [FILES_ROOT_PATH, DUPDATE_ENGINE_PACKAGE_ROOT_PATH].any fun dir => (dir ++ "/").toList.isPrefixOf path.toList

/-- The files without those of some directories. -/
def withoutDirs (dirs : String → Bool) (files : String → Option Bytes) : String → Option Bytes := fun path =>
  if dirs path then none else files path

/-- What an operation answers. The reboot duration has passed once it was found to have passed. -/
def Op.answer (a : Answer) (s : Device) : (o : Op) → Option o.Res
  | .isInRebootDuration => match a with
    | .bool b => if b && !s.rebooted then none else some b
    | _ => none
  | .isIdle => match a with
    | .bool b => some b
    | _ => none
  | .getTimestamp | .startServiceByTimer _ => match a with
    | .int n => some n
    | _ => none
  | .getLastIdleCheckTime => some s.lastIdleCheckTime
  | .obtainRestartReason => some (s.restartReason.getD .unknown)
  | .removeRestartReason | .saveRestartReason _ | .removeAllPreferences | .destroyBaseDirs | .destroyFirmwareDirs
  | .deleteDbStore | .setLastIdleCheckTime _ | .publish | .unloadSystemAbility | .reply _ | .spawn _ | .exit | .stop
  | .reboot => some ()

/-- What an operation makes of the device. -/
def Op.effect (s : Device) : (o : Op) → o.Res → Device
  | .isInRebootDuration, b => { s with rebooted := b }
  | .removeRestartReason, _ => { s with restartReason := none }
  | .saveRestartReason r, _ => { s with restartReason := some r }
  | .removeAllPreferences, _ => { s with
      restartReason := none
      store := { s.store with autoDownloadSwitch := false, dueInitFlag := false, preferences := fun _ => none } }
  | .destroyBaseDirs, _ => { s with store := { s.store with files := withoutDirs inBaseDirs s.store.files } }
  | .destroyFirmwareDirs, _ => { s with store := { s.store with files := withoutDirs inFirmwareDirs s.store.files } }
  | .deleteDbStore, _ => { s with store := { s.store with tasks := [], components := [] } }
  | .setLastIdleCheckTime t, _ => { s with lastIdleCheckTime := t }
  | .publish, _ => { s with published := true }
  | .exit, _ | .stop, _ => { s with process := none }
  | .reboot, _ => { s with process := none, rebooted := true }
  | _, _ => s

/-- What has become of the requests after an operation of a thread. -/
def Op.chronicle (n : Thread) (h : History) : (o : Op) → o.Res → History
  | .saveRestartReason r, _ => if r = .processEnvReset then { h with stored := true } else h
  | .startServiceByTimer _, ret => match n with
    | .terminateUpgrade _ _ => if ret = 0 then { h with accepted := true } else h
    | _ => h
  | .destroyBaseDirs, _ => { h with repeated := h.repeated || !h.stored }
  | .deleteDbStore, _ => { h with stored := false, accepted := false }
  | .publish, _ => { h with missed := h.missed || h.accepted }
  | _, _ => h

/-- One operation of a thread, as long as its process is running. -/
def exec (n : Thread) (o : Op) (a : Answer) (s : Device) : Option (o.Res × Device) :=
  if n.process.all (s.process = some ·) then
    (o.answer a s).map fun x => (x, { o.effect s x with history := o.chronicle n s.history x })
  else none

/-- Which threads are started from outside: the next process, when none is running; requests and rounds of the looper, once the
service is published; what stops the process, and what reboots the device. -/
def starts (n : Thread) (s : Device) : Option Device :=
  match n with
  | .onStart p =>
    if s.process = none ∧ p = s.nextProcess then
      some { s with process := some p, nextProcess := p + 1, published := false }
    else none
  | .terminateUpgrade p _ | .idleLoop p _ => if s.process = some p ∧ s.published then some s else none
  | .stop p => if s.process = some p then some s else none
  | .reboot _ => some s
  | .exit _ _ => none

/-- A device that no process has run on yet. -/
def Device.new (store : Store) (rebooted : Bool) : Device := { store := store, rebooted := rebooted }

/-- The device. -/
def machine (config : ScheduleConfig) : Machine Op Op.Res Device Answer Thread where
  body := body config
  exec := exec
  spawns := fun o => match o with
    | .spawn t => some t
    | _ => none
  joins := fun _ => none
  starts := starts

/-- The configurations of the device. -/
abbrev Config := Concurrent.Config Op Op.Res Device Thread

/-- What can happen on the device. -/
abbrev Action := Concurrent.Action Answer Thread

end UpdateEngine.Startup
