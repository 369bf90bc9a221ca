import UpdateEngine.Firmware.Manager

/-!
# From one process to the next

What a stopped process leaves behind is what the next one starts from. `Left` is what any number of lives can leave; `Thread.alone`
is one thread of a life in which no other thread is at work, as the work after a start is.
-/

namespace UpdateEngine

open Concurrent

/-- What a device can be left with: a database without rows at first; then whatever a process that is started from there, for any
reason, has made of it when it is stopped, after any steps of any threads. What lies outside of the two tables others may change. -/
inductive Left (P : Platform) : Store → Prop
  | new {d : Store} (ht : d.tasks = []) (hc : d.components = []) : Left P d
  | stopped {d : Store} {startupReason : StartupReason} {c : Config} (h : Left P d)
    (hc : Reach (machine P) (fun _ _ => True) (FirmwareManager.init startupReason d).boot c) : Left P c.state.store
  | elsewhere {d d' : Store} (h : Left P d) (ht : d'.tasks = d.tasks) (hc : d'.components = d.components) : Left P d'

/-- What the first process leaves. -/
theorem Left.first {P : Platform} {c : Config} (hc : Reach (machine P) (fun _ _ => True) (Store.boot {}) c) : Left P c.state.store :=
  @Left.stopped P {} .unknown c (.new rfl rfl) hc

/-- One operation of a thread while no other one is at work, when the environment answers all its questions alike. -/
def Thread.alone (n : Thread) (a : Answer) (o : Op) (s : State) : Option (o.Res × State) := exec n o a s

/-- The state with the operations taken so far. -/
abbrev Logged : Type := State × List Op

/-- What a call of the database that fails answers: a query finds nothing. -/
def Op.failed : (o : Op) → Option o.Res
  | .queryTasks _ => some []
  | .queryComponents _ => some []
  | .insertTask _ | .updateTasks _ _ _ | .deleteTasks => some ()
  | .insertComponents _ | .updateComponents _ _ | .deleteComponents => some ()
  | _ => none

/-- One operation, with the log. The `m`-th one, when it is a call of the database, fails, and changes nothing. -/
def Thread.failing (n : Thread) (a : Answer) (m : Nat) (o : Op) (c : Logged) : Option (o.Res × Logged) :=
  match if c.2.length = m then o.failed else none with
  | some x => some (x, c.1, c.2 ++ [o])
  | none => Prog.logged (n.alone a) o c

/-- The tables hold a version, or none: there is a task exactly when there are component rows, and its id is theirs. -/
def State.IsVersion (P : Platform) (s : State) : Prop :=
  (s.tasks = [] ∧ s.components = []) ∨
    ∃ t, s.tasks = [t] ∧ s.components ≠ [] ∧ t.taskId = FirmwareUpdateHelper.buildTaskId P s.components

/-- The state without what has happened. -/
def State.bare (s : State) : State := { s with journals := fun _ => {}, verified := [], history := {} }

/-! ## A phone -/

/-- An answer of the server that lists one package, as the parsers of the phone know it. -/
def versionText : String :=
  "\x7b\"searchStatus\":0,\"checkResults\":[\x7b\"descriptPackageId\":\"package\",...\x7d],\"descriptInfo\":[]\x7d"

/-- The same parsed. -/
def versionJson : Json := .obj [("searchStatus", .num 0),
  ("checkResults", .arr [.obj [("descriptPackageId", .str "package"), ("packageType", .num 1), ("versionName", .str "2.0"),
    ("versionCode", .str "2.0"), ("url", .str "server/package"), ("size", .num 1), ("verifyInfo", .str "")]]),
  ("descriptInfo", .arr [])]

/-- A device with the updater, whose server lists one package. -/
def Platform.phone : Platform := { Platform.device with
  jsonParse := fun text => if text = versionText then some versionJson else none
  cJsonSearchStatus := fun text => if text = versionText then some 0 else none
  bootSlots := "1" }

/-- An environment in which everything goes well. -/
def favourable : Op → Answer
  | .openFile _ | .saveDataToFile _ _ => .bool true
  | .ask .freeSpace => .space 1000000000
  | .ask .now | .ask .sysInstallerInit | .ask .setUpdateCallback | .ask (.startUpdatePackageZip _) => .int 0
  | .ask .newThread | .ask .curlInit | .ask .connect | .ask (.rebootAndInstallUpgradePackage _) => .bool true
  | .ask (.curlPerform _ _) => .transfer { events := [.data [0]] }
  | .ask .sslRead => .text (some versionText)
  | .ask .getUpdateStatus => .updateStatus .stateInit
  | _ => .none

/-- The same, but transfers take their time. -/
def slow : Op → Answer
  | .ask (.curlPerform _ _) => .transfer { events := [.progress 100 1, .progress 100 2] }
  | o => favourable o

/-- Threads with the number of turns each takes, one after the other. -/
def turnsOf (l : List (Thread × Nat)) : List Thread := l.flatMap fun e => List.replicate e.2 e.1

/-- The thread that downloads the package of the phone. -/
def phoneThread (f : Nat) : Thread := .downloadThread f {} 0 (Firmware.PACKAGE_PATH ++ "/package") "server/package"

/-- The phone gets a network and finds a version. -/
def phoneChecks : List (Thread × Nat) := [(.netChanged 0 .notMeteredWifi, 6), (.checkNewVersion 1, 9), (.checkExecutor 1, 28)]

/-- It downloads the version, and the updater is ordered to install it: up to the status of that. -/
def phoneInstalls : List (Thread × Nat) := phoneChecks ++
  [(.download 2 {}, 10), (.downloadExecutor 2 {}, 10), (phoneThread 2, 29), (.upgrade 3 {}, 13),
    (.installExecutor 3 {} .updater, 4)]

/-- The download is cancelled while it goes on: up to the status of that. -/
def phoneCancels : List (Thread × Nat) := phoneChecks ++
  [(.download 2 {}, 10), (.downloadExecutor 2 {}, 10), (phoneThread 2, 24), (.cancel 3, 4), (phoneThread 2, 21)]

end UpdateEngine
