import UpdateEngine.Firmware.Outline
import UpdateEngine.Startup.Manager

/-!
# The idle exit

The looper of the `StartupManager` in the process whose flows it looks after: `AccessManager::IsIdle` asks whether a client is
registered, and `FirmwareManager::IsIdle` for the status of checks and the task table. The threads of the flows and the rounds of the
looper take their operations in any order.
-/

namespace UpdateEngine.Idle

open Concurrent

/-- The threads of the process: those of the flows; a round of the looper; a client that registers or unregisters a callback, after
which there is no client, or there is one. -/
inductive Thread where
  | flow (n : UpdateEngine.Thread)
  | idleLoop (number : Nat)
  | client (number : Nat) (isRemoteIdle : Bool)
  deriving DecidableEq, Repr

/-- The atomic operations. -/
inductive Op where
  | flow (o : UpdateEngine.Op)
  | startup (o : Startup.Op)
  | getRemoteIdle
  | setRemoteIdle (isRemoteIdle : Bool)

/-- What an operation answers. -/
abbrev Op.Res : Op → Type
  | .flow o => o.Res
  | .startup o => o.Res
  | .getRemoteIdle => Bool
  | .setRemoteIdle _ => Unit

/-- Programs of the process. -/
abbrev Prog := Concurrent.Prog Op Op.Res

/-- The program that takes one operation. -/
abbrev call (o : Op) : Prog o.Res := Concurrent.Prog.perform o

/-! ## The code -/

/-- A text of the flows, in the process. -/
def hosted {α : Type} (p : UpdateEngine.Prog α) : Prog α := p.interp fun o => call (.flow o)

/-- `AccessManager::IsIdle`; the firmware is the one access there is. -/
def AccessManager.isIdle : Prog Bool := do
  if !(← call .getRemoteIdle) then return false
  hosted FirmwareManager.isIdle

/-- What the operations of the `StartupManager` come to in the process. -/
def expand : (o : Startup.Op) → Prog o.Res
  | .isIdle => AccessManager.isIdle
  | o => call (.startup o)

/-- The text of each thread. -/
def body (P : Platform) (config : Startup.ScheduleConfig) : Thread → Prog Unit
  | .flow n => hosted (UpdateEngine.body P n)
  | .idleLoop _ => (Startup.StartupManager.idleLoop config).interp expand
  | .client _ isRemoteIdle => call (.setRemoteIdle isRemoteIdle)

/-! ## The process -/

/-- What has happened: the flows that were accepted and have not completed, each with the step it was given; the rounds whose reading
of the status is current, no flow having been accepted since, each with the time it has read; and the flows under way whenever the
service was unloaded. -/
structure Record where
  underWay : List (Nat × FirmwareStep) := []
  readings : List (Nat × Int) := []
  unloads : List (List (Nat × FirmwareStep)) := []

namespace Record

/-- A flow has completed. -/
def complete (r : Record) (f : Nat) : Record := { r with underWay := r.underWay.filter fun e => e.1 ≠ f }

/-- What a thread of a flow adds. A flow is accepted when it is given a step, and has completed when its caller gets the result of the
check, or when its end is handled. -/
def ofFlow (n : UpdateEngine.Thread) (r : Record) : UpdateEngine.Op → Record
  | .setFlow (.nextStep step) =>
    if step = .complete then r else { r with underWay := (n.flow, step) :: r.underWay, readings := [] }
  | .onCheckVersionDone _ _ => r.complete n.flow
  | .enter .handleComplete => if n.kind = .check then r else r.complete n.flow
  | _ => r

/-- What a round adds when it reads the flows. -/
def ofReading (number : Nat) (r : Record) : (o : UpdateEngine.Op) → o.Res → Record
  | .getStatusCache, (_, lastCheckTime) => { r with readings := (number, lastCheckTime) :: r.readings }
  | _, _ => r

/-- What a round adds when it unloads the service. -/
def ofExit (r : Record) : Startup.Op → Record
  | .unloadSystemAbility => { r with unloads := r.underWay :: r.unloads }
  | _ => r

/-- Whether a check is under way. -/
def checks (r : Record) : Bool := r.underWay.any fun e => e.2 = .checkStep

/-- Whether a download or an installation is under way. -/
def others (r : Record) : Bool := r.underWay.any fun e => e.2 ≠ .checkStep

/-- Whether the reading of a round is current. -/
def current (r : Record) (number : Nat) : Bool := r.readings.any fun e => e.1 = number

end Record

/-- The process, on its device. -/
structure Process where
  service : State
  device : Startup.Device
  isRemoteIdle : Bool := true
  record : Record := {}

/-- What the environment answers. -/
structure Answer where
  flow : UpdateEngine.Answer := .none
  startup : Startup.Answer := .none

/-- One operation of a thread. A round belongs to no flow: it reads the status and the table, which have no flow either, and leaves
them as they are. -/
def exec (n : Thread) (o : Op) (a : Answer) (s : Process) : Option (o.Res × Process) :=
  match n, o with
  | .flow n, .flow o => (UpdateEngine.exec n o a.flow s.service).map fun xs =>
    (xs.1, { s with service := xs.2, record := s.record.ofFlow n o })
  | .idleLoop i, .flow o => if s.service.stopped then none else (o.answer (.clearError 0) a.flow s.service).map fun x =>
    (x, { s with record := s.record.ofReading i o x })
  | .idleLoop i, .startup o => if s.service.stopped then none else (Startup.exec (.idleLoop 0 i) o a.startup s.device).map fun xs =>
    (xs.1, { s with device := xs.2, record := s.record.ofExit o })
  | .idleLoop _, .getRemoteIdle => if s.service.stopped then none else some (s.isRemoteIdle, s)
  | .client _ _, .setRemoteIdle b => if s.service.stopped then none else some ((), { s with isRemoteIdle := b })
  | _, _ => none

/-- The process: the flows as in the service, rounds of the looper and clients at any time. -/
def machine (P : Platform) (config : Startup.ScheduleConfig) : Machine Op Op.Res Process Answer Thread where
  body := body P config
  exec := exec
  spawns := fun o => match o with
    | .flow (.spawn t) => some (.flow t)
    | _ => none
  joins := fun o => match o with
    | .flow (.join t) => some (.flow t)
    | _ => none
  starts := fun n s => match n with
    | .flow n => (UpdateEngine.starts n s.service).map fun t => { s with service := t }
    | _ => some s

/-- The configurations of the process. -/
abbrev Config := Concurrent.Config Op Op.Res Process Thread

/-- What can happen in the process. -/
abbrev Action := Concurrent.Action Answer Thread

/-- The process once its service is published. -/
def boot (d : Store) : Config :=
  ⟨{ service := d.state, device := { process := some 0, nextProcess := 1, published := true } }, []⟩

end UpdateEngine.Idle
