import UpdateEngine.Engine.Registry
import UpdateEngine.Wire

/-!
# UpdateServiceKitsImpl: the callbacks on the side of a client

A client holds a handle of the service and the callbacks it has registered. The service can die and be started again; a handle that is
lost is got anew by the next request, which registers the callbacks again. A call of the service is `UpdateService` run alone, under the
lock of the kit; a call to a service that has died fails.
-/

namespace UpdateEngine.Registry.Kits

open Ipc (UpgradeInfo INT_CALL_SUCCESS INT_CALL_IPC_ERR)

/-- What surrounds a call: whether the service is loaded on demand and the recipient of its death added, and what is returned for a
remote object that is dead. -/
structure Answers where
  isUpdaterSaLoaded : Bool := true
  isRecipientAdded : Bool := true
  deadObject : { ret : Ipc.CallResult // ret ≠ INT_CALL_SUCCESS } := ⟨INT_CALL_IPC_ERR, by decide⟩

/-- The kit of a client, and the instances of the service, each with a number: the one that runs, those that the kit waits for the
death of, and those whose notice of death is on its way. -/
structure World where
  updateService : Option Nat := none
  remoteUpdateCallbackMap : List (UpgradeInfo × Nat) := []
  running : Option Nat := none
  service : Registry.Service := {}
  nextInstance : Nat := 0
  nextCallback : Nat := 0
  recipients : List Nat := []
  notices : List Nat := []

/-! ## The service -/

/-- What the service becomes by a registration. -/
def register (s : Registry.Service) (info : UpgradeInfo) (updateCallback : Nat) : Registry.Service :=
  ((Registry.UpdateService.registerUpdateCallback info updateCallback).run
    (fun o => Registry.exec (.registerUpdateCallback 0 info updateCallback) o ()) s).2

/-- `UpdateService::RegisterUpdateCallback`, called by a handle. -/
def UpdateService.registerUpdateCallback (a : Answers) (object : Nat) (info : UpgradeInfo) (updateCallback : Nat) :
    StateM World Ipc.CallResult := fun w =>
  if w.running = some object then (INT_CALL_SUCCESS, { w with service := register w.service info updateCallback })
  else (a.deadObject, w)

/-- A new instance of the service. -/
def World.start (w : World) : World :=
  { w with running := some w.nextInstance, service := {}, nextInstance := w.nextInstance + 1 }

/-- `GetSystemAbility`. -/
def getSystemAbility : StateM World (Option Nat) := fun w => (w.running, w)

/-- `UpdateServiceOnDemand::TryLoadUpdaterSa`. -/
def tryLoadUpdaterSa (a : Answers) : StateM World Bool := fun w =>
  (a.isUpdaterSaLoaded, if a.isUpdaterSaLoaded && w.running.isNone then w.start else w)

/-- The recipient of the kit waits for the death of an instance. -/
def World.addDeathRecipient (w : World) (a : Answers) (object : Nat) : World :=
  { w with recipients := if a.isRecipientAdded then w.recipients ++ [object] else w.recipients }

/-! ## The kit -/

namespace UpdateServiceKitsImpl

/-- The remote object of the service, loaded when it is not there. -/
def getObject (a : Answers) : StateM World (Option Nat) := do
  match ← getSystemAbility with
  | some object => return some object
  | none =>
    if !(← tryLoadUpdaterSa a) then return none
    getSystemAbility

/-- The loop of `GetService`. -/
def registerAll (a : Answers) (object : Nat) : List (UpgradeInfo × Nat) → StateM World Unit
  | [] => pure ()
  | (info, updateCallback) :: l => do
    let _ ← UpdateService.registerUpdateCallback a object info updateCallback
    registerAll a object l

/-- `GetService`. -/
def getService (a : Answers) : StateM World (Option Nat) := do
  match (← get).updateService with
  | some object => return some object
  | none =>
    match ← getObject a with
    | none => return none
    | some object =>
      modify fun w => w.addDeathRecipient a object
      modify fun w => { w with updateService := some object }
      registerAll a object (← get).remoteUpdateCallbackMap
      return some object

/-- `RegisterUpdateCallback`. -/
def registerUpdateCallback (a : Answers) (info : UpgradeInfo) : StateM World Ipc.CallResult := do
  match ← getService a with
  | none => return INT_CALL_IPC_ERR
  | some updateService =>
    let remoteUpdateCallback := (← get).nextCallback
    modify fun w => { w with nextCallback := w.nextCallback + 1 }
    let ret ← UpdateService.registerUpdateCallback a updateService info remoteUpdateCallback
    if ret = INT_CALL_SUCCESS then
      modify fun w => { w with
        remoteUpdateCallbackMap := w.remoteUpdateCallbackMap.filter (fun e => e.1 ≠ info) ++ [(info, remoteUpdateCallback)] }
    return ret

/-- `UnregisterUpdateCallback`. -/
def unregisterUpdateCallback (info : UpgradeInfo) : StateM World Ipc.CallResult := do
  modify fun w => { w with remoteUpdateCallbackMap := w.remoteUpdateCallbackMap.filter fun e => e.1 ≠ info }
  return INT_CALL_SUCCESS

/-- `ResetService`. -/
def resetService (remote : Nat) : StateM World Unit :=
  modify fun w => if w.updateService = some remote then
    { w with updateService := none, recipients := w.recipients.filter fun object => object ≠ remote } else w

end UpdateServiceKitsImpl

/-! ## What can happen -/

/-- The calls of the client (`request` is any other method of the kit, of which the callbacks see `GetService` only), the notice that an
instance has died, its death and the start of another one. -/
inductive Event where
  | registerUpdateCallback (a : Answers) (info : UpgradeInfo)
  | unregisterUpdateCallback (info : UpgradeInfo)
  | request (a : Answers)
  | onRemoteDied (remote : Nat)
  | dies
  | starts

/-- The running instance is gone, with what was registered. -/
def World.die (w : World) : World :=
  match w.running with
  | none => w
  | some object => { w with
    running := none
    service := {}
    notices := w.notices ++ w.recipients.filter fun o => o = object
    recipients := w.recipients.filter fun o => o ≠ object }

/-- One event; a notice is handled once, and one instance runs at a time. -/
def World.step (w : World) : Event → World
  | .registerUpdateCallback a info => (UpdateServiceKitsImpl.registerUpdateCallback a info w).2
  | .unregisterUpdateCallback info => (UpdateServiceKitsImpl.unregisterUpdateCallback info w).2
  | .request a => (UpdateServiceKitsImpl.getService a w).2
  | .onRemoteDied remote =>
    if remote ∈ w.notices then
      (UpdateServiceKitsImpl.resetService remote { w with notices := w.notices.filter fun o => o ≠ remote }).2
    else w
  | .dies => w.die
  | .starts => if w.running.isNone then w.start else w

/-- What a sequence of events leads to. -/
def World.after (w : World) (l : List Event) : World := l.foldl World.step w

/-! ## The two registries -/

/-- Whether the kit holds a handle of the instance that runs. -/
def World.live (w : World) : Bool := w.running.isSome && w.updateService = w.running

/-- Whether an `UpgradeInfo` is registered in the kit, and in the service. -/
def World.inKit (w : World) (info : UpgradeInfo) : Bool := (w.remoteUpdateCallbackMap.lookup info).isSome

def World.inService (w : World) (info : UpgradeInfo) : Bool := (w.service.client info).isSome

end UpdateEngine.Registry.Kits
