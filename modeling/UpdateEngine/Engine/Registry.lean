import UpdateEngine.Concurrent.Protocol
import UpdateEngine.Ipc.Types

/-!
# UpdateService: the callbacks of the clients

The callbacks that are registered with the service, each under the `UpgradeInfo` of its client, the notices of clients that have died,
and how an event finds the callback it is for: by the `UpgradeInfo` that `UpdateServiceCache` holds at the time. The map is used under
a lock only, except for the test whether it is empty at the end of a registration.
-/

namespace UpdateEngine.Registry

open Concurrent
open Ipc (UpgradeInfo BusinessSubType)

/-! ## Operations -/

/-- The threads: the calls of clients and the deliveries of the results and events of what a client has requested, each with a number
that tells it from others, the notices of death, each with the recipient it goes to, and the deaths themselves. -/
inductive Thread where
  | registerUpdateCallback (number : Nat) (info : UpgradeInfo) (callback : Nat)
  | unregisterUpdateCallback (number : Nat) (info : UpgradeInfo)
  | onRemoteDied (recipient object : Nat) (upgradeInfo : UpgradeInfo)
  | searchCallback (number : Nat) (requested : UpgradeInfo)
  | callbackToHap (number : Nat) (requested : UpgradeInfo)
  | dies (object : Nat)
  deriving DecidableEq

/-- The atomic operations. -/
inductive Op where
  -- the map of the clients
  | lock
  | unlock
  | eraseClient (info : UpgradeInfo)
  | insertClient (info : UpgradeInfo) (updateCallback : Nat)
  | getClient (info : UpgradeInfo)
  | isEmpty
  -- the cache and the access manager
  | setUpgradeInfo (info : UpgradeInfo)
  | getUpgradeInfo (subType : BusinessSubType)
  | setRemoteIdle (isRemoteIdle : Bool)
  -- the clients
  | onCheckVersionDone (callback : Nat)
  | onEvent (callback : Nat)
  | notifyToHap
  deriving DecidableEq

/-- What an operation answers. -/
abbrev Op.Res : Op → Type
  | .eraseClient _ | .isEmpty => Bool
  | .getClient _ => Option Nat
  | .getUpgradeInfo _ => UpgradeInfo
  | _ => Unit

/-- Programs of the service. -/
abbrev Prog := Concurrent.Prog Op Op.Res

/-- The program that takes one operation. -/
abbrev call (o : Op) : Prog o.Res := Concurrent.Prog.perform o

/-! ## The code -/

namespace UpdateService

/-- `UnregisterUpdateCallback`. -/
def unregisterUpdateCallback (info : UpgradeInfo) : Prog Unit := do
  call .lock
  if !(← call (.eraseClient info)) then
    call .unlock
  else
    let empty ← call .isEmpty
    call (.setRemoteIdle empty)
    call .unlock

/-- `RegisterUpdateCallback`. -/
def registerUpdateCallback (info : UpgradeInfo) (updateCallback : Nat) : Prog Unit := do
  unregisterUpdateCallback info
  call .lock
  call (.insertClient info updateCallback)
  call .unlock
  if !info.isLocal then call (.setUpgradeInfo info)
  let empty ← call .isEmpty
  call (.setRemoteIdle empty)

/-- `GetUpgradeCallback`. -/
def getUpgradeCallback (info : UpgradeInfo) : Prog (Option Nat) := do
  call .lock
  let callback ← call (.getClient info)
  call .unlock
  return callback

end UpdateService

/-- `ClientDeathRecipient::OnRemoteDied`: the object that has died is not looked at. -/
def ClientDeathRecipient.onRemoteDied (upgradeInfo : UpgradeInfo) : Prog Unit := UpdateService.unregisterUpdateCallback upgradeInfo

/-- `UpdateServiceUtil::SearchCallback`, for the `UpgradeInfo` it is given in `UpdateServiceImplFirmware::CheckNewVersion`. -/
def UpdateServiceUtil.searchCallback : Prog Unit := do
  let upgradeInfo ← call (.getUpgradeInfo .FIRMWARE)
  match ← UpdateService.getUpgradeCallback upgradeInfo with
  | none => return ()
  | some upgradeCallback => call (.onCheckVersionDone upgradeCallback)

/-- `BaseCallbackUtils::CallbackToHap`, of the firmware. -/
def BaseCallbackUtils.callbackToHap : Prog Unit := do
  let upgradeInfo ← call (.getUpgradeInfo .FIRMWARE)
  match ← UpdateService.getUpgradeCallback upgradeInfo with
  | none => call .notifyToHap
  | some upgradeCallback => call (.onEvent upgradeCallback)

/-- The text of each thread. -/
def body : Thread → Prog Unit
  | .registerUpdateCallback _ info updateCallback => UpdateService.registerUpdateCallback info updateCallback
  | .unregisterUpdateCallback _ info => UpdateService.unregisterUpdateCallback info
  | .onRemoteDied _ _ upgradeInfo => ClientDeathRecipient.onRemoteDied upgradeInfo
  | .searchCallback _ _ => UpdateServiceUtil.searchCallback
  | .callbackToHap _ _ => BaseCallbackUtils.callbackToHap
  | .dies _ => return ()

/-! ## The service -/

/-- `ClientProxy`: the remote object of the callback, and the recipient of the notice of its death. -/
structure ClientProxy where
  proxy : Nat
  deathRecipient : Nat
  deriving DecidableEq, Repr

/-- A recipient that waits for the death of an object, and the notice it gets. -/
structure DeathNotice where
  object : Nat
  recipient : Nat
  upgradeInfo : UpgradeInfo
  deriving DecidableEq, Repr

/-- A callback that was removed: the `UpgradeInfo` and the object, and the thread that has removed it. -/
structure Removal where
  info : UpgradeInfo
  object : Nat
  thread : Thread
  deriving DecidableEq

/-- A receiver that was looked up: by which thread; who had requested what is delivered, and its callback, if it was registered; the client that had
registered last when the cache was read; and the callback that was found. -/
structure Delivery where
  thread : Thread
  requested : UpgradeInfo
  client : Option Nat
  last : Option UpgradeInfo
  receiver : Option Nat
  deriving DecidableEq

/-- What has happened: the callbacks removed; the firmware clients that have entered themselves in the cache, in order; the last of
them when a thread read the cache; and the receivers looked up. -/
structure History where
  removals : List Removal := []
  registered : List UpgradeInfo := []
  lastRead : Thread → Option UpgradeInfo := fun _ => none
  deliveries : List Delivery := []

/-- The service, with the clients. -/
structure Service where
  clientProxyMap : List (UpgradeInfo × ClientProxy) := []
  locked : Bool := false
  isRemoteIdle : Bool := true
  upgradeInfo : UpgradeInfo := {}
  paramUpgradeInfo : UpgradeInfo := {}
  recipients : List DeathNotice := []
  nextRecipient : Nat := 0
  dead : List Nat := []
  notices : List DeathNotice := []
  history : History := {}

/-- `UpdateServiceCache::IsTypelegal` and `IsParamType`. -/
def isTypelegal (businessSubType : BusinessSubType) : Bool := businessSubType = .FIRMWARE || businessSubType = .PARAM

def isParamType (businessSubType : BusinessSubType) : Bool := businessSubType = .PARAM

/-- `UpdateServiceCache::GetUpgradeInfo`. -/
def Service.getUpgradeInfo (s : Service) (businessSubType : BusinessSubType) : UpgradeInfo :=
  if !isTypelegal businessSubType then {} else if isParamType businessSubType then s.paramUpgradeInfo else s.upgradeInfo

/-- `UpdateServiceCache::SetUpgradeInfo`. -/
def Service.setUpgradeInfo (s : Service) (info : UpgradeInfo) : Service :=
  if !isTypelegal info.businessType.subType then s
  else if isParamType info.businessType.subType then { s with paramUpgradeInfo := info }
  else { s with upgradeInfo := info, history := { s.history with registered := s.history.registered ++ [info] } }

/-- The client registered under an `UpgradeInfo`. -/
def Service.client (s : Service) (info : UpgradeInfo) : Option ClientProxy := s.clientProxyMap.lookup info

/-- The notice a thread handles. -/
def Thread.notice : Thread → Option DeathNotice
  | .onRemoteDied recipient object upgradeInfo => some { object, recipient, upgradeInfo }
  | _ => none

/-- Whose request is answered by a thread. -/
def Thread.requested : Thread → Option UpgradeInfo
  | .searchCallback _ requested | .callbackToHap _ requested => some requested
  | _ => none

/-- The client of an `UpgradeInfo` is removed, if there is one, and its recipient waits no longer; the notice a thread handles is done
with. -/
def Service.eraseClient (n : Thread) (s : Service) (info : UpgradeInfo) : Service := { s with
  clientProxyMap := s.clientProxyMap.filter fun e => e.1 ≠ info
  recipients := s.recipients.filter fun d => (s.client info).all fun c => d.recipient ≠ c.deathRecipient
  notices := s.notices.filter fun d => n.notice ≠ some d
  history := { s.history with
    removals := s.history.removals ++ ((s.client info).map fun c => { info, object := c.proxy, thread := n }).toList } }

/-- A client is made, with a recipient that waits unless the object is dead already, and inserted unless there is one. -/
def Service.insertClient (s : Service) (info : UpgradeInfo) (updateCallback : Nat) : Service := { s with
  nextRecipient := s.nextRecipient + 1
  recipients := if updateCallback ∈ s.dead then s.recipients
    else s.recipients ++ [{ object := updateCallback, recipient := s.nextRecipient, upgradeInfo := info }]
  clientProxyMap := if (s.client info).isSome then s.clientProxyMap
    else s.clientProxyMap ++ [(info, { proxy := updateCallback, deathRecipient := s.nextRecipient })] }

/-- The receiver that a thread looks up. -/
def Service.delivery (n : Thread) (s : Service) (info : UpgradeInfo) : Option Delivery := n.requested.map fun requested => {
  thread := n
  requested
  client := (s.client requested).map (·.proxy)
  last := s.history.lastRead n
  receiver := (s.client info).map (·.proxy) }

/-- What an operation answers; a lock that is taken is waited for. -/
def Op.answer (s : Service) : (o : Op) → Option o.Res
  | .lock => if s.locked then none else some ()
  | .eraseClient info => some (s.client info).isSome
  | .isEmpty => some s.clientProxyMap.isEmpty
  | .getClient info => some ((s.client info).map (·.proxy))
  | .getUpgradeInfo subType => some (s.getUpgradeInfo subType)
  | .unlock | .insertClient _ _ | .setUpgradeInfo _ | .setRemoteIdle _ | .onCheckVersionDone _ | .onEvent _ | .notifyToHap => some ()

/-- What an operation makes of the service. -/
def Op.effect (n : Thread) (s : Service) : Op → Service
  | .lock => { s with locked := true }
  | .unlock => { s with locked := false }
  | .eraseClient info => s.eraseClient n info
  | .insertClient info updateCallback => s.insertClient info updateCallback
  | .setUpgradeInfo info => s.setUpgradeInfo info
  | .setRemoteIdle isRemoteIdle => { s with isRemoteIdle }
  | .getUpgradeInfo _ => { s with history := { s.history with
    lastRead := Function.update s.history.lastRead n s.history.registered.getLast? } }
  | .getClient info => { s with history := { s.history with
    deliveries := s.history.deliveries ++ (s.delivery n info).toList } }
  | .isEmpty | .onCheckVersionDone _ | .onEvent _ | .notifyToHap => s

/-- One operation of a thread. -/
def exec (n : Thread) (o : Op) (_ : Unit) (s : Service) : Option (o.Res × Service) := (o.answer s).map fun x => (x, o.effect n s)

/-- Which threads are started from outside: calls and deliveries at any time, a notice when it is on its way, a death once. -/
def starts (n : Thread) (s : Service) : Option Service :=
  match n with
  | .onRemoteDied recipient object upgradeInfo =>
    if { object, recipient, upgradeInfo } ∈ s.notices then some s else none
  | .dies object =>
    if object ∈ s.dead then none
    else some { s with
      dead := s.dead ++ [object]
      notices := s.notices ++ s.recipients.filter fun d => d.object = object
      recipients := s.recipients.filter fun d => d.object ≠ object }
  | _ => some s

/-- The service and its clients. -/
def machine : Machine Op Op.Res Service Unit Thread where
  body := body
  exec := exec
  spawns := fun _ => none
  joins := fun _ => none
  starts := starts

/-- The configurations of the service. -/
abbrev Config := Concurrent.Config Op Op.Res Service Thread

/-- What can happen at the service. -/
abbrev Action := Concurrent.Action Unit Thread

end UpdateEngine.Registry
