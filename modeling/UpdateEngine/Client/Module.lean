import UpdateEngine.Client.Updaters
import UpdateEngine.Engine.UpgradeInfo

/-!
# The module a script imports

`getOnlineUpdater` and `getLocalUpdater`, with the constructors of the classes they make objects of, which a script can call as well. The
native objects are kept for good: there is an `UpdateClient` for each `UpgradeInfo` in the order of its comparison, and one `LocalUpdater`.
The first call that asks for one has its callback registered, for an `UpdateClient` by a thread of its own.
-/

namespace UpdateEngine.Ipc.Client

open UpdateHelper (CallbackMap)
open Client.ClientHelper

/-- An `UpdateClient`, with `isInit_`. -/
structure OnlineUpdater where
  members : UpdateClient := {}
  isInit : Bool := false

/-- The objects that register a callback; an `UpdateClient` is known by its number. -/
inductive NativeObject where
  | updateClient (client : Nat)
  | localUpdater
  deriving DecidableEq, Repr

/-- What a script gets: nothing, an object of the native one with this number, or what is thrown. -/
inductive Returned where
  | nothing
  | updater (client : Nat)
  | throws (error : Value)

/-- The native objects, `g_onlineUpdater`, the `isInit_` of `g_localUpdater` once there is one, and the threads of `InitCallback` that have
not registered yet; and what has happened: the registrations, and which clients were handed out for which `UpgradeInfo`. -/
structure Module where
  clients : List OnlineUpdater := []
  onlineUpdater : CallbackMap Nat := []
  localUpdater : Option Bool := none
  initThreads : List Nat := []
  registered : List (NativeObject × UpgradeInfo) := []
  handedOut : List (UpgradeInfo × Nat) := []

namespace Module

-- what a variable without initial value holds
variable (indeterminate : Int32) (m : Module)

/-- The `UpgradeInfo` of an argument, read into a new variable. -/
def upgradeInfoOf (arg : Value) : UpgradeInfo := (getUpgradeInfo indeterminate arg {}).2

/-- `JsConstructor` of `UpdateClient`: the native object that the new object wraps. -/
def jsConstructor (arg : Value) : Option Nat × Module :=
  let (ret, upgradeInfo) := getUpgradeInfo indeterminate arg {}
  if ret ≠ .CLIENT_SUCCESS then (none, m)
  else match m.onlineUpdater.find (Registry.key upgradeInfo) with
    | some client => (some client, m)
    | none => (some m.clients.length, { m with
        clients := m.clients ++ [{}]
        onlineUpdater := ComparedMap.assign UpdateHelper.UpgradeInfo.less (Registry.key upgradeInfo) m.clients.length m.onlineUpdater })

/-- `UpdateClient::GetOnlineUpdater`. -/
def initClient (client : Nat) (args : List Value) : Returned × Module :=
  let paramInfos := [("upgradeInfo", "UpgradeInfo")]
  if args.isEmpty then (.throws (paramError paramInfos), m)
  else match m.clients[client]? with
    | none => (.nothing, m)
    | some c =>
      if c.isInit then (.updater client, m)
      else
        let (ret, upgradeInfo) := getUpgradeInfo indeterminate (argument args 0) c.members.upgradeInfo
        let members := { c.members with upgradeInfo }
        if ret ≠ .CLIENT_SUCCESS then (.throws (paramError paramInfos), { m with clients := m.clients.set client { c with members } })
        else (.updater client, { m with
          clients := m.clients.set client { members, isInit := true }
          initThreads := m.initThreads ++ [client] })

/-- `GetOnlineUpdater`: the arguments are handed on to the constructor. -/
def getOnlineUpdater (args : List Value) : Returned × Module :=
  match m.jsConstructor indeterminate (argument args 0) with
  | (none, m) => (.nothing, m)
  | (some client, m) => m.initClient indeterminate client args

/-- `JsConstructorLocalUpdater`. -/
def jsConstructorLocalUpdater : Module := { m with localUpdater := some (m.localUpdater.getD false) }

/-- `GetLocalUpdater`, with `LocalUpdater::Init`. -/
def getLocalUpdater : Module :=
  let m := m.jsConstructorLocalUpdater
  if m.localUpdater = some true then m
  else { m with
    registered := m.registered ++ [(.localUpdater, { upgradeApp := "LocalUpgradeInfo" })]
    localUpdater := some true }

/-- `InitCallback`, of the `i`-th thread; the registration takes the `UpgradeInfo` that is there by then. -/
def initCallback (i : Nat) : Option Module :=
  match m.initThreads[i]? with
  | none => none
  | some client => (m.clients[client]?).map fun c => { m with
      initThreads := m.initThreads.eraseIdx i
      registered := m.registered ++ [(.updateClient client, c.members.upgradeInfo)] }

/-- What can happen: the calls of the script, a thread that goes on, and methods of a client and their workers, which leave its
`UpgradeInfo` alone (`Theorems/Updaters`). -/
inductive Action where
  | construct (arg : Value)
  | getOnlineUpdater (args : List Value)
  | constructLocalUpdater
  | getLocalUpdater
  | initCallback (i : Nat)
  | changesMembers (client : Nat) (members : UpdateClient)

/-- One step. -/
def step : Action → Option Module
  | .construct arg => some (m.jsConstructor indeterminate arg).2
  | .getOnlineUpdater args =>
    match m.getOnlineUpdater indeterminate args with
    | (.updater client, m) => some { m with handedOut := m.handedOut ++ [(upgradeInfoOf indeterminate (argument args 0), client)] }
    | (_, m) => some m
  | .constructLocalUpdater => some m.jsConstructorLocalUpdater
  | .getLocalUpdater => some m.getLocalUpdater
  | .initCallback i => m.initCallback i
  | .changesMembers client members =>
    match m.clients[client]? with
    | none => none
    | some c =>
      if members.upgradeInfo = c.members.upgradeInfo then some { m with clients := m.clients.set client { c with members } } else none

end Module

end UpdateEngine.Ipc.Client
