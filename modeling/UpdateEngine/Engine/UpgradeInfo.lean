import UpdateEngine.ComparedMap
import UpdateEngine.Engine.Registry
import UpdateEngine.Types

/-!
# UpgradeInfo: the comparison, and the maps kept by it

`operator<` of `BusinessType` and `UpgradeInfo`, with a `std::string` as the bytes it is, and the two maps of callbacks that are kept in
its order: that of `UpdateService` and that of `UpdateServiceKitsImpl`. A map is changed under a lock; what is done to it in one go is a
section, and sections of any calls follow each other in any order.
-/

namespace UpdateEngine.UpdateHelper

open Ipc (BusinessSubType)

/-! ## The comparison -/

/-- `operator<` of `std::string`: byte for byte, as unsigned numbers, and a text before its continuations. -/
def stringLess : Bytes → Bytes → Bool := Comparison.row fun a b => decide (a.toNat < b.toNat)

/-- `<` of the numbers that `CAST_INT` makes of two values. -/
def castLess (l r : BusinessSubType) : Bool := l.toInt < r.toInt

/-- `BusinessType`. -/
structure BusinessType where
  vendor : Bytes
  subType : BusinessSubType
  deriving DecidableEq, Repr

/-- `UpgradeInfo`. -/
structure UpgradeInfo where
  upgradeApp : Bytes
  businessType : BusinessType
  upgradeDevId : Bytes
  controlDevId : Bytes
  deriving DecidableEq, Repr

/-- `BusinessType::operator<`. -/
def BusinessType.less (l r : BusinessType) : Bool :=
  if stringLess l.vendor r.vendor then true
  else if stringLess r.vendor l.vendor then false
  else if castLess l.subType r.subType then true
  else if castLess r.subType l.subType then false
  else false

/-- `UpgradeInfo::operator<`. -/
def UpgradeInfo.less (l r : UpgradeInfo) : Bool :=
  if stringLess l.upgradeApp r.upgradeApp then true
  else if stringLess r.upgradeApp l.upgradeApp then false
  else if l.businessType.less r.businessType then true
  else if r.businessType.less l.businessType then false
  else if stringLess l.upgradeDevId r.upgradeDevId then true
  else if stringLess r.upgradeDevId l.upgradeDevId then false
  else if stringLess l.controlDevId r.controlDevId then true
  else if stringLess r.controlDevId l.controlDevId then false
  else false

/-! ## The maps -/

/-- `std::map<UpgradeInfo, ν>`. -/
abbrev CallbackMap (ν : Type) := List (UpgradeInfo × ν)

variable {ν : Type}

/-- `find`. -/
def CallbackMap.find (m : CallbackMap ν) (info : UpgradeInfo) : Option ν := ComparedMap.find UpgradeInfo.less info m

namespace UpdateService

/-- What is done to `clientProxyMap_` under its lock: `UnregisterUpdateCallback`, and the insertion in `RegisterUpdateCallback`. -/
inductive Section (ν : Type) where
  | unregisterUpdateCallback (info : UpgradeInfo)
  | insertClient (info : UpgradeInfo) (clientProxy : ν)

/-- What a section makes of the map. -/
def Section.run (m : CallbackMap ν) : Section ν → CallbackMap ν
  | .unregisterUpdateCallback info =>
    match m.find info with
    | none => m
    | some _ => ComparedMap.erase UpgradeInfo.less info m
  | .insertClient info clientProxy => ComparedMap.insert UpgradeInfo.less info clientProxy m

/-- The `UpgradeInfo` a section is about, and what it is to make of the entry of that. -/
def Section.info : Section ν → UpgradeInfo
  | .unregisterUpdateCallback info | .insertClient info _ => info

def Section.entry (old : Option ν) : Section ν → Option ν
  | .unregisterUpdateCallback _ => none
  | .insertClient _ clientProxy => old.or (some clientProxy)

end UpdateService

namespace UpdateServiceKitsImpl

/-- What is done to `remoteUpdateCallbackMap_` under its lock: the end of `RegisterUpdateCallback`, with what the service has returned,
and `UnregisterUpdateCallback`. -/
inductive Section (ν : Type) where
  | registerUpdateCallback (info : UpgradeInfo) (remoteUpdateCallback : ν) (ret : Ipc.CallResult)
  | unregisterUpdateCallback (info : UpgradeInfo)

/-- What a section makes of the map. -/
def Section.run (m : CallbackMap ν) : Section ν → CallbackMap ν
  | .registerUpdateCallback info remoteUpdateCallback ret =>
    if ret = Ipc.INT_CALL_SUCCESS then ComparedMap.assign UpgradeInfo.less info remoteUpdateCallback m else m
  | .unregisterUpdateCallback info => ComparedMap.erase UpgradeInfo.less info m

/-- The `UpgradeInfo` a section is about, and what it is to make of the entry of that. -/
def Section.info : Section ν → UpgradeInfo
  | .registerUpdateCallback info _ _ | .unregisterUpdateCallback info => info

def Section.entry (old : Option ν) : Section ν → Option ν
  | .registerUpdateCallback _ remoteUpdateCallback ret => if ret = Ipc.INT_CALL_SUCCESS then some remoteUpdateCallback else old
  | .unregisterUpdateCallback _ => none

end UpdateServiceKitsImpl

end UpdateEngine.UpdateHelper

/-! ## The service with its map -/

namespace UpdateEngine.Registry

open Concurrent
open UpdateHelper (CallbackMap)

/-- An `UpgradeInfo` that was read from a parcel. -/
def key (info : Ipc.UpgradeInfo) : UpdateHelper.UpgradeInfo where
  upgradeApp := info.upgradeApp.toUTF8.toList
  businessType := { vendor := info.businessType.vendor.toUTF8.toList, subType := info.businessType.subType }
  upgradeDevId := info.upgradeDevId.toUTF8.toList
  controlDevId := info.controlDevId.toUTF8.toList

/-- What an operation answers from the map. -/
def Op.answerOf (s : Service) (clientProxyMap : CallbackMap ClientProxy) : (o : Op) → Option o.Res
  | .eraseClient info => some (clientProxyMap.find (key info)).isSome
  | .getClient info => some ((clientProxyMap.find (key info)).map (·.proxy))
  | .isEmpty => some clientProxyMap.isEmpty
  | o => o.answer s

/-- What an operation makes of the map. -/
def Op.mapEffect (s : Service) (clientProxyMap : CallbackMap ClientProxy) : Op → CallbackMap ClientProxy
  | .eraseClient info => (UpdateHelper.UpdateService.Section.unregisterUpdateCallback (key info)).run clientProxyMap
  | .insertClient info updateCallback => (UpdateHelper.UpdateService.Section.insertClient (key info)
      { proxy := updateCallback, deathRecipient := s.nextRecipient }).run clientProxyMap
  | _ => clientProxyMap

/-- The service that looks its clients up in the map. -/
def mapMachine : Machine Op Op.Res (Service × CallbackMap ClientProxy) Unit Thread where
  body := body
  exec := fun n o _ s => (o.answerOf s.1 s.2).map fun x => (x, (o.effect n s.1, o.mapEffect s.1 s.2))
  spawns := fun _ => none
  joins := fun _ => none
  starts := fun n s => (starts n s.1).map fun s' => (s', s.2)

end UpdateEngine.Registry
