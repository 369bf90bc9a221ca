import UpdateEngine.Firmware.Helper
import UpdateEngine.Ipc.Parcel

/-!
# What a script sees

`ClientHelper` of the script interface, for the version components: the array of objects it builds of a vector. A number of a script
is an integer here. The calls of the script engine are taken to succeed.
-/

namespace UpdateEngine.Ipc

/-- The object of a version component. -/
structure ScriptComponent where
  componentId : String
  componentType : Int
  upgradeAction : String
  displayVersion : String
  innerVersion : String
  size : Int
  effectiveMode : Int
  descriptionType : Int
  content : String
  componentExtra : String
  deriving DecidableEq, Repr

/-- `NapiUtil::SetInt32`: the number a property is set to. -/
def NapiUtil.setInt32 (intValue : Int32) : Int := intValue.toInt

namespace ClientHelper

/-- `ComponentType::INVALID`. -/
def INVALID : Int32 := 0

/-- `IsValidData`. -/
def isValidData (versionComponent : VersionComponent) : Bool := versionComponent.componentType ≠ INVALID

/-- The object of one component; the two sizes are converted to the `int32_t` that `SetInt32` takes. -/
def buildVersionComponent (c : VersionComponent) : ScriptComponent where
  componentId := c.componentId
  componentType := NapiUtil.setInt32 c.componentType
  upgradeAction := c.upgradeAction
  displayVersion := c.displayVersion
  innerVersion := c.innerVersion
  size := NapiUtil.setInt32 c.size.toUInt32.toInt32
  effectiveMode := NapiUtil.setInt32 c.effectiveMode.toUInt32.toInt32
  descriptionType := NapiUtil.setInt32 c.descriptionInfo.descriptionType
  content := c.descriptionInfo.content
  componentExtra := c.componentExtra

/-- `BuildVersionComponents`: the valid components; the property is not set when there are none. -/
def buildVersionComponents (versionComponents : List VersionComponent) : Option (List ScriptComponent) :=
  let valid := versionComponents.filter isValidData
  if valid.isEmpty then none else some (valid.map buildVersionComponent)

end ClientHelper

/-- A component of the service as the record that is written: what the service leaves as declared is so. -/
def VersionComponent.ofService (c : UpdateEngine.VersionComponent) : VersionComponent where
  componentId := c.componentId
  componentType := c.componentType
  upgradeAction := c.upgradeAction
  displayVersion := c.displayVersion
  innerVersion := c.innerVersion
  size := c.size
  effectiveMode := c.effectiveMode

/-- A new version as a script sees it, by way of a parcel in which something may follow. -/
def scriptVersion (C : Conversion) (versionDigest : String) (versionComponents : List UpdateEngine.VersionComponent) (rest : Parcel) :
    Option (List ScriptComponent) :=
  let newVersionInfo : NewVersionInfo := ⟨⟨versionDigest⟩, versionComponents.map VersionComponent.ofService⟩
  let p := MessageParcelHelper.writeNewVersionInfo C newVersionInfo ++ rest
  ClientHelper.buildVersionComponents (MessageParcelHelper.readNewVersionInfo C {} p).1.versionComponents

end UpdateEngine.Ipc
