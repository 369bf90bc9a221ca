import Mathlib.Algebra.Group.Nat.Defs
import UpdateEngine.Scan
import UpdateEngine.Types

/-!
# `CombinePackageVersionUtils`: the version of a package that has several

The parts of the base version, of the custom version and of the preload version that the combined version is made of. A position is a
`size_type`: it has 64 bits, a search that finds nothing gives the last one of them, `npos`, and what is subtracted wraps around. A
`substr` from behind the end of a text throws, and an index has to be inside the text: both are `none` where they are not in range.
-/

namespace UpdateEngine

/-- `std::string`: its bytes, which are fewer than `npos`. -/
structure StdString where
  data : Bytes
  short : data.length < 2 ^ 64 - 1

namespace StdString

/-- `std::string::npos`. -/
def npos : UInt64 := 0xFFFFFFFFFFFFFFFF

/-- What a search gives. -/
def position : Option Nat → UInt64
  | some i => UInt64.ofNat i
  | none => npos

/-- `find`: where a text begins for the first time. -/
def find (s : StdString) (sub : Bytes) : UInt64 := position (Scan.findPattern sub s.data 0)

/-- `find_last_of`: the last byte that is one of the given ones. -/
def findLastOf (s : StdString) (chars : Bytes) : UInt64 := position (Scan.findLastElem (fun c => decide (c ∈ chars)) s.data)

/-- `operator[]`, inside the text. -/
def get (s : StdString) (pos : UInt64) : Option UInt8 := s.data[pos.toNat]?

/-- `substr`: as many bytes as there are, up to `n`. -/
def substr (s : StdString) (pos n : UInt64) : Option Bytes :=
  if s.data.length < pos.toNat then none else some ((s.data.drop pos.toNat).take n.toNat)

end StdString

/-- `isdigit`. -/
def isdigit (c : UInt8) : Bool := '0'.toUInt8 ≤ c && c ≤ '9'.toUInt8

namespace CombinePackageVersionUtils

open StdString

/-- `HandleBaseVersion`. -/
def handleBaseVersion (baseVersion : StdString) : Option Bytes :=
  let start := baseVersion.find [' '.toUInt8]
  if start = npos then some []
  else
    let endPos := baseVersion.find ['('.toUInt8]
    if endPos = npos then baseVersion.substr start npos else baseVersion.substr start (endPos - start)

/-- The loop of `HandleBaseVersionLog`: `mid` and `isNumbers` as it leaves them. -/
def skipNumbers (baseVersion : StdString) (endPos mid : UInt64) (isNumbers : Bool) : Option (UInt64 × Bool) :=
  if _h : mid < endPos then
    match baseVersion.get (mid + 1) with
    | none => none
    | some c =>
      if isdigit c then skipNumbers baseVersion endPos (mid + 1) true
      else if isNumbers then some (mid + 1, isNumbers)
      else skipNumbers baseVersion endPos (mid + 1) isNumbers
  else some (mid, isNumbers)
termination_by endPos.toNat - mid.toNat
decreasing_by
  all_goals
    have hlt := UInt64.lt_iff_toNat_lt.mp ‹mid < endPos›
    have hend := endPos.toNat_lt
    rw [UInt64.toNat_add, UInt64.toNat_one, Nat.mod_eq_of_lt (by omega)]
    omega

/-- `HandleBaseVersionLog`: `base` and `log` as it leaves them. -/
def handleBaseVersionLog (baseVersion : StdString) (base log : Bytes) : Option (Bytes × Bytes) := do
  let start := baseVersion.findLastOf ['('.toUInt8]
  let endPos := baseVersion.findLastOf [')'.toUInt8]
  if start = npos ∨ endPos = npos then return (base, log)
  let start := start + 1
  let (mid, isNumbers) ← skipNumbers baseVersion endPos start false
  if mid = endPos ∧ isNumbers = false then
    let log ← baseVersion.substr start (mid - start)
    return ([], log)
  let base ← baseVersion.substr start (mid - start)
  let log ← baseVersion.substr mid (endPos - mid)
  return (base, log)

/-- `HandleCustVersion`. -/
def handleCustVersion (custVersion : StdString) : Option Bytes := do
  let mid := custVersion.findLastOf ['('.toUInt8]
  let endPos := custVersion.findLastOf [')'.toUInt8]
  let start := custVersion.findLastOf ['.'.toUInt8]
  if start = npos ∨ mid = npos ∨ endPos = npos then return []
  let cust ← custVersion.substr (mid + 1) (endPos - mid - 1)
  let getEnum ← custVersion.substr (start + 1) (mid - start - 1)
  return cust ++ ['E'.toUInt8] ++ getEnum

/-- `HandlePreloadVersion`. -/
def handlePreloadVersion (preloadVersion : StdString) : Option Bytes := do
  let start := preloadVersion.findLastOf ['R'.toUInt8]
  let endPos := preloadVersion.findLastOf [')'.toUInt8]
  if start = npos ∨ endPos = npos then return []
  let preload ← preloadVersion.substr start (endPos - start)
  let start := preloadVersion.findLastOf ['.'.toUInt8]
  let endPos := preloadVersion.findLastOf ['('.toUInt8]
  if start = npos ∨ endPos = npos then return []
  let getPnum ← preloadVersion.substr (start + 1) (endPos - start - 1)
  return preload ++ ['P'.toUInt8] ++ getPnum

/-- `GetPackageVersion`, on a device with the given name. -/
def getPackageVersion (deviceName : Bytes) (baseVersion custVersion preloadVersion : StdString) : Option Bytes := do
  let base ← handleBaseVersion baseVersion
  let (baseLog, log) ← handleBaseVersionLog baseVersion [] []
  let cust ← handleCustVersion custVersion
  let preload ← handlePreloadVersion preloadVersion
  return deviceName ++ base ++ ['('.toUInt8] ++ baseLog ++ cust ++ preload ++ log ++ [')'.toUInt8]

end CombinePackageVersionUtils

end UpdateEngine
