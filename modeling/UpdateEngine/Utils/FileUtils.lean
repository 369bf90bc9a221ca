import Mathlib.Logic.Function.Basic
import UpdateEngine.Loop
import UpdateEngine.Scan
import UpdateEngine.Segments
import UpdateEngine.Types

/-!
# `FileUtils`: directories

The directories that are made with all that are missing above them, and the base directories, whose permissions are kept in
`baseDirMap_`. What the file system answers is known before the call: whether a path can be opened for reading, which is what
`IsFileExist` tests, whether something is there, and whether a directory could be made and its permissions be set.
-/

namespace UpdateEngine.FileUtils

/-! ## Paths -/

/-- A path, as it is written. -/
abbrev Path := Bytes

/-- A path of ASCII characters. -/
def path (text : String) : Path := text.toList.map Char.toUInt8

def isSeparator (c : UInt8) : Bool := c = '/'.toUInt8

/-- Whether a path begins at the root. -/
def isAbsolute (p : Path) : Bool := p.head?.any isSeparator

/-- Whether a path is that of the root. -/
def isRoot (p : Path) : Bool := !p.isEmpty && p.all isSeparator

/-- `GetParentDir`: `std::filesystem::path::parent_path`. -/
def getParentDir (fileDir : Path) : Path := Segments.parent isSeparator fileDir

/-- `GetCurrentDir`. -/
def getCurrentDir (fileDir : Path) : Path := if fileDir.getLast?.any isSeparator then getParentDir fileDir else fileDir

/-! ## The file system -/

/-- The answers of the file system: the root can be opened, what can be opened is there, and so is the parent of what is there. -/
structure Files where
  isFileExist : Path → Bool
  isThere : Path → Bool
  createDirectory : Path → Bool
  setPermissions : Path → Bool
  root_opens : ∀ p, isRoot p = true → isFileExist p = true
  there_of_opens : ∀ p, isFileExist p = true → isThere p = true
  there_parent : ∀ p, isAbsolute p = true → isThere p = true → isThere (getParentDir p) = true

/-- What was done: the directories that were made, in order, and the permissions that were given. -/
structure Disk where
  made : List Path := []
  permissions : Path → Option UInt32 := fun _ => none

/-- `std::filesystem::perms`, of which the lower twelve bits are used. -/
def perms (permission : Int32) : UInt32 := permission.toUInt32 &&& 0o7777

/-- `strstr` finds one text in the other, up to its first null character. -/
def strstr (text sub : Bytes) : Bool := (Scan.findPattern sub (text.takeWhile fun c => c ≠ 0) 0).isSome

/-- The paths that `CreatDirWithPermission` refuses. -/
def isInvalid (fileDir : Path) : Bool :=
  fileDir.isEmpty || strstr fileDir ['/'.toUInt8, '.'.toUInt8] || strstr fileDir ['.'.toUInt8, '/'.toUInt8]

/-- `CreatDirWithPermission`; a directory that is there already is no error of `create_directory`. -/
def creatDirWithPermission (files : Files) (fileDir : Path) (dirPermission : Int32) (d : Disk) : Bool × Disk :=
  if isInvalid fileDir then (false, d)
  else if !files.createDirectory fileDir then (false, d)
  else
    let d := if files.isThere fileDir then d else { d with made := d.made ++ [fileDir] }
    if !files.setPermissions fileDir then (false, d)
    else (true, { d with permissions := Function.update d.permissions fileDir (some (perms dirPermission)) })

/-! ## CreateMultiDirWithPermission -/

/-- `baseDirMap_`. -/
abbrev BaseDirMap := Path → Option Int32

/-- The variables of the first loop. -/
structure Climbing where
  dirStack : List Path
  curDir : Path

/-- One more round of the first loop. -/
def climbRound (files : Files) (s : Climbing) : Option Climbing :=
  if !s.curDir.isEmpty && !files.isFileExist s.curDir then some ⟨s.curDir :: s.dirStack, getParentDir s.curDir⟩ else none

/-- The second loop. -/
def createAll (files : Files) (permission : Int32) : List Path → Disk → Bool × Disk
  | [], d => (true, d)
  | top :: dirStack, d =>
    match creatDirWithPermission files top permission d with
    | (false, d) => (false, d)
    | (true, d) => createAll files permission dirStack d

/-- `CreateMultiDirWithPermission` comes to its end, and returns and leaves behind `result`. -/
def CreatesMultiDir (files : Files) (baseDirMap : BaseDirMap) (fileDir : Path) (permission : Int32) (result : Bool × Disk) : Prop :=
  if files.isFileExist (getCurrentDir fileDir) then result = (true, {})
  else ∃ s, Loop.Ends (climbRound files) ⟨[getCurrentDir fileDir], getParentDir (getCurrentDir fileDir)⟩ s ∧
    result = createAll files ((baseDirMap fileDir).getD permission) s.dirStack {}

/-! ## InitAndCreateBaseDirs -/

/-- `DirInfo`. -/
structure DirInfo where
  dirName : Path
  dirPermissions : Int32

/-- `InitAndCreateBaseDirs`; what it has made itself is there, too. -/
def initAndCreateBaseDirs (files : Files) (dirInfos : List DirInfo) (s : BaseDirMap × Disk) : BaseDirMap × Disk :=
  dirInfos.foldl (fun s dirInfo =>
    (Function.update s.1 dirInfo.dirName (some dirInfo.dirPermissions),
      if files.isFileExist dirInfo.dirName || decide (dirInfo.dirName ∈ s.2.made) then s.2
      else (creatDirWithPermission files dirInfo.dirName dirInfo.dirPermissions s.2).2)) s

/-- `BASE_DIR_INFOS`. -/
def BASE_DIR_INFOS : List DirInfo := [
  ⟨path "/data/service/el1/public/update", 0o751⟩,
  ⟨path "/data/service/el1/public/update/dupdate_engine", 0o700⟩,
  ⟨path "/data/service/el1/public/update/dupdate_engine/databases", 0o700⟩,
  ⟨path "/data/service/el1/public/update/dupdate_engine/preferences", 0o700⟩,
  ⟨path "/data/service/el1/public/update/dupdate_engine/files", 0o700⟩,
  ⟨path "/data/update", 0o770⟩,
  ⟨path "/data/update/ota_package", 0o770⟩]

/-- `FIRMWARE_DIR_INFOS`. -/
def FIRMWARE_DIR_INFOS : List DirInfo := [
  ⟨path "/data/service/el1/public/update/dupdate_engine/files/firmware", 0o700⟩,
  ⟨path "/data/service/el1/public/update/dupdate_engine/files/firmware/changelogs", 0o700⟩,
  ⟨path "/data/update/ota_package/firmware", 0o770⟩,
  ⟨path "/data/update/ota_package/firmware/versions", 0o770⟩]

/-- `FOLDER_PERMISSION`. -/
def FOLDER_PERMISSION : Int32 := 0o750

end UpdateEngine.FileUtils
