import UpdateEngine.Utils.FileUtils

/-!
# The directories that are made

A directory is made with all that are missing above it, from the root down. Their permissions are those that are registered or asked for
exactly when those of the whole path are, for the base directories are looked up by that.
-/

namespace UpdateEngine.FileUtils

/-- A path and what is above it, from the root down. -/
def levels (fileDir : Path) : List Path := Segments.ends isSeparator fileDir

/-- The levels that are missing. -/
def missing (files : Files) (fileDir : Path) : List Path := (levels fileDir).filter fun q => !files.isThere q

/-- The levels below the last one that can be opened. -/
def unopened (files : Files) (fileDir : Path) : List Path := (levels fileDir).rtakeWhile fun q => !files.isFileExist q

/-- Whether a directory can be made, and be given its permissions. -/
def Files.canCreate (files : Files) (q : Path) : Bool := !isInvalid q && files.createDirectory q && files.setPermissions q

/-- What is to be done: the call comes to its end; when it returns true, the missing levels were made, from the root down, and each has
the permission it is registered with as a base directory, or else the one that is asked for; when one of them cannot be made, it returns
false, and nothing below that was made. -/
structure Fulfils (files : Files) (baseDirMap : BaseDirMap) (fileDir : Path) (permission : Int32) : Prop where
  ends : ∃ result, CreatesMultiDir files baseDirMap fileDir permission result
  success : ∀ d, CreatesMultiDir files baseDirMap fileDir permission (true, d) →
    d.made = missing files fileDir ∧
      ∀ q ∈ missing files fileDir, d.permissions q = some (perms ((baseDirMap q).getD permission))
  failure : ∀ result, CreatesMultiDir files baseDirMap fileDir permission result →
    ∀ q ∈ missing files fileDir, files.canCreate q = false → result.1 = false ∧ ∀ q' ∈ result.2.made, q' <+: q

namespace DirectoriesAux

variable {files : Files} {p q : Path}

/-! ## Paths -/

theorem all_of_isRoot (h : isAbsolute p = true) : isRoot p = p.all isSeparator := by
  cases p with
  | nil => cases h
  | cons c p => rfl

theorem isAbsolute_parent (h : isAbsolute p = true) : isAbsolute (getParentDir p) = true := by
  rw [isAbsolute, getParentDir, Segments.head_parent h]
  exact h

/-- A path that is absolute and no path of the root, with a name at its end. -/
structure Named (p : Path) : Prop where
  isAbsolute : isAbsolute p = true
  last : p.getLast?.any (fun c => !isSeparator c) = true

theorem Named.all (h : Named p) : p.all isSeparator = false := by
  obtain ⟨l, c, rfl, hc⟩ := Segments.exists_concat h.last
  simp_all

/-- The parent is the root or has a name at its end. -/
theorem Named.parent (h : Named p) : isRoot (getParentDir p) = true ∨ Named (getParentDir p) := by
  have habs := isAbsolute_parent h.isAbsolute
  rcases @Segments.parent_end _ isSeparator p with hall | hlast
  · exact .inl ((all_of_isRoot habs).trans hall)
  · exact .inr ⟨habs, hlast⟩

theorem Named.length_parent_lt (h : Named p) : (getParentDir p).length < p.length := Segments.length_parent_lt h.all

theorem Named.levels_eq (h : Named p) : levels p = levels (getParentDir p) ++ [p] := Segments.ends_eq_parent h.last

theorem levels_of_isRoot (h : isRoot p = true) : levels p = [] := by
  rw [isRoot, Bool.and_eq_true] at h
  exact Segments.ends_of_all h.2

/-- The path the search begins at has the same levels. -/
theorem getCurrentDir_spec (h : isAbsolute p = true) :
    levels (getCurrentDir p) = levels p ∧ (isRoot (getCurrentDir p) = true ∨ Named (getCurrentDir p)) := by
  unfold getCurrentDir
  split_ifs with hlast
  · cases hall : p.all isSeparator with
    | true =>
      have hself : getParentDir p = p := by simp [getParentDir, Segments.parent, hall]
      rw [hself]
      exact ⟨rfl, .inl ((all_of_isRoot h).trans hall)⟩
    | false =>
      have habs := isAbsolute_parent h
      refine ⟨?_, ?_⟩
      · rw [getParentDir, Segments.parent_of_sep hall hlast]
        exact Segments.ends_trim p
      · rcases @Segments.parent_end _ isSeparator p with hroot | hname
        · exact .inl ((all_of_isRoot habs).trans hroot)
        · exact .inr ⟨habs, hname⟩
  · refine ⟨rfl, .inr ⟨h, ?_⟩⟩
    cases hp : p.getLast? with
    | none =>
      rw [List.getLast?_eq_none_iff.mp hp] at h
      cases h
    | some c => simpa [hp] using hlast

/-! ## The search for a level that can be opened -/

theorem unopened_of_opens (hp : isRoot p = true ∨ Named p) (hopens : files.isFileExist p = true) : unopened files p = [] := by
  rcases hp with hroot | hname
  · rw [unopened, levels_of_isRoot hroot, List.rtakeWhile_nil]
  · rw [unopened, hname.levels_eq, List.rtakeWhile_concat_neg _ _ _ (by simp [hopens])]

theorem unopened_eq (hp : Named p) (hopens : files.isFileExist p = false) :
    unopened files p = unopened files (getParentDir p) ++ [p] := by
  rw [unopened, hp.levels_eq, List.rtakeWhile_concat_pos _ _ _ (by simp [hopens]), unopened]

/-- Where the first loop stands: a level that cannot be opened is on the stack, and its parent is next. It is left with the levels that
cannot be opened on the stack, by induction on the length of that level. -/
theorem climb_ends (hp : Named p) (hopens : files.isFileExist p = false) (dirStack : List Path) :
    ∃ curDir, Loop.Ends (climbRound files) ⟨p :: dirStack, getParentDir p⟩ ⟨unopened files p ++ dirStack, curDir⟩ := by
  induction hlen : p.length using Nat.strongRecOn generalizing p dirStack with
  | ind n ih =>
    rw [unopened_eq hp hopens, List.append_assoc, List.singleton_append]
    cases hparent : files.isFileExist (getParentDir p) with
    | true =>
      refine ⟨getParentDir p, ?_⟩
      rw [unopened_of_opens hp.parent hparent]
      exact Loop.ends_of_none (by simp [climbRound, hparent])
    | false =>
      have hname : Named (getParentDir p) := by
        refine hp.parent.resolve_left fun hroot => ?_
        rw [files.root_opens _ hroot] at hparent
        cases hparent
      have hne : (getParentDir p).isEmpty = false := by
        have := hname.isAbsolute
        cases hnil : getParentDir p with
        | nil => simp [hnil, isAbsolute] at this
        | cons c l => rfl
      obtain ⟨curDir, hends⟩ := ih _ (hlen ▸ hp.length_parent_lt) hname hparent (p :: dirStack) rfl
      exact ⟨curDir, (Loop.ends_step_iff (by simp [climbRound, hne, hparent])).mpr hends⟩

/-- The call makes the levels that cannot be opened, from the root down. -/
theorem createsMultiDir_iff (h : isAbsolute p = true) (baseDirMap : BaseDirMap) (permission : Int32) (result : Bool × Disk) :
    CreatesMultiDir files baseDirMap p permission result ↔
      result = createAll files ((baseDirMap p).getD permission) (unopened files p) {} := by
  obtain ⟨hlevels, hend⟩ := getCurrentDir_spec h
  have hsame : unopened files p = unopened files (getCurrentDir p) := by rw [unopened, unopened, hlevels]
  rw [CreatesMultiDir, hsame]
  split_ifs with hopens
  · rw [unopened_of_opens hend hopens, createAll]
  · have hopens' : files.isFileExist (getCurrentDir p) = false := by simpa using hopens
    have hname : Named (getCurrentDir p) := hend.resolve_left fun hroot => hopens (files.root_opens _ hroot)
    obtain ⟨curDir, hclimb⟩ := climb_ends hname hopens' []
    rw [List.append_nil] at hclimb
    constructor
    · rintro ⟨s, hs, rfl⟩
      rw [hs.unique hclimb]
    · intro hresult
      exact ⟨_, hclimb, hresult⟩

/-- What is above something that is there is there. -/
theorem there_of_mem_levels (hp : isAbsolute p = true) (hthere : files.isThere p = true) (hq : q ∈ levels p) :
    files.isThere q = true := by
  induction hlen : p.length using Nat.strongRecOn generalizing p with
  | ind n ih =>
    cases hall : p.all isSeparator with
    | true =>
      rw [levels, Segments.ends_of_all hall] at hq
      cases hq
    | false =>
      rcases Segments.mem_ends_parent hq with rfl | hq
      · exact hthere
      · exact ih _ (hlen ▸ Segments.length_parent_lt hall) (isAbsolute_parent hp) (files.there_parent p hp hthere) hq rfl

/-- No level is missing above one that can be opened. -/
theorem missing_of_opens (hp : isAbsolute p = true) (hopens : files.isFileExist p = true) : missing files p = [] := by
  rw [missing, List.filter_eq_nil_iff]
  intro q hq
  simp [there_of_mem_levels hp (files.there_of_opens p hopens) hq]

/-- The levels that are missing are among those that cannot be opened. -/
theorem missing_eq (h : isAbsolute p = true) : missing files p = (unopened files p).filter fun q => !files.isThere q := by
  obtain ⟨hlevels, hend⟩ := getCurrentDir_spec h
  have hmissing : missing files p = missing files (getCurrentDir p) := by rw [missing, missing, hlevels]
  have hunopened : unopened files p = unopened files (getCurrentDir p) := by rw [unopened, unopened, hlevels]
  rw [hmissing, hunopened]
  generalize getCurrentDir p = cur at hend
  induction hlen : cur.length using Nat.strongRecOn generalizing cur with
  | ind n ih =>
    rcases hend with hroot | hname
    · rw [missing, unopened, levels_of_isRoot hroot]
      rfl
    · cases hopens : files.isFileExist cur with
      | true => rw [missing_of_opens hname.isAbsolute hopens, unopened_of_opens (.inr hname) hopens, List.filter_nil]
      | false =>
        rw [unopened_eq hname hopens, List.filter_append, ← ih _ (hlen ▸ hname.length_parent_lt) _ hname.parent rfl, missing,
          hname.levels_eq, List.filter_append, missing]

/-! ## The directories that are made -/

variable {permission : Int32} {d : Disk}

/-- A directory that can be made is made, unless it is there, and is given its permission. -/
theorem creatDir_of_canCreate (h : files.canCreate q = true) (permission : Int32) (d : Disk) :
    creatDirWithPermission files q permission d = (true, {
      made := d.made ++ [q].filter fun q => !files.isThere q
      permissions := Function.update d.permissions q (some (perms permission)) }) := by
  simp only [Files.canCreate, Bool.and_eq_true, Bool.not_eq_eq_eq_not, Bool.not_true] at h
  obtain ⟨⟨hvalid, hcreate⟩, hset⟩ := h
  cases hthere : files.isThere q <;> simp [creatDirWithPermission, hvalid, hcreate, hset, hthere]

/-- One that cannot be made is an error, and at most the directory itself was made. -/
theorem creatDir_of_not_canCreate (h : files.canCreate q = false) (permission : Int32) (d : Disk) :
    (creatDirWithPermission files q permission d).1 = false ∧
      ∀ q' ∈ (creatDirWithPermission files q permission d).2.made, q' ∈ d.made ∨ q' = q := by
  unfold creatDirWithPermission
  split_ifs with hinvalid hcreate hthere hset hset
  · exact ⟨rfl, fun q' hq' => .inl hq'⟩
  · exact ⟨rfl, fun q' hq' => .inl hq'⟩
  · exact ⟨rfl, fun q' hq' => .inl hq'⟩
  · simp_all [Files.canCreate]
  · exact ⟨rfl, fun q' hq' => by simpa using hq'⟩
  · simp_all [Files.canCreate]

/-- When all levels can be made, those that are not there are made, in order, and all are given the permission. -/
theorem createAll_of_canCreate {dirStack : List Path} (h : ∀ q ∈ dirStack, files.canCreate q = true) :
    createAll files permission dirStack d = (true, {
      made := d.made ++ dirStack.filter fun q => !files.isThere q
      permissions := fun q => if q ∈ dirStack then some (perms permission) else d.permissions q }) := by
  induction dirStack generalizing d with
  | nil => simp [createAll]
  | cons top dirStack ih =>
    rw [createAll, creatDir_of_canCreate (h top List.mem_cons_self)]
    dsimp only
    rw [ih fun q hq => h q (List.mem_cons_of_mem _ hq), List.append_assoc, ← List.filter_append, List.singleton_append]
    congr 2
    funext q
    by_cases htop : q = top
    · simp [htop]
    · simp [htop]

/-- The loop is left at a level that cannot be made. -/
theorem createAll_of_not_canCreate {dirStack : List Path} (h : files.canCreate q = false) :
    createAll files permission (q :: dirStack) d = (false, (creatDirWithPermission files q permission d).2) := by
  have hfalse := (creatDir_of_not_canCreate h permission d).1
  rw [createAll]
  split
  · rename_i d' heq
    rw [heq]
  · rename_i d' heq
    rw [heq] at hfalse
    cases hfalse

/-- Nothing is made below a level that cannot be made. -/
theorem createAll_stops {above below : List Path} (h : files.canCreate q = false) :
    (createAll files permission (above ++ q :: below) d).1 = false ∧
      ∀ q' ∈ (createAll files permission (above ++ q :: below) d).2.made, q' ∈ d.made ∨ q' ∈ above ∨ q' = q := by
  induction above generalizing d with
  | nil =>
    rw [List.nil_append, createAll_of_not_canCreate h]
    exact ⟨rfl, fun q' hq' => ((creatDir_of_not_canCreate h permission d).2 q' hq').imp_right .inr⟩
  | cons top above ih =>
    rw [List.cons_append]
    cases htop : files.canCreate top with
    | true =>
      rw [createAll, creatDir_of_canCreate htop]
      dsimp only
      refine ⟨ih.1, fun q' hq' => ?_⟩
      rcases ih.2 q' hq' with hmade | habove | hself
      · rcases List.mem_append.mp hmade with hold | hnew
        · exact .inl hold
        · exact .inr (.inl (by simp [List.mem_singleton.mp (List.mem_filter.mp hnew).1]))
      · exact .inr (.inl (List.mem_cons_of_mem _ habove))
      · exact .inr (.inr hself)
    | false =>
      rw [createAll_of_not_canCreate htop]
      refine ⟨rfl, fun q' hq' => ((creatDir_of_not_canCreate htop permission d).2 q' hq').imp_right fun hself => .inl ?_⟩
      rw [hself]
      exact List.mem_cons_self

/-! ## The whole call -/

section Call

variable {baseDirMap : BaseDirMap} (h : isAbsolute p = true)
include h

/-- Below a level that is missing and cannot be made nothing is made. -/
theorem nothing_below (hq : q ∈ missing files p) (hcan : files.canCreate q = false) :
    (createAll files permission (unopened files p) {}).1 = false ∧
      ∀ q' ∈ (createAll files permission (unopened files p) {}).2.made, q' <+: q := by
  rw [missing_eq h] at hq
  obtain ⟨above, below, hsplit⟩ := List.append_of_mem (List.mem_filter.mp hq).1
  have hpairwise : (unopened files p).Pairwise (· <+: ·) :=
    (Segments.ends_pairwise p).sublist (List.rtakeWhile_suffix _ _).sublist
  rw [hsplit] at hpairwise ⊢
  obtain ⟨hfalse, hmade⟩ := @createAll_stops files q permission {} above below hcan
  refine ⟨hfalse, fun q' hq' => ?_⟩
  rcases hmade q' hq' with hold | habove | rfl
  · cases hold
  · exact (List.pairwise_append.mp hpairwise).2.2 q' habove q List.mem_cons_self
  · exact List.prefix_refl _

/-- A call that fails does what it is to do. -/
theorem fulfils_of_fails (hfails : ∃ q ∈ unopened files p, files.canCreate q = false) : Fulfils files baseDirMap p permission := by
  refine ⟨⟨_, (createsMultiDir_iff h baseDirMap permission _).mpr rfl⟩, fun d hd => ?_, fun result hresult q hq hcan => ?_⟩
  · obtain ⟨q, hq, hcan⟩ := hfails
    obtain ⟨above, below, hsplit⟩ := List.append_of_mem hq
    have hfalse := (@createAll_stops files q ((baseDirMap p).getD permission) {} above below hcan).1
    rw [← hsplit, ← (createsMultiDir_iff h baseDirMap permission _).mp hd] at hfalse
    cases hfalse
  · rw [(createsMultiDir_iff h baseDirMap permission _).mp hresult]
    exact nothing_below h hq hcan

variable (hall : ∀ q ∈ unopened files p, files.canCreate q = true)
include hall

/-- What a call leaves behind that does not fail. -/
theorem creates_of_canCreate (result : Bool × Disk) : CreatesMultiDir files baseDirMap p permission result ↔ result = (true, {
    made := missing files p
    permissions := fun q => if q ∈ unopened files p then some (perms ((baseDirMap p).getD permission)) else none }) := by
  rw [createsMultiDir_iff h, createAll_of_canCreate hall, missing_eq h, List.nil_append]

theorem fulfils_iff_of_canCreate : Fulfils files baseDirMap p permission ↔
    ∀ q ∈ missing files p, perms ((baseDirMap q).getD permission) = perms ((baseDirMap p).getD permission) := by
  have hin : ∀ q ∈ missing files p, q ∈ unopened files p := by
    intro q hq
    rw [missing_eq h] at hq
    exact (List.mem_filter.mp hq).1
  have hcreates := @creates_of_canCreate files p permission baseDirMap h hall
  constructor
  · intro hfulfils q hq
    have hperms := (hfulfils.success _ ((hcreates _).mpr rfl)).2 q hq
    dsimp only at hperms
    rw [if_pos (hin q hq), Option.some.injEq] at hperms
    exact hperms.symm
  · intro hcondition
    refine ⟨⟨_, (hcreates _).mpr rfl⟩, fun d hd => ?_, fun result _ q hq hcan => ?_⟩
    · obtain rfl := (Prod.mk.inj ((hcreates _).mp hd)).2
      refine ⟨rfl, fun q hq => ?_⟩
      dsimp only
      rw [if_pos (hin q hq), hcondition q hq]
    · rw [hall q (hin q hq)] at hcan
      cases hcan

end Call

end DirectoriesAux

/-- What `CreateMultiDirWithPermission` is to do is done exactly when the call fails, for a level that cannot be opened cannot be made
either, or when each level that is missing is to have the permission that is looked up for the whole path. -/
theorem directories_made_iff (files : Files) (baseDirMap : BaseDirMap) (fileDir : Path) (permission : Int32)
    (h : isAbsolute fileDir = true) :
    Fulfils files baseDirMap fileDir permission ↔ (∃ q ∈ unopened files fileDir, files.canCreate q = false) ∨
      ∀ q ∈ missing files fileDir, perms ((baseDirMap q).getD permission) = perms ((baseDirMap fileDir).getD permission) := by
  by_cases hfails : ∃ q ∈ unopened files fileDir, files.canCreate q = false
  · exact iff_of_true (DirectoriesAux.fulfils_of_fails h hfails) (.inl hfails)
  · rw [DirectoriesAux.fulfils_iff_of_canCreate h (by simpa using hfails), or_iff_right hfails]

/-- A file system that has the root and the given directories, in which every directory can be made. -/
def Files.ofDirs (dirs : List Path) (h : ∀ p ∈ dirs, isRoot (getParentDir p) = true ∨ getParentDir p ∈ dirs) : Files where
  isFileExist := fun p => isRoot p || dirs.contains p
  isThere := fun p => isRoot p || dirs.contains p
  createDirectory := fun _ => true
  setPermissions := fun _ => true
  root_opens := fun p hp => by simp [hp]
  there_of_opens := fun _ hp => hp
  there_parent := by
    intro p _ hp
    rw [Bool.or_eq_true, List.contains_iff_mem] at hp ⊢
    rcases hp with hroot | hdir
    · rw [isRoot, Bool.and_eq_true] at hroot
      have hself : getParentDir p = p := by simp [getParentDir, Segments.parent, hroot.2]
      rw [hself, isRoot, hroot.1, hroot.2]
      exact .inl rfl
    · exact h p hdir

/-- What is there when the directories of the firmware are not. -/
def withoutFirmware : Files :=
  .ofDirs [path "/data", path "/data/update", path "/data/update/ota_package"] (by decide)

/-- What is registered at the start: the directories of the firmware, too, although none can be made, for the disk is full. -/
def registered : BaseDirMap :=
  let files := { withoutFirmware with createDirectory := fun _ => false }
  (initAndCreateBaseDirs files FIRMWARE_DIR_INFOS (initAndCreateBaseDirs files BASE_DIR_INFOS (fun _ => none, {}))).1

/-- The directories of the firmware, which are registered with one permission, are made as they are to be. -/
theorem directories_made_versions : isAbsolute (path "/data/update/ota_package/firmware/versions") = true ∧
    Fulfils withoutFirmware registered (path "/data/update/ota_package/firmware/versions") FOLDER_PERMISSION :=
  ⟨by decide, (directories_made_iff withoutFirmware registered _ FOLDER_PERMISSION (by decide)).mpr (.inr (by decide))⟩

/-- Below them they are made with the permission of what is asked for. -/
theorem base_directory_made_otherwise :
    ¬ Fulfils withoutFirmware registered (path "/data/update/ota_package/firmware/versions/v1") FOLDER_PERMISSION := by
  rw [DirectoriesAux.fulfils_iff_of_canCreate (by decide) (by decide)]
  intro h
  exact absurd (h (path "/data/update/ota_package/firmware") (by decide)) (by decide)

end UpdateEngine.FileUtils
