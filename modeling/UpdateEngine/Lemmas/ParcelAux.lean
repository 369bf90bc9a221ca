import Mathlib.Algebra.Group.Nat.Defs
import UpdateEngine.Ipc.Parcel

/-!
# What the readers make of what the writers wrote

A record that its reader fills from what was written is the record, and the parcel is left right after it, exactly when its vectors
are as long as their readers count and its sizes fit what is written of them.
-/

namespace UpdateEngine.Ipc

open Wire MessageParcelHelper

/-! ## Values that fit -/

/-- The sizes that are written in 32 bits need no more. -/
def VersionComponent.Fits (c : VersionComponent) : Prop := c.size.toNat < 2 ^ 32 ∧ c.effectiveMode.toNat < 2 ^ 32

/-- A vector of components that are not too many, each of which fits. -/
def ComponentsFit (l : List VersionComponent) : Prop := l.length ≤ MAX_VECTOR_SIZE ∧ ∀ c ∈ l, c.Fits

def BusinessError.Fits (e : BusinessError) : Prop := e.data.length ≤ MAX_VECTOR_SIZE

def VersionDescriptionInfo.Fits (i : VersionDescriptionInfo) : Prop := i.componentDescriptions.length ≤ MAX_VECTOR_SIZE

def NewVersionInfo.Fits (i : NewVersionInfo) : Prop := ComponentsFit i.versionComponents

def CheckResult.Fits (r : CheckResult) : Prop := r.newVersionInfo.Fits

def CurrentVersionInfo.Fits (i : CurrentVersionInfo) : Prop := ComponentsFit i.versionComponents

def TaskBody.Fits (b : TaskBody) : Prop := b.errorMessages.length ≤ MAX_VECTOR_SIZE ∧ ComponentsFit b.versionComponents

def TaskInfo.Fits (i : TaskInfo) : Prop := i.taskBody.Fits

def EventInfo.Fits (i : EventInfo) : Prop := i.taskBody.Fits

/-- A length that is counted to as it was. Besides those within the cap there are the lengths whose cast is negative and becomes,
cast again, what it was; no vector is that long. -/
def LengthKept (n : Nat) : Prop := n ≤ MAX_VECTOR_SIZE ∨ (2 ^ 64 - 2 ^ 31 ≤ n ∧ n < 2 ^ 64)
  deriving Decidable

/-- Components whose number is kept, each within its width. -/
def ComponentsKept (l : List VersionComponent) : Prop := LengthKept l.length ∧ ∀ c ∈ l, c.Fits

/-- The bounds of a task body, with the lengths no vector has. -/
def TaskBody.Kept (b : TaskBody) : Prop := LengthKept b.errorMessages.length ∧ ComponentsKept b.versionComponents

theorem ComponentsFit.kept {l : List VersionComponent} (h : ComponentsFit l) : ComponentsKept l := ⟨.inl h.1, h.2⟩

theorem TaskBody.Fits.kept {b : TaskBody} (h : b.Fits) : b.Kept := ⟨.inl h.1, h.2.kept⟩

namespace ParcelAux

/-! ## Lengths -/

/-- The rounds of a vector reader for a length: none above the cap. -/
theorem lengthKept_iff (n : Nat) :
    LengthKept n ↔ (Int32.ofNat n).toInt ≤ MAX_VECTOR_SIZE ∧ ((Int32.ofNat n).toInt % 2 ^ 64).toNat = n := by
  have hcast : (Int32.ofNat n).toInt = (n : Int).bmod Int32.size := Int32.toInt_ofNat'
  have hsize : Int32.size = 4294967296 := rfl
  unfold LengthKept MAX_VECTOR_SIZE
  rw [hcast, hsize, Int.bmod_def]
  omega

/-- The reader sees the size that was written. -/
theorem readVector_write {α : Type} (read : Reader α) (write : α → Parcel) (l : List α) (rest : Parcel) :
    readVector read [] (writeVector write l ++ rest) =
      if (Int32.ofNat l.length).toInt > MAX_VECTOR_SIZE then ([], l.flatMap write ++ rest)
      else times read ((Int32.ofNat l.length).toInt % 2 ^ 64).toNat (l.flatMap write ++ rest) := by
  unfold readVector writeVector
  rw [List.cons_append, bind_apply, readInt32_cons]
  dsimp only
  split
  · rfl
  · rfl

/-- Each element comes back exactly when the list does. -/
theorem map_eq_self_iff {α : Type} (f : α → α) (l : List α) : l.map f = l ↔ ∀ a ∈ l, f a = a := by
  have hid := @List.map_eq_map_iff _ _ f l id
  rwa [List.map_id] at hid

/-- A vector whose length is not kept has another length when it is read. -/
theorem length_ne_of_not_kept {α : Type} (read : Reader α) (write : α → Parcel) {l : List α} (hl : ¬ LengthKept l.length)
    (rest : Parcel) : (readVector read [] (writeVector write l ++ rest)).1.length ≠ l.length := by
  rw [lengthKept_iff] at hl
  rw [readVector_write]
  split
  · rename_i hlarge
    intro he
    have hzero : l.length = 0 := he.symm
    rw [hzero] at hlarge
    exact absurd hlarge (by decide)
  · rename_i hle
    rw [length_times]
    exact fun he => hl ⟨by omega, he⟩

/-- What is read into a field is the field exactly when the record is the record. -/
theorem field_eq_iff {α β : Type} {f : α → β} (hf : ∀ a a', f a = f a' → a = a') (x : α × Parcel) (a : α) (rest : Parcel) :
    (f x.1, x.2) = (f a, rest) ↔ x = (a, rest) := by
  constructor
  · intro he
    exact Prod.ext (hf _ _ (congrArg Prod.fst he)) (congrArg (fun y => y.2) he)
  · rintro rfl
    rfl

section Vectors

variable {α : Type} {read : Reader α} {write : α → Parcel} {back : α → α} (h : ∀ a, Reads read (write a) (back a))

include h

/-- A vector whose length is kept is read element by element. -/
theorem reads_vector_map {l : List α} (hl : LengthKept l.length) :
    Reads (readVector read []) (writeVector write l) (l.map back) := by
  intro rest
  obtain ⟨hle, hcount⟩ := (lengthKept_iff l.length).mp hl
  have hrest := Reads.times_map (fun a (_ : a ∈ l) => h a) rest
  rw [readVector_write, if_neg (by omega), hcount, hrest]

/-- A vector comes back exactly when its length is kept and each element comes back. -/
theorem vector_eq_iff (l : List α) (rest : Parcel) :
    (readVector read [] (writeVector write l ++ rest)).1 = l ↔ LengthKept l.length ∧ ∀ a ∈ l, back a = a := by
  constructor
  · intro he
    have hl : LengthKept l.length :=
      Classical.byContradiction fun hl => length_ne_of_not_kept read write hl rest (congrArg List.length he)
    rw [reads_vector_map h hl rest] at he
    exact ⟨hl, (map_eq_self_iff back l).mp he⟩
  · rintro ⟨hl, hback⟩
    rw [reads_vector_map h hl rest]
    exact (map_eq_self_iff back l).mpr hback

end Vectors

variable {C : Conversion} (hC : C.Inverts)

/-! ## Elements -/

/-- A component as it comes back: the two sizes lose what does not fit 32 bits. -/
def back (c : VersionComponent) : VersionComponent :=
  { c with size := c.size % 4294967296, effectiveMode := c.effectiveMode % 4294967296 }

theorem back_eq_self_iff (c : VersionComponent) : back c = c ↔ c.Fits := by
  have hmod (n : UInt64) : n % 4294967296 = n ↔ n.toNat < 2 ^ 32 := by
    rw [← UInt64.toNat_inj, UInt64.toNat_mod]
    exact ⟨fun he => he ▸ Nat.mod_lt _ (by decide), Nat.mod_eq_of_lt⟩
  unfold VersionComponent.Fits
  rw [← hmod, ← hmod]
  constructor
  · intro he
    exact ⟨congrArg VersionComponent.size he, congrArg VersionComponent.effectiveMode he⟩
  · rintro ⟨hsize, hmode⟩
    unfold back
    rw [hsize, hmode]

include hC

theorem reads_errorMessage (e : ErrorMessage) : Reads (readErrorMessage C) (writeErrorMessage C e) e := by
  intro rest
  simp [readErrorMessage, writeErrorMessage, hC _]

theorem reads_componentDescription (c : ComponentDescription) :
    Reads (readComponentDescription C) (writeComponentDescription C c) c := by
  intro rest
  simp [readComponentDescription, writeComponentDescription, hC _]

theorem reads_versionComponent_back (c : VersionComponent) :
    Reads (readVersionComponent C) (writeVersionComponent C c) (back c) := by
  intro rest
  simp [readVersionComponent, writeVersionComponent, back, hC _]

theorem versionComponents_eq_iff (l : List VersionComponent) (rest : Parcel) :
    (readVersionComponents C [] (writeVersionComponents C l ++ rest)).1 = l ↔ ComponentsKept l := by
  refine (vector_eq_iff (reads_versionComponent_back hC) l rest).trans (and_congr_right fun _ => ?_)
  exact forall₂_congr fun c _ => back_eq_self_iff c

theorem reads_versionComponents_of_kept {l : List VersionComponent} (h : ComponentsKept l) :
    Reads (readVersionComponents C []) (writeVersionComponents C l) l := by
  have hreads := reads_vector_map (reads_versionComponent_back hC) h.1
  rwa [(map_eq_self_iff back l).mpr fun c hc => (back_eq_self_iff c).mpr (h.2 c hc)] at hreads

theorem errorMessages_eq_iff (l : List ErrorMessage) (rest : Parcel) :
    (readErrorMessages C [] (writeErrorMessages C l ++ rest)).1 = l ↔ LengthKept l.length := by
  have hback (e : ErrorMessage) : Reads (readErrorMessage C) (writeErrorMessage C e) (id e) := reads_errorMessage hC e
  refine (vector_eq_iff hback l rest).trans ?_
  simp

theorem reads_errorMessages_of_kept {l : List ErrorMessage} (h : LengthKept l.length) :
    Reads (readErrorMessages C []) (writeErrorMessages C l) l := by
  have hback (e : ErrorMessage) : Reads (readErrorMessage C) (writeErrorMessage C e) (id e) := reads_errorMessage hC e
  have hreads := reads_vector_map hback h
  rwa [List.map_id] at hreads

theorem componentDescriptions_eq_iff (l : List ComponentDescription) (rest : Parcel) :
    (readComponentDescriptions C [] (writeComponentDescriptions C l ++ rest)).1 = l ↔ LengthKept l.length := by
  have hback (c : ComponentDescription) : Reads (readComponentDescription C) (writeComponentDescription C c) (id c) :=
    reads_componentDescription hC c
  refine (vector_eq_iff hback l rest).trans ?_
  simp

theorem reads_componentDescriptions_of_kept {l : List ComponentDescription} (h : LengthKept l.length) :
    Reads (readComponentDescriptions C []) (writeComponentDescriptions C l) l := by
  have hback (c : ComponentDescription) : Reads (readComponentDescription C) (writeComponentDescription C c) (id c) :=
    reads_componentDescription hC c
  have hreads := reads_vector_map hback h
  rwa [List.map_id] at hreads

/-! ## Records -/

theorem reads_upgradeInfo (i : UpgradeInfo) : Reads (readUpgradeInfo C) (writeUpgradeInfo C i) i := by
  intro rest
  simp [readUpgradeInfo, writeUpgradeInfo, hC _]

theorem reads_versionDigestInfo (i : VersionDigestInfo) : Reads (readVersionDigestInfo C) (writeVersionDigestInfo C i) i := by
  intro rest
  simp [readVersionDigestInfo, writeVersionDigestInfo, hC _]

theorem reads_descriptionOptions (o : DescriptionOptions) :
    Reads (readDescriptionOptions C) (writeDescriptionOptions C o) o := by
  intro rest
  simp [readDescriptionOptions, writeDescriptionOptions, hC _]

theorem businessError_eq_iff (e : BusinessError) (rest : Parcel) :
    readBusinessError C {} (writeBusinessError C e ++ rest) = (e, rest) ↔ LengthKept e.data.length := by
  constructor
  · intro he
    have hdata := congrArg (fun x => x.1.data) he
    simp [readBusinessError, writeBusinessError] at hdata
    exact (errorMessages_eq_iff hC e.data rest).mp hdata
  · intro h
    simp [readBusinessError, writeBusinessError, hC _, reads_errorMessages_of_kept hC h rest]

theorem versionDescriptionInfo_eq_iff (i : VersionDescriptionInfo) (rest : Parcel) :
    readVersionDescriptionInfo C {} (writeVersionDescriptionInfo C i ++ rest) = (i, rest) ↔
      LengthKept i.componentDescriptions.length := by
  constructor
  · intro he
    have hlist := congrArg (fun x => x.1.componentDescriptions) he
    simp [readVersionDescriptionInfo, writeVersionDescriptionInfo] at hlist
    exact (componentDescriptions_eq_iff hC i.componentDescriptions rest).mp hlist
  · intro h
    simp [readVersionDescriptionInfo, writeVersionDescriptionInfo, reads_componentDescriptions_of_kept hC h rest]

theorem newVersionInfo_eq_iff (i : NewVersionInfo) (rest : Parcel) :
    readNewVersionInfo C {} (writeNewVersionInfo C i ++ rest) = (i, rest) ↔ ComponentsKept i.versionComponents := by
  constructor
  · intro he
    have hlist := congrArg (fun x => x.1.versionComponents) he
    simp [readNewVersionInfo, writeNewVersionInfo] at hlist
    exact (versionComponents_eq_iff hC i.versionComponents rest).mp hlist
  · intro h
    simp [readNewVersionInfo, writeNewVersionInfo, hC _, reads_versionComponents_of_kept hC h rest]

theorem currentVersionInfo_eq_iff (i : CurrentVersionInfo) (rest : Parcel) :
    readCurrentVersionInfo C {} (writeCurrentVersionInfo C i ++ rest) = (i, rest) ↔ ComponentsKept i.versionComponents := by
  constructor
  · intro he
    have hlist := congrArg (fun x => x.1.versionComponents) he
    simp [readCurrentVersionInfo, writeCurrentVersionInfo] at hlist
    exact (versionComponents_eq_iff hC i.versionComponents rest).mp hlist
  · intro h
    simp [readCurrentVersionInfo, writeCurrentVersionInfo, hC _, reads_versionComponents_of_kept hC h rest]

theorem checkResult_eq_iff (r : CheckResult) (rest : Parcel) :
    readCheckResult C {} (writeCheckResult C r ++ rest) = (r, rest) ↔ ComponentsKept r.newVersionInfo.versionComponents := by
  have hf (i i' : NewVersionInfo) (he : CheckResult.mk r.isExistNewVersion i = ⟨r.isExistNewVersion, i'⟩) : i = i' :=
    congrArg CheckResult.newVersionInfo he
  have hread : readCheckResult C {} (writeCheckResult C r ++ rest) =
      (⟨r.isExistNewVersion, (readNewVersionInfo C {} (writeNewVersionInfo C r.newVersionInfo ++ rest)).1⟩,
        (readNewVersionInfo C {} (writeNewVersionInfo C r.newVersionInfo ++ rest)).2) := by
    simp [readCheckResult, writeCheckResult]
  rw [hread]
  exact (field_eq_iff hf _ _ rest).trans (newVersionInfo_eq_iff hC r.newVersionInfo rest)

/-- The second vector is read from the right place only after the first one. -/
theorem taskBody_eq_iff (b : TaskBody) (rest : Parcel) :
    readTaskBody C {} (writeTaskBody C b ++ rest) = (b, rest) ↔ b.Kept := by
  constructor
  · intro he
    have hmessages := congrArg (fun x => x.1.errorMessages) he
    have hcomponents := congrArg (fun x => x.1.versionComponents) he
    simp [readTaskBody, writeTaskBody] at hmessages hcomponents
    have hkept := (errorMessages_eq_iff hC b.errorMessages _).mp hmessages
    rw [reads_errorMessages_of_kept hC hkept] at hcomponents
    exact ⟨hkept, (versionComponents_eq_iff hC b.versionComponents rest).mp hcomponents⟩
  · rintro ⟨hmessages, hcomponents⟩
    have hfirst := reads_errorMessages_of_kept hC hmessages (writeVersionComponents C b.versionComponents ++ rest)
    simp [readTaskBody, writeTaskBody, hC _, hfirst, reads_versionComponents_of_kept hC hcomponents rest]

theorem taskInfo_eq_iff (i : TaskInfo) (rest : Parcel) :
    readTaskInfo C {} (writeTaskInfo C i ++ rest) = (i, rest) ↔ i.taskBody.Kept := by
  have hf (b b' : TaskBody) (he : TaskInfo.mk i.existTask b = ⟨i.existTask, b'⟩) : b = b' := congrArg TaskInfo.taskBody he
  have hread : readTaskInfo C {} (writeTaskInfo C i ++ rest) =
      (⟨i.existTask, (readTaskBody C {} (writeTaskBody C i.taskBody ++ rest)).1⟩,
        (readTaskBody C {} (writeTaskBody C i.taskBody ++ rest)).2) := by
    simp [readTaskInfo, writeTaskInfo]
  rw [hread]
  exact (field_eq_iff hf _ _ rest).trans (taskBody_eq_iff hC i.taskBody rest)

theorem eventInfo_eq_iff (i : EventInfo) (rest : Parcel) :
    readEventInfo C {} (writeEventInfo C i ++ rest) = (i, rest) ↔ i.taskBody.Kept := by
  have hf (b b' : TaskBody) (he : EventInfo.mk i.eventId b = ⟨i.eventId, b'⟩) : b = b' := congrArg EventInfo.taskBody he
  have hread : readEventInfo C {} (writeEventInfo C i ++ rest) =
      (⟨i.eventId, (readTaskBody C {} (writeTaskBody C i.taskBody ++ rest)).1⟩,
        (readTaskBody C {} (writeTaskBody C i.taskBody ++ rest)).2) := by
    simp [readEventInfo, writeEventInfo]
  rw [hread]
  exact (field_eq_iff hf _ _ rest).trans (taskBody_eq_iff hC i.taskBody rest)

/-! ## Records that fit -/

theorem reads_businessError {e : BusinessError} (h : e.Fits) : Reads (readBusinessError C {}) (writeBusinessError C e) e :=
  fun rest => (businessError_eq_iff hC e rest).mpr (.inl h)

theorem reads_versionDescriptionInfo {i : VersionDescriptionInfo} (h : i.Fits) :
    Reads (readVersionDescriptionInfo C {}) (writeVersionDescriptionInfo C i) i :=
  fun rest => (versionDescriptionInfo_eq_iff hC i rest).mpr (.inl h)

theorem reads_newVersionInfo {i : NewVersionInfo} (h : i.Fits) : Reads (readNewVersionInfo C {}) (writeNewVersionInfo C i) i :=
  fun rest => (newVersionInfo_eq_iff hC i rest).mpr h.kept

theorem reads_checkResult {r : CheckResult} (h : r.Fits) : Reads (readCheckResult C {}) (writeCheckResult C r) r :=
  fun rest => (checkResult_eq_iff hC r rest).mpr h.kept

theorem reads_currentVersionInfo {i : CurrentVersionInfo} (h : i.Fits) :
    Reads (readCurrentVersionInfo C {}) (writeCurrentVersionInfo C i) i :=
  fun rest => (currentVersionInfo_eq_iff hC i rest).mpr h.kept

theorem reads_taskInfo {i : TaskInfo} (h : i.Fits) : Reads (readTaskInfo C {}) (writeTaskInfo C i) i :=
  fun rest => (taskInfo_eq_iff hC i rest).mpr h.kept

theorem reads_eventInfo {i : EventInfo} (h : i.Fits) : Reads (readEventInfo C {}) (writeEventInfo C i) i :=
  fun rest => (eventInfo_eq_iff hC i rest).mpr h.kept

omit hC

theorem reads_upgradePolicy (p : UpgradePolicy) : Reads (readUpgradePolicy {}) (writeUpgradePolicy p) p := by
  intro rest
  simp [readUpgradePolicy, writeUpgradePolicy, readUpgradePeriod, writeUpgradePeriod, MAX_VECTOR_SIZE]

theorem reads_downloadOptions (o : DownloadOptions) : Reads readDownloadOptions (writeDownloadOptions o) o := by
  intro rest
  simp [readDownloadOptions, writeDownloadOptions]

theorem reads_pauseDownloadOptions (o : PauseDownloadOptions) :
    Reads readPauseDownloadOptions (writePauseDownloadOptions o) o := by
  intro rest
  simp [readPauseDownloadOptions, writePauseDownloadOptions]

theorem reads_resumeDownloadOptions (o : ResumeDownloadOptions) :
    Reads readResumeDownloadOptions (writeResumeDownloadOptions o) o := by
  intro rest
  simp [readResumeDownloadOptions, writeResumeDownloadOptions]

theorem reads_upgradeOptions (o : UpgradeOptions) : Reads readUpgradeOptions (writeUpgradeOptions o) o := by
  intro rest
  simp [readUpgradeOptions, writeUpgradeOptions]

theorem reads_clearOptions (o : ClearOptions) : Reads readClearOptions (writeClearOptions o) o := by
  intro rest
  simp [readClearOptions, writeClearOptions]

end ParcelAux

end UpdateEngine.Ipc
