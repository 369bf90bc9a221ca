import Mathlib.Algebra.Ring.Int.Defs
import UpdateEngine.Firmware.Lives
import UpdateEngine.Ipc.Script
import UpdateEngine.Ipc.Utf16
import UpdateEngine.Lemmas.AloneAux
import UpdateEngine.Lemmas.ParcelAux
import UpdateEngine.Theorems.Analysis

/-!
# Sizes

The size of a component on its way from the response to its row, and the size of a version on its way to a script: each passes a
variable of 32 bits with a sign.
-/

namespace UpdateEngine

open Concurrent Wire Ipc

/-! ## The size of a version -/

/-- The sizes of component rows, added up. -/
def totalSize (components : List FirmwareComponent) : Int := (components.map fun c => c.size.toInt).sum

/-- The sizes that a script sees for the version of these components (the first one apart, as there has to be one). -/
def scriptSizes (P : Platform) (C : Conversion) (versionDigest : String) (first : FirmwareComponent)
    (components : List FirmwareComponent) (rest : Parcel) : Option (List Int) :=
  (scriptVersion C versionDigest [FirmwareUpdateHelper.buildHotaVersionComponent P first (first :: components)] rest).map
    (List.map (·.size))

namespace SizesAux

/-- A size that is not negative is what it was as an unsigned number. -/
theorem toNat_toUInt64 {n : Int64} (h : 0 ≤ n.toInt) : (n.toUInt64.toNat : Int) = n.toInt := by
  have hint : n.toInt = (n.toUInt64.toNat : Int).bmod (2 ^ 64) := BitVec.toInt_eq_toNat_bmod n.toBitVec
  have hlt := n.toUInt64.toNat_lt
  rw [Int.bmod_def] at hint
  omega

theorem totalSize_nonneg {components : List FirmwareComponent} (h : ∀ c ∈ components, 0 ≤ c.size.toInt) :
    0 ≤ totalSize components := by
  induction components with
  | nil => exact Int.le_refl 0
  | cons c components ih =>
    have hrest := ih fun c' hc' => h c' (List.mem_cons_of_mem c hc')
    have hc := h c List.mem_cons_self
    simp only [totalSize, List.map_cons, List.sum_cons] at hrest ⊢
    omega

/-- The sum is exact up to a multiple of 2^64. -/
theorem toNat_foldl (components : List FirmwareComponent) (size : UInt64) (h : ∀ c ∈ components, 0 ≤ c.size.toInt) :
    ((components.foldl (fun size c => size + c.size.toUInt64) size).toNat : Int) =
      (size.toNat + totalSize components) % 2 ^ 64 := by
  induction components generalizing size with
  | nil =>
    have hlt := size.toNat_lt
    simp [totalSize]
    omega
  | cons c components ih =>
    have hc := toNat_toUInt64 (h c List.mem_cons_self)
    rw [List.foldl_cons, ih _ fun c' hc' => h c' (List.mem_cons_of_mem c hc'), UInt64.toNat_add]
    simp only [totalSize, List.map_cons, List.sum_cons]
    omega

/-- A component as it comes out of a parcel, its texts included. -/
def carried (C : Conversion) (c : Ipc.VersionComponent) : Ipc.VersionComponent :=
  (MessageParcelHelper.readVersionComponent C (MessageParcelHelper.writeVersionComponent C c)).1

/-- A script is shown a valid component, and of its size what 32 bits hold. -/
theorem shown_carried (C : Conversion) {c : Ipc.VersionComponent} (h : c.componentType = 1) :
    (ClientHelper.buildVersionComponents [carried C c]).map (List.map (·.size)) = some [c.size.toUInt32.toInt32.toInt] := by
  have htype : (carried C c).componentType = 1 := h
  have hsize : (carried C c).size.toUInt32 = c.size.toUInt32 := UInt32.toUInt32_toUInt64 c.size.toUInt32
  have hvalid : [carried C c].filter ClientHelper.isValidData = [carried C c] := by
    simp [ClientHelper.isValidData, ClientHelper.INVALID, htype]
  simp only [ClientHelper.buildVersionComponents, hvalid]
  simp [ClientHelper.buildVersionComponent, NapiUtil.setInt32, hsize]

/-- What a script sees is the sum as 32 bits hold it. -/
theorem scriptSizes_eq (P : Platform) (C : Conversion) (versionDigest : String) (first : FirmwareComponent)
    (components : List FirmwareComponent) (rest : Parcel) :
    scriptSizes P C versionDigest first components rest =
      some [((first :: components).foldl (fun size c => size + c.size.toUInt64) (0 : UInt64)).toUInt32.toInt32.toInt] := by
  -- a vector of one component is read as one
  have hone := @shown_carried C
    (VersionComponent.ofService (FirmwareUpdateHelper.buildHotaVersionComponent P first (first :: components))) rfl
  exact hone

end SizesAux

open SizesAux

/-- The size that a script sees of a version is the exact sum of the sizes of its components exactly when the sum is less than 2^31. -/
theorem script_size_exact_iff (P : Platform) (C : Conversion) (versionDigest : String) (first : FirmwareComponent)
    (components : List FirmwareComponent) (rest : Parcel) (hnonneg : ∀ c ∈ first :: components, 0 ≤ c.size.toInt)
    (hfits : totalSize (first :: components) < 2 ^ 64) :
    scriptSizes P C versionDigest first components rest = some [totalSize (first :: components)] ↔
      totalSize (first :: components) < 2 ^ 31 := by
  have hsum := toNat_foldl (first :: components) 0 hnonneg
  have hzero := totalSize_nonneg hnonneg
  rw [scriptSizes_eq]
  generalize (first :: components).foldl (fun size c => size + c.size.toUInt64) (0 : UInt64) = size at hsum ⊢
  have hlow : size.toUInt32.toInt32.toInt = (size.toUInt32.toNat : Int).bmod (2 ^ 32) :=
    BitVec.toInt_eq_toNat_bmod size.toUInt32.toInt32.toBitVec
  rw [hlow, UInt64.toNat_toUInt32, Int.bmod_def]
  simp only [Option.some.injEq, List.cons.injEq, and_true, UInt64.toNat_zero] at hsum ⊢
  omega

/-- Two packages of a phone. -/
def phonePackages (size : Int64) : List FirmwareComponent := [{ size := size }, { size := 7 }]

theorem script_size_exact_iff_phone :
    scriptSizes .phone utf16 "digest" { size := 5 } (phonePackages 10) [] = some [22] ↔ (22 : Int) < 2 ^ 31 :=
  script_size_exact_iff .phone utf16 "digest" { size := 5 } (phonePackages 10) [] (by decide) (by decide)

/-- Of three packages of 3 GB together a script is shown a negative size. -/
theorem script_size_wrong :
    (∀ c ∈ { size := 2000000000 } :: phonePackages 999999993, 0 ≤ c.size.toInt) ∧
      totalSize ({ size := 2000000000 } :: phonePackages 999999993) = 3000000000 ∧
      scriptSizes .phone utf16 "digest" { size := 2000000000 } (phonePackages 999999993) [] = some [-1294967296] := by
  decide

/-! ## The size of a component -/

/-- The row has the size: it is stored, it is what the space for the download is reckoned with, and a local package is complete exactly
when it is as long. -/
structure FirmwareComponent.HasSize (row : FirmwareComponent) (size : Int) : Prop where
  stored : row.size.toInt = size
  required : FirmwareDownloadDataProcessor.requireTotalSize [row] = (100 - row.progress).toInt64 * Int64.ofInt size / 100
  complete : ∀ (n : Thread) (a : Answer) (s : State) (content : Bytes), s.stopped = false → s.files row.spath = some content →
    content.length < 2 ^ 63 →
      ((FirmwareUpdateHelper.isUpgradePackagesReady [row]).Ends (n.alone a) s (fun ready _ => ready = true) ↔
        (content.length : Int) = size)

namespace SizesAux

open AnalysisAux

theorem hasSize_of_stored {row : FirmwareComponent} {size : Int} (h : row.size.toInt = size) : row.HasSize size where
  stored := h
  required := by
    have hsize : Int64.ofInt size = row.size := by rw [← h, Int64.ofInt_toInt]
    simp [FirmwareDownloadDataProcessor.requireTotalSize, hsize]
  complete := by
    intro n a s content hs hfile hlt
    have hends := AloneAux.isUpgradePackagesReady_ends (n := n) (a := a) hs row
    have hequal : Int64.ofNat content.length = row.size ↔ (content.length : Int) = size := by
      rw [← Int64.toInt_inj, h, Int64.toInt_ofNat_of_lt hlt]
    rw [hfile, Option.any_some] at hends
    refine hends.iff_of ?_
    rintro _ _ rfl
    rw [decide_eq_true_iff]
    exact hequal

/-- The rows that a new version inserts. -/
theorem handleNewVersion_uses_iff (P : Platform) {R : List FirmwareComponent → Prop} {components : List FirmwareComponent}
    (hne : components ≠ []) :
    ((FirmwareCheckDataProcessor.handleNewVersion P components).Uses fun o => ∀ rows, o = .insertComponents rows → R rows) ↔
      R (components.map FirmwareCheckDataProcessor.buildComponentSPath) := by
  constructor
  · intro h
    -- the tables are found empty, and the version is inserted
    have hsame := h.2 []
    have hlength : ([] : List FirmwareComponent).length ≠ components.length := fun he => hne (List.length_eq_zero_iff.mp he.symm)
    change Prog.Uses _ ((if ([] : List FirmwareComponent).length ≠ components.length then Prog.ret false else _) >>= _) at hsame
    rw [if_pos hlength] at hsame
    have hclear := (hsame.2 ()).2 []
    have hinsert := ((((hclear.2 ()).2 ()).2 ()).2 ()).1
    exact hinsert _ rfl
  · intro h
    have hother {α : Type} {l : List OpKind} {p : Prog α} (hp : Kinds l p) (hl : l.contains .insert = false) :
        p.Uses fun o => ∀ rows, o = .insertComponents rows → R rows := by
      refine Prog.Uses.mono ?_ hp
      rintro _ ho rows rfl
      exact absurd (hl.symm.trans ho) Bool.noConfusion
    refine Prog.Uses.bind (hother (KindsAux.isVersionSameWithDb_kinds components) rfl) fun same => ⟨nofun, fun _ => ?_⟩
    cases same with
    | true => exact hother (KindsAux.updateFirmwareComponent_kinds components) rfl
    | false =>
      change Prog.Uses _ (FirmwareUpdateHelper.clearFirmwareInfo >>= _)
      refine Prog.Uses.bind (hother KindsAux.clearFirmwareInfo_kinds rfl) fun _ => ⟨nofun, fun _ => ⟨?_, fun _ => ?_⟩⟩
      · rintro rows he
        cases he
        exact h
      · exact ⟨nofun, fun _ => trivial⟩

/-- The component that is found for an entry. -/
theorem analyzed_getElem {P : Platform} {rawJson : String} {entries : List CheckResultEntry}
    (hentries : acceptedEntries P rawJson = some entries) {i : Nat} {e : CheckResultEntry} (hi : entries[i]? = some e) :
    ∃ c, (analyzed P rawJson)[i]? = some c ∧ c.size = (Int32.ofInt e.size).toInt64 := by
  obtain ⟨l, hl, hanalyzed⟩ := analyzed_of_accepted hentries
  rw [hanalyzed]
  clear hanalyzed hentries
  induction hl generalizing i with
  | nil => simp at hi
  | cons hj _ ih =>
    cases i with
    | zero =>
      cases hi
      exact ⟨_, rfl, congrArg FirmwareComponent.size (analyzeComponent_of_entry hj)⟩
    | succ i => exact ih hi

end SizesAux

open SizesAux AnalysisAux

/-- Of a response that lists a version, the row of a component has the size in its entry exactly when that is less than 2^31. -/
theorem component_size_kept_iff (P : Platform) (rawJson : String) {entries : List CheckResultEntry}
    (hentries : acceptedEntries P rawJson = some entries) {i : Nat} {e : CheckResultEntry} (hi : entries[i]? = some e)
    (hnonneg : 0 ≤ e.size) (hlt : e.size < 2 ^ 63) :
    ((FirmwareCheckAnalyzeUtils.doAnalyze P rawJson).Returns fun components =>
      (FirmwareCheckDataProcessor.handleNewVersion P components).Uses fun o =>
        ∀ rows, o = .insertComponents rows → ∃ row, rows[i]? = some row ∧ row.HasSize e.size) ↔ e.size < 2 ^ 31 := by
  obtain ⟨c, hc, hsize⟩ := analyzed_getElem hentries hi
  have hne : analyzed P rawJson ≠ [] := by
    intro hnil
    simp [hnil] at hc
  have hrow : ((analyzed P rawJson).map FirmwareCheckDataProcessor.buildComponentSPath)[i]? =
      some (FirmwareCheckDataProcessor.buildComponentSPath c) := by
    simp [hc]
  have hint : c.size.toInt = e.size.bmod (2 ^ 32) := by simp [hsize]
  rw [AnalysisAux.doAnalyze_returns_iff, handleNewVersion_uses_iff P hne, hrow]
  rw [Int.bmod_def] at hint
  constructor
  · rintro ⟨row, hr, hstored, -, -⟩
    cases hr
    have he : c.size.toInt = e.size := hstored
    omega
  · intro hsmall
    refine ⟨_, rfl, hasSize_of_stored ?_⟩
    change c.size.toInt = e.size
    omega

/-- The entry of the package of the phone. -/
def phoneEntry : CheckResultEntry := ⟨"package", 1, "2.0", "2.0", "server/package", 1, ""⟩

theorem component_size_kept_iff_phone :
    ((FirmwareCheckAnalyzeUtils.doAnalyze .phone versionText).Returns fun components =>
      (FirmwareCheckDataProcessor.handleNewVersion .phone components).Uses fun o =>
        ∀ rows, o = .insertComponents rows → ∃ row, rows[0]? = some row ∧ row.HasSize 1) ↔ (1 : Int) < 2 ^ 31 := by
  have hentries : acceptedEntries .phone versionText = some [phoneEntry] := rfl
  have hfirst : [phoneEntry][0]? = some phoneEntry := rfl
  exact component_size_kept_iff .phone versionText hentries hfirst (by decide) (by decide)

/-- A response that lists a package of 3 GB. -/
def largeJson : Json := .obj [("searchStatus", .num 0),
  ("checkResults", .arr [.obj [("descriptPackageId", .str "package"), ("packageType", .num 1), ("versionName", .str "2.0"),
    ("versionCode", .str "2.0"), ("url", .str "server/package"), ("size", .num 3000000000), ("verifyInfo", .str "")]]),
  ("descriptInfo", .arr [])]

/-- A phone whose server answers with it. -/
def largePhone : Platform := { Platform.phone with jsonParse := fun _ => some largeJson }

/-- The row of that package has another size. -/
theorem component_size_lost :
    acceptedEntries largePhone "" = some [{ phoneEntry with size := 3000000000 }] ∧
      ¬ (FirmwareCheckAnalyzeUtils.doAnalyze largePhone "").Returns fun components =>
        (FirmwareCheckDataProcessor.handleNewVersion largePhone components).Uses fun o =>
          ∀ rows, o = .insertComponents rows → ∃ row, rows[0]? = some row ∧ row.HasSize 3000000000 := by
  have hentries : acceptedEntries largePhone "" = some [{ phoneEntry with size := 3000000000 }] := rfl
  refine ⟨hentries, fun h => ?_⟩
  obtain ⟨c, hc, hsize⟩ := analyzed_getElem hentries (i := 0) rfl
  have hne : analyzed largePhone "" ≠ [] := by
    intro hnil
    simp [hnil] at hc
  obtain ⟨row, hrow, hstored, -, -⟩ := (handleNewVersion_uses_iff _ hne).mp ((doAnalyze_returns_iff "").mp h)
  have hsame : row.size = c.size := by
    rw [List.getElem?_map, hc] at hrow
    cases hrow
    rfl
  rw [hsame, hsize] at hstored
  exact absurd hstored (by decide)

end UpdateEngine
