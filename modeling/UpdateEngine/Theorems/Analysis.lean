import Mathlib.Algebra.Group.Int.Defs
import Mathlib.Algebra.GroupWithZero.Nat
import Mathlib.Data.List.Forall2
import UpdateEngine.Firmware.Lives
import UpdateEngine.Lemmas.Kinds

/-!
# What the analyser makes of a response

`acceptedEntries` says which responses list a version and what their entries are. The analyser finds exactly these, unless a size does
not fit the variable it is read into, and comes to an end unless an entry is neither an object nor null.
-/

namespace UpdateEngine

open Concurrent

/-! ## Responses -/

/-- The text under a key. -/
def Json.text? (j : Json) (key : String) : Option String :=
  match j.find key with
  | some (.str s) => some s
  | _ => none

/-- The number under a key. -/
def Json.number? (j : Json) (key : String) : Option Int :=
  match j.find key with
  | some (.num n) => some n
  | some (.float n) => some n
  | _ => none

/-- The required fields of an entry of `checkResults`. -/
structure CheckResultEntry where
  descriptPackageId : String
  packageType : Int
  versionName : String
  versionCode : String
  url : String
  size : Int
  verifyInfo : String
  deriving DecidableEq, Repr

/-- An entry that has them, each of the required type. -/
def CheckResultEntry.ofJson (j : Json) : Option CheckResultEntry := do
  let descriptPackageId ← j.text? "descriptPackageId"
  let packageType ← j.number? "packageType"
  let versionName ← j.text? "versionName"
  let versionCode ← j.text? "versionCode"
  let url ← j.text? "url"
  let size ← j.number? "size"
  let verifyInfo ← j.text? "verifyInfo"
  return { descriptPackageId, packageType, versionName, versionCode, url, size, verifyInfo }

/-- An entry of `descriptInfo` has the required fields, each of the required type. -/
def isDescriptInfo (j : Json) : Bool := (j.number? "descriptionType").isSome && (j.text? "content").isSome

/-- The response is an object whose `searchStatus` converts to the status of a new version. -/
def newVersionRoot (P : Platform) (rawJson : String) : Option Json :=
  ((P.jsonParse rawJson).filter Json.isObject).filter fun root =>
    (root.number? "searchStatus").any fun status =>
      Int32.ofInt status = FirmwareCheckAnalyzeUtils.STATUS_NEW_VERSION_AVAILABLE

/-- The entries of a response that lists a version: it has `checkResults` and `descriptInfo`, and no entry of either lacks anything. -/
def acceptedEntries (P : Platform) (rawJson : String) : Option (List CheckResultEntry) := do
  let root ← newVersionRoot P rawJson
  let checkResults ← root.find "checkResults"
  let descriptInfo ← root.find "descriptInfo"
  if descriptInfo.items.all isDescriptInfo then checkResults.items.mapM CheckResultEntry.ofJson else none

/-- The component is that of the entry, field by field. -/
def CheckResultEntry.Describes (e : CheckResultEntry) (c : FirmwareComponent) : Prop :=
  c.size.toInt = e.size ∧ c = {
    descriptPackageId := e.descriptPackageId
    url := e.url
    size := c.size
    fileName := StringUtils.getLastSplitString e.url '/'
    verifyInfo := e.verifyInfo
    versionNumber := e.versionCode
    targetBlVersionNumber := e.versionName
    targetBlDisplayVersionNumber := e.versionName
    blVersionType := 1
    componentId := e.descriptPackageId
    versionPackageType := .normal }

/-- The components found: one for each entry of a response that lists a version, none for any other. -/
def Exact (P : Platform) (rawJson : String) (components : List FirmwareComponent) : Prop :=
  List.Forall₂ CheckResultEntry.Describes ((acceptedEntries P rawJson).getD []) components

/-- Every entry of the `checkResults` of a response with a new version can be indexed. -/
def Indexable (P : Platform) (rawJson : String) : Prop :=
  ∀ root ∈ newVersionRoot P rawJson, ∀ checkResults ∈ root.find "checkResults", ∀ j ∈ checkResults.items, j.indexable = true

/-- The sizes of the entries fit an `int32_t`. -/
def SizesFit (P : Platform) (rawJson : String) : Prop :=
  ∀ entries ∈ acceptedEntries P rawJson, ∀ e ∈ entries, -2 ^ 31 ≤ e.size ∧ e.size < 2 ^ 31

namespace AnalysisAux

open FirmwareCheckAnalyzeUtils

variable {P : Platform}

/-! ## Getters -/

theorem getString_of_text {j : Json} {key s : String} (value : String) (h : j.text? key = some s) :
    JsonUtils.getString j key value = (JsonUtils.ERR_OK, s) := by
  unfold Json.text? at h
  unfold JsonUtils.getString
  cases hj : j.find key with
  | none => simp [hj] at h
  | some v => cases v <;> simp_all

theorem getString_eq_zero_iff (j : Json) (key value : String) :
    (JsonUtils.getString j key value).1 = 0 ↔ (j.text? key).isSome = true := by
  unfold Json.text? JsonUtils.getString
  cases j.find key with
  | none => simp [JsonUtils.MISSING_PROP]
  | some v => cases v <;> simp [JsonUtils.ERR_OK, JsonUtils.TYPE_ERROR]

theorem getInt_of_number {j : Json} {key : String} {n : Int} (value : Int32) (h : j.number? key = some n) :
    JsonUtils.getInt j key value = (JsonUtils.ERR_OK, Int32.ofInt n) := by
  unfold Json.number? at h
  unfold JsonUtils.getInt
  cases hj : j.find key with
  | none => simp [hj] at h
  | some v => cases v <;> simp_all

theorem getInt_eq_zero_iff (j : Json) (key : String) (value : Int32) :
    (JsonUtils.getInt j key value).1 = 0 ↔ (j.number? key).isSome = true := by
  unfold Json.number? JsonUtils.getInt
  cases j.find key with
  | none => simp [JsonUtils.MISSING_PROP]
  | some v => cases v <;> simp [JsonUtils.ERR_OK, JsonUtils.TYPE_ERROR]

/-- The status of a response: that of a new version exactly for a response with one. -/
theorem status_iff (root : Json) :
    (JsonUtils.getInt root "searchStatus" STATUS_SYSTEM_ERROR).2 = STATUS_NEW_VERSION_AVAILABLE ↔
      ((root.number? "searchStatus").any fun status => Int32.ofInt status = STATUS_NEW_VERSION_AVAILABLE) = true := by
  unfold Json.number? JsonUtils.getInt
  cases root.find "searchStatus" with
  | none => decide
  | some v =>
    cases v with
    | num n | float n => exact decide_eq_true_iff.symm
    | _ => simp [STATUS_SYSTEM_ERROR, STATUS_NEW_VERSION_AVAILABLE]

/-! ## Entries -/

/-- The fields of an entry, when there is one. -/
theorem of_ofJson {j : Json} {e : CheckResultEntry} (h : CheckResultEntry.ofJson j = some e) :
    j.text? "descriptPackageId" = some e.descriptPackageId ∧ j.number? "packageType" = some e.packageType ∧
      j.text? "versionName" = some e.versionName ∧ j.text? "versionCode" = some e.versionCode ∧ j.text? "url" = some e.url ∧
      j.number? "size" = some e.size ∧ j.text? "verifyInfo" = some e.verifyInfo := by
  unfold CheckResultEntry.ofJson at h
  simp only [Option.bind_eq_bind, Option.bind_eq_some_iff, Option.pure_def, Option.some.injEq] at h
  obtain ⟨_, h1, _, h2, _, h3, _, h4, _, h5, _, h6, _, h7, rfl⟩ := h
  exact ⟨h1, h2, h3, h4, h5, h6, h7⟩

theorem ofJson_isSome_iff (j : Json) :
    (CheckResultEntry.ofJson j).isSome = true ↔
      (j.text? "descriptPackageId").isSome = true ∧ (j.number? "packageType").isSome = true ∧
        (j.text? "versionName").isSome = true ∧ (j.text? "versionCode").isSome = true ∧ (j.text? "url").isSome = true ∧
        (j.number? "size").isSome = true ∧ (j.text? "verifyInfo").isSome = true := by
  constructor
  · intro h
    obtain ⟨e, he⟩ := Option.isSome_iff_exists.mp h
    obtain ⟨h1, h2, h3, h4, h5, h6, h7⟩ := of_ofJson he
    simp [h1, h2, h3, h4, h5, h6, h7]
  · simp only [Option.isSome_iff_exists]
    rintro ⟨⟨_, h1⟩, ⟨_, h2⟩, ⟨_, h3⟩, ⟨_, h4⟩, ⟨_, h5⟩, ⟨_, h6⟩, ⟨_, h7⟩⟩
    simp [CheckResultEntry.ofJson, h1, h2, h3, h4, h5, h6, h7]

/-- The errors of an entry in the two passes. -/
def errors (P : Platform) (j : Json) : Nat := (analyzeBlVersionCheckResult j).getD 0 + (analyzeComponent P j).1

/-- An object counts no error exactly when it has every required field. -/
theorem errors_eq_zero_iff {j : Json} (h : j.indexable = true) :
    errors P j = 0 ↔ (CheckResultEntry.ofJson j).isSome = true := by
  rw [ofJson_isSome_iff]
  simp only [errors, analyzeBlVersionCheckResult, if_pos h, Option.getD_some, analyzeComponent, Nat.add_eq_zero_iff,
    getString_eq_zero_iff, getInt_eq_zero_iff]
  tauto

/-- The component of an entry, as the analyser fills it. -/
theorem analyzeComponent_of_entry {j : Json} {e : CheckResultEntry} (h : CheckResultEntry.ofJson j = some e) :
    (analyzeComponent P j).2 = {
      descriptPackageId := e.descriptPackageId
      url := e.url
      size := (Int32.ofInt e.size).toInt64
      fileName := StringUtils.getLastSplitString e.url '/'
      verifyInfo := e.verifyInfo
      versionNumber := e.versionCode
      targetBlVersionNumber := e.versionName
      targetBlDisplayVersionNumber := e.versionName
      blVersionType := 1
      componentId := e.descriptPackageId
      versionPackageType := .normal } := by
  obtain ⟨h1, -, h3, h4, h5, h6, h7⟩ := of_ofJson h
  simp only [analyzeComponent, getString_of_text _ h1, getString_of_text _ h3, getString_of_text _ h4, getString_of_text _ h5,
    getString_of_text _ h7, getInt_of_number _ h6]

/-- It is the component of the entry exactly when the size fits. -/
theorem describes_iff {j : Json} {e : CheckResultEntry} (h : CheckResultEntry.ofJson j = some e) :
    e.Describes (analyzeComponent P j).2 ↔ -2 ^ 31 ≤ e.size ∧ e.size < 2 ^ 31 := by
  have hsize : (Int32.ofInt e.size).toInt64.toInt = e.size.bmod (2 ^ 32) := by simp
  rw [analyzeComponent_of_entry h]
  unfold CheckResultEntry.Describes
  rw [and_iff_left rfl, hsize, Int.bmod_def]
  omega

/-! ## The passes -/

/-- What the first pass counts, unless it throws. -/
theorem foldlM_add {f : Json → Option Nat} (l : List Json) (ret : Nat) :
    l.foldlM (fun ret j => (f j).map (ret + ·)) ret =
      if l.all fun j => (f j).isSome then some (ret + (l.map fun j => (f j).getD 0).sum) else none := by
  induction l generalizing ret with
  | nil => rfl
  | cons j l ih =>
    rw [List.foldlM_cons]
    cases hj : f j with
    | none => simp [hj]
    | some n => simp [ih, hj, Nat.add_assoc]

theorem isSome_analyzeBl (j : Json) : (analyzeBlVersionCheckResult j).isSome = j.indexable := by
  unfold analyzeBlVersionCheckResult
  cases j.indexable <;> rfl

/-- What the errors of the second pass come to, and the third one. -/
theorem foldl_add {α : Type} (f : α → Nat) (l : List α) (ret : Nat) :
    l.foldl (fun ret a => ret + f a) ret = ret + (l.map f).sum := by
  induction l generalizing ret with
  | nil => rfl
  | cons a l ih => simp [ih, Nat.add_assoc]

/-- Saving texts changes nothing about what is returned. -/
theorem returns_saves {α : Type} {R : α → Prop} (path : String) (infos : List (Nat × String)) (a : α) :
    ((infos.forM fun info => do
      let _ ← call (.saveDataToFile path info.2)) >>= fun _ => (Prog.ret a : Prog α)).Returns R ↔ R a := by
  induction infos with
  | nil => exact Iff.rfl
  | cons info infos ih =>
    constructor
    · intro h
      exact ih.mp (h true)
    · intro h _
      exact ih.mpr h

/-- What the second and the third pass come to. -/
def found (P : Platform) (root : Json) : Nat × List FirmwareComponent :=
  match root.find "checkResults" with
  | none => (JsonUtils.MISSING_PROP, [])
  | some checkResults =>
    let results := checkResults.items.map (analyzeComponent P)
    match root.find "descriptInfo" with
    | none => (JsonUtils.MISSING_PROP, results.map Prod.snd)
    | some descriptInfos =>
      ((results.map Prod.fst).sum + (descriptInfos.items.map fun j => (analyzeDescriptInfo P j).1).sum, results.map Prod.snd)

theorem analyzeComponents_returns_iff {R : Nat × List FirmwareComponent → Prop} (root : Json) :
    (analyzeComponents P root).Returns R ↔ R (found P root) := by
  unfold analyzeComponents found
  cases root.find "checkResults" with
  | none => exact Iff.rfl
  | some checkResults =>
    cases root.find "descriptInfo" with
    | none => exact Iff.rfl
    | some descriptInfos =>
      refine (returns_saves _ _ _).trans ?_
      simp only [foldl_add, Nat.zero_add, List.map_map]
      rfl

/-- What the analyser returns. -/
def analyzed (P : Platform) (rawJson : String) : List FirmwareComponent :=
  match newVersionRoot P rawJson with
  | none => []
  | some root =>
    match analyzeBlVersionCheckResults root with
    | none => []
    | some ret => if ret + (found P root).1 = JsonUtils.ERR_OK then (found P root).2 else []

/-- A response without a new version: nothing happens. -/
theorem doAnalyze_of_none {rawJson : String} (h : newVersionRoot P rawJson = none) : doAnalyze P rawJson = .ret [] := by
  unfold newVersionRoot at h
  unfold doAnalyze JsonUtils.parseAndGetJsonObject
  cases hr : (P.jsonParse rawJson).filter Json.isObject with
  | none => rfl
  | some root =>
    rw [hr, Option.filter_some] at h
    have hstatus : (JsonUtils.getInt root "searchStatus" STATUS_SYSTEM_ERROR).2 ≠ STATUS_NEW_VERSION_AVAILABLE := by
      intro hs
      rw [if_pos ((status_iff root).mp hs)] at h
      cases h
    dsimp only
    simp only [if_neg hstatus]
    split <;> rfl

/-- A response with a new version. -/
theorem doAnalyze_of_some {rawJson : String} {root : Json} (h : newVersionRoot P rawJson = some root) :
    doAnalyze P rawJson = match analyzeBlVersionCheckResults root with
      | none => call .terminate >>= fun _ => .ret []
      | some ret => analyzeComponents P root >>= fun x => .ret (if ret + x.1 = JsonUtils.ERR_OK then x.2 else []) := by
  unfold newVersionRoot at h
  obtain ⟨hroot, hany⟩ := Option.filter_eq_some_iff.mp h
  have hstatus := (status_iff root).mpr hany
  unfold doAnalyze JsonUtils.parseAndGetJsonObject
  rw [hroot]
  dsimp only
  rw [hstatus, if_pos rfl]
  cases analyzeBlVersionCheckResults root <;> rfl

theorem doAnalyze_returns_iff {R : List FirmwareComponent → Prop} (rawJson : String) :
    (doAnalyze P rawJson).Returns R ↔ R (analyzed P rawJson) := by
  unfold analyzed
  cases h : newVersionRoot P rawJson with
  | none =>
    rw [doAnalyze_of_none h]
    exact Iff.rfl
  | some root =>
    rw [doAnalyze_of_some h]
    dsimp only
    cases analyzeBlVersionCheckResults root with
    | none => exact ⟨fun hr => hr (), fun hr _ => hr⟩
    | some ret => exact Prog.returns_bind.trans (analyzeComponents_returns_iff root)

/-! ## Both together -/

/-- The first pass over the entries of a response with a new version. -/
theorem analyzeBl_of_some {rawJson : String} {root checkResults : Json} (h : newVersionRoot P rawJson = some root)
    (hresults : root.find "checkResults" = some checkResults) :
    analyzeBlVersionCheckResults root = if checkResults.items.all Json.indexable then
      some (checkResults.items.map fun j => (analyzeBlVersionCheckResult j).getD 0).sum else none := by
  have hstatus := (status_iff root).mpr (Option.filter_eq_some_iff.mp h).2
  unfold analyzeBlVersionCheckResults
  rw [hresults]
  simp only [hstatus, if_true, foldlM_add, isSome_analyzeBl, Nat.zero_add]

/-- The analyser raises no exception exactly when every entry can be indexed. -/
theorem doAnalyze_uses_iff (rawJson : String) : (doAnalyze P rawJson).Uses (· ≠ .terminate) ↔ Indexable P rawJson := by
  unfold Indexable
  cases h : newVersionRoot P rawJson with
  | none =>
    rw [doAnalyze_of_none h]
    simp
  | some root =>
    have hsaves (ret : Nat) : (analyzeComponents P root >>= fun x =>
        (Prog.ret (if ret + x.1 = JsonUtils.ERR_OK then x.2 else []) : Prog (List FirmwareComponent))).Uses (· ≠ .terminate) := by
      refine Prog.Uses.bind (Prog.Uses.mono ?_ (KindsAux.analyzeComponents_kinds P root)) fun _ => trivial
      rintro o ho rfl
      cases ho
    rw [doAnalyze_of_some h]
    simp only [Option.mem_def, Option.some.injEq, forall_eq']
    cases hresults : root.find "checkResults" with
    | none =>
      have hbl : analyzeBlVersionCheckResults root = some JsonUtils.MISSING_PROP := by
        simp [analyzeBlVersionCheckResults, hresults]
      rw [hbl]
      simpa using hsaves _
    | some checkResults =>
      simp only [Option.some.injEq, forall_eq']
      rw [analyzeBl_of_some h hresults]
      by_cases hall : checkResults.items.all Json.indexable = true
      · rw [if_pos hall]
        exact iff_of_true (hsaves _) (List.all_eq_true.mp hall)
      · rw [if_neg hall]
        refine iff_of_false (fun hu => hu.1 rfl) fun hi => hall (List.all_eq_true.mpr hi)

/-- Reading every entry. -/
theorem mapM_eq_some_iff {α β : Type} (f : α → Option β) (l : List α) (l' : List β) :
    l.mapM f = some l' ↔ List.Forall₂ (fun a b => f a = some b) l l' := by
  induction l generalizing l' with
  | nil => cases l' <;> simp
  | cons a l ih =>
    rw [List.mapM_cons]
    cases l' with
    | nil => simp [Option.bind_eq_some_iff]
    | cons b l' =>
      rw [List.forall₂_cons, ← ih]
      simp [Option.bind_eq_some_iff]

theorem isSome_mapM {α β : Type} (f : α → Option β) (l : List α) :
    (l.mapM f).isSome = true ↔ ∀ a ∈ l, (f a).isSome = true := by
  induction l with
  | nil => simp
  | cons a l ih =>
    rw [List.mapM_cons, List.forall_mem_cons, ← ih]
    cases f a <;> cases l.mapM f <;> simp

theorem analyzeDescriptInfo_eq_zero_iff (j : Json) : (analyzeDescriptInfo P j).1 = 0 ↔ isDescriptInfo j = true := by
  simp only [analyzeDescriptInfo, isDescriptInfo, Nat.add_eq_zero_iff, getInt_eq_zero_iff, getString_eq_zero_iff, Bool.and_eq_true]

/-- What is counted is nothing exactly when there is nothing to count. -/
theorem sum_map_eq_zero_iff {α : Type} (f : α → Nat) (l : List α) : (l.map f).sum = 0 ↔ ∀ a ∈ l, f a = 0 := by
  induction l with
  | nil => simp
  | cons a l ih => simp [ih]

/-- The components of the entries. -/
theorem describes_all_iff {l : List Json} {entries : List CheckResultEntry}
    (h : List.Forall₂ (fun j e => CheckResultEntry.ofJson j = some e) l entries) :
    List.Forall₂ CheckResultEntry.Describes entries (l.map fun j => (analyzeComponent P j).2) ↔
      ∀ e ∈ entries, -2 ^ 31 ≤ e.size ∧ e.size < 2 ^ 31 := by
  induction h with
  | nil => simp
  | cons hj _ ih => rw [List.map_cons, List.forall₂_cons, ih, List.forall_mem_cons, describes_iff hj]

/-- Without the two arrays nothing is found. -/
theorem analyzed_of_missing {rawJson : String} {root : Json} (h : newVersionRoot P rawJson = some root)
    (hmissing : (found P root).1 = JsonUtils.MISSING_PROP) : analyzed P rawJson = [] := by
  unfold analyzed
  rw [h]
  dsimp only
  cases analyzeBlVersionCheckResults root with
  | none => rfl
  | some ret => simp [hmissing, JsonUtils.MISSING_PROP, JsonUtils.ERR_OK]

/-- What is returned for a response with both arrays whose entries can be indexed. -/
theorem analyzed_of_both {rawJson : String} {root checkResults descriptInfos : Json} (h : newVersionRoot P rawJson = some root)
    (hresults : root.find "checkResults" = some checkResults) (hinfos : root.find "descriptInfo" = some descriptInfos)
    (hindexable : ∀ j ∈ checkResults.items, j.indexable = true) :
    analyzed P rawJson = if (∀ j ∈ checkResults.items, (CheckResultEntry.ofJson j).isSome = true) ∧
        descriptInfos.items.all isDescriptInfo = true then checkResults.items.map fun j => (analyzeComponent P j).2 else [] := by
  have hfound : found P root = ((checkResults.items.map fun j => (analyzeComponent P j).1).sum +
      (descriptInfos.items.map fun j => (analyzeDescriptInfo P j).1).sum,
      checkResults.items.map fun j => (analyzeComponent P j).2) := by
    simp [found, hresults, hinfos, Function.comp_def]
  have herrors : (checkResults.items.map fun j => (analyzeBlVersionCheckResult j).getD 0).sum + (found P root).1 = 0 ↔
      (∀ j ∈ checkResults.items, (CheckResultEntry.ofJson j).isSome = true) ∧ descriptInfos.items.all isDescriptInfo = true := by
    rw [hfound]
    simp only [Nat.add_eq_zero_iff, sum_map_eq_zero_iff, List.all_eq_true, analyzeDescriptInfo_eq_zero_iff]
    rw [← and_assoc, ← forall₂_and]
    refine and_congr_left fun _ => forall₂_congr fun j hj => ?_
    rw [← errors_eq_zero_iff (P := P) (hindexable j hj), errors, Nat.add_eq_zero_iff]
  unfold analyzed
  rw [h]
  dsimp only
  rw [analyzeBl_of_some h hresults, if_pos (List.all_eq_true.mpr hindexable)]
  dsimp only
  rw [JsonUtils.ERR_OK, if_congr herrors rfl rfl, hfound]

/-- Only an object has fields. -/
theorem indexable_of_entry {j : Json} {e : CheckResultEntry} (h : CheckResultEntry.ofJson j = some e) : j.indexable = true := by
  have hfield := (of_ofJson h).1
  cases j with
  | obj l => rfl
  | _ => cases hfield

/-- What an accepted response consists of. -/
theorem of_accepted {rawJson : String} {entries : List CheckResultEntry} (h : acceptedEntries P rawJson = some entries) :
    ∃ root checkResults descriptInfos, newVersionRoot P rawJson = some root ∧ root.find "checkResults" = some checkResults ∧
      root.find "descriptInfo" = some descriptInfos ∧ descriptInfos.items.all isDescriptInfo = true ∧
      checkResults.items.mapM CheckResultEntry.ofJson = some entries := by
  simp only [acceptedEntries, Option.bind_eq_bind, Option.bind_eq_some_iff] at h
  obtain ⟨root, hroot, checkResults, hresults, descriptInfos, hinfos, h⟩ := h
  by_cases hall : descriptInfos.items.all isDescriptInfo = true
  · rw [if_pos hall] at h
    exact ⟨root, checkResults, descriptInfos, hroot, hresults, hinfos, hall, h⟩
  · rw [if_neg hall] at h
    cases h

/-- It raises no exception. -/
theorem indexable_of_accepted {rawJson : String} {entries : List CheckResultEntry} (h : acceptedEntries P rawJson = some entries) :
    Indexable P rawJson := by
  obtain ⟨root, checkResults, -, hroot, hresults, -, -, hentries⟩ := of_accepted h
  intro root' hroot' checkResults' hresults' j hj
  rw [hroot, Option.mem_def, Option.some.injEq] at hroot'
  subst hroot'
  rw [hresults, Option.mem_def, Option.some.injEq] at hresults'
  subst hresults'
  obtain ⟨e, he⟩ := Option.isSome_iff_exists.mp ((isSome_mapM _ _).mp (Option.isSome_of_eq_some hentries) j hj)
  exact indexable_of_entry he

/-- A response that lists a version: every component found is that of an entry. -/
theorem analyzed_of_accepted {rawJson : String} {entries : List CheckResultEntry}
    (h : acceptedEntries P rawJson = some entries) :
    ∃ l : List Json, List.Forall₂ (fun j e => CheckResultEntry.ofJson j = some e) l entries ∧
      analyzed P rawJson = l.map fun j => (analyzeComponent P j).2 := by
  obtain ⟨root, checkResults, descriptInfos, hroot, hresults, hinfos, hall, hentries⟩ := of_accepted h
  have hsome := (isSome_mapM _ _).mp (Option.isSome_of_eq_some hentries)
  have hindexable := indexable_of_accepted h root hroot checkResults hresults
  refine ⟨checkResults.items, (mapM_eq_some_iff _ _ _).mp hentries, ?_⟩
  rw [analyzed_of_both hroot hresults hinfos hindexable, if_pos ⟨hsome, hall⟩]

/-- The first pass raises an exception exactly when an entry cannot be indexed. -/
theorem analyzeBl_eq_none_iff {rawJson : String} {root : Json} (h : newVersionRoot P rawJson = some root) :
    analyzeBlVersionCheckResults root = none ↔ ¬ Indexable P rawJson := by
  unfold Indexable
  simp only [h, Option.mem_def, Option.some.injEq, forall_eq']
  cases hresults : root.find "checkResults" with
  | none => simp [analyzeBlVersionCheckResults, hresults]
  | some checkResults =>
    rw [analyzeBl_of_some h hresults]
    simp

/-- Nothing is found where no version is listed. -/
theorem analyzed_of_rejected {rawJson : String} (hentries : acceptedEntries P rawJson = none) : analyzed P rawJson = [] := by
  cases h : newVersionRoot P rawJson with
  | none => simp [analyzed, h]
  | some root =>
    by_cases hindexable : Indexable P rawJson
    · cases hresults : root.find "checkResults" with
      | none => exact analyzed_of_missing h (by simp [found, hresults])
      | some checkResults =>
        cases hinfos : root.find "descriptInfo" with
        | none => exact analyzed_of_missing h (by simp [found, hresults, hinfos])
        | some descriptInfos =>
          refine (analyzed_of_both h hresults hinfos (hindexable root h checkResults hresults)).trans (if_neg ?_)
          rintro ⟨hsome, hall⟩
          have haccepted : acceptedEntries P rawJson = if descriptInfos.items.all isDescriptInfo then
              checkResults.items.mapM CheckResultEntry.ofJson else none := by
            simp [acceptedEntries, h, hresults, hinfos]
          have hmapM := (isSome_mapM _ _).mpr hsome
          rw [if_pos hall, hentries] at haccepted
          rw [← haccepted] at hmapM
          cases hmapM
    · simp [analyzed, h, (analyzeBl_eq_none_iff h).mpr hindexable]

/-- The components returned are those of the entries exactly when the sizes fit. -/
theorem exact_iff (rawJson : String) : Exact P rawJson (analyzed P rawJson) ↔ SizesFit P rawJson := by
  unfold Exact SizesFit
  cases hentries : acceptedEntries P rawJson with
  | some entries =>
    obtain ⟨l, hl, hanalyzed⟩ := analyzed_of_accepted hentries
    rw [hanalyzed]
    simpa using describes_all_iff hl
  | none => simp [analyzed_of_rejected hentries]

end AnalysisAux

open AnalysisAux

/-- The analyser raises no exception and finds one component for each entry of a response that lists a version, and none in any other
text, exactly when every entry of `checkResults` can be indexed and every size fits the variable it is read into. -/
theorem analyser_total_and_exact_iff (P : Platform) (rawJson : String) :
    ((FirmwareCheckAnalyzeUtils.doAnalyze P rawJson).Uses (· ≠ .terminate) ∧
      (FirmwareCheckAnalyzeUtils.doAnalyze P rawJson).Returns (Exact P rawJson)) ↔ Indexable P rawJson ∧ SizesFit P rawJson := by
  rw [doAnalyze_uses_iff, doAnalyze_returns_iff]
  exact and_congr_right fun _ => exact_iff rawJson

/-- A response whose `checkResults` hold a number. -/
def numberJson : Json := .obj [("searchStatus", .num 0), ("checkResults", .arr [.num 1]), ("descriptInfo", .arr [])]

/-- A device whose server answers with it. -/
def numberPhone : Platform := { Platform.phone with jsonParse := fun _ => some numberJson }

theorem number_entry_throws : ¬ (FirmwareCheckAnalyzeUtils.doAnalyze numberPhone "").Uses (· ≠ .terminate) := by
  rw [doAnalyze_uses_iff]
  intro h
  exact absurd (h numberJson rfl (.arr [.num 1]) rfl (.num 1) List.mem_cons_self) (by decide)

end UpdateEngine
