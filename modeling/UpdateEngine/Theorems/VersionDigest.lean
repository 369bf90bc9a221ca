import UpdateEngine.Lemmas.ConformAux
import UpdateEngine.Theorems.CheckFlow

/-!
# The digest of a version

A version is known by the hash of its version ids: as the id of its task, and as the digest clients are told and hand back. The
analyser reads no version id from a response, so every version has the same one.
-/

namespace UpdateEngine

open Concurrent

/-- A response is accepted as a version: a run of the analyser on it returns the components. -/
def Accepts (P : Platform) (response : String) (components : List FirmwareComponent) : Prop :=
  components ≠ [] ∧ ∃ (n : Thread) (a : Answer) (s : State),
    (FirmwareCheckAnalyzeUtils.doAnalyze P response).Ends (n.alone a) s fun l _ => l = components

/-- The digest that is stored and reported for a version: the id of the task that a check leaves which has received the version, and
what its caller is told. -/
def IsDigestOf (P : Platform) (components : List FirmwareComponent) (digest : String) : Prop :=
  ∀ (f : Nat) (s s' : State), s.stopped = false → s.flows f = { nextStep := .checkStep } →
    (FirmwareFlowManager.onCheckCallback P f .checkSuccess components).run ((Thread.checkExecutor f).alone .none) s = (some (), s') →
    CheckOutcome.received.Happens P .checkSuccess components s s' →
    s'.tasks.map (·.taskId) = [digest] ∧ s'.checkVersionDone.getLast?.map (·.2.versionDigest) = some digest

/-- Two versions of which some component has another version number, URL, size or `verifyInfo`. -/
def Differ (components components' : List FirmwareComponent) : Prop :=
  ∃ (i : Nat) (c c' : FirmwareComponent), components[i]? = some c ∧ components'[i]? = some c' ∧
    (c.versionNumber ≠ c'.versionNumber ∨ c.url ≠ c'.url ∨ c.size ≠ c'.size ∨ c.verifyInfo ≠ c'.verifyInfo)

namespace VersionDigestAux

variable {P : Platform} {components : List FirmwareComponent}

/-- The components of a response have no version id. -/
theorem versionId_of_accepts {response : String} (h : Accepts P response components) : ∀ c ∈ components, c.versionId = "" := by
  obtain ⟨-, n, a, s, hends⟩ := h
  have hread := hends.of_returns (ConformAux.doAnalyze_returns (Q := fun c => c.versionId = "") (fun _ => rfl) response)
  obtain ⟨l, s', -, hl, rfl⟩ := Prog.ends_iff_run.mp hread
  exact hl

/-- Nothing is hashed for components without version ids. -/
theorem taskIdText_of_empty (h : ∀ c ∈ components, c.versionId = "") : FirmwareUpdateHelper.taskIdText components = "" := by
  unfold FirmwareUpdateHelper.taskIdText
  induction components with
  | nil => rfl
  | cons c l ih =>
    rw [List.foldl_cons, h c (List.mem_cons_self ..)]
    exact ih fun c' hc' => h c' (List.mem_cons_of_mem _ hc')

theorem buildTaskId_of_empty (hne : components ≠ []) (h : ∀ c ∈ components, c.versionId = "") :
    FirmwareUpdateHelper.buildTaskId P components = P.sha256 "".toUTF8.toList := by
  unfold FirmwareUpdateHelper.buildTaskId
  rw [if_neg (by simpa using hne), taskIdText_of_empty h]

/-- Where a package is stored does not change the id of the version. -/
theorem buildTaskId_stored (components : List FirmwareComponent) :
    FirmwareUpdateHelper.buildTaskId P (components.map FirmwareCheckDataProcessor.buildComponentSPath) =
      FirmwareUpdateHelper.buildTaskId P components := by
  refine buildTaskId_congr P ?_
  rw [List.map_map]
  rfl

/-- The digest of a version is the id of its components. -/
theorem isDigestOf_buildTaskId (hne : components ≠ []) :
    IsDigestOf P components (FirmwareUpdateHelper.buildTaskId P components) := by
  intro f s s' hs hw hrun hreceived
  obtain ⟨-, -, -, t, htasks, rfl, hcomponents, -, -⟩ := hreceived
  obtain ⟨s'', hrun', -, hdone⟩ := check_outcome P hs hw .checkSuccess components
  rw [hrun] at hrun'
  cases hrun'
  have hrows : s'.components.isEmpty = false := by
    rw [hcomponents]
    simpa using hne
  have hdigest : FirmwareUpdateHelper.buildTaskId P s'.components = FirmwareUpdateHelper.buildTaskId P components := by
    rw [hcomponents]
    exact buildTaskId_stored components
  constructor
  · rw [htasks, ← hdigest]
    rfl
  · rw [hdone rfl, List.getLast?_concat, ← hdigest]
    simp [checkResultOf, hrows]

/-- A version has one digest: the first check of a process receives it. -/
theorem eq_of_isDigestOf (hne : components ≠ []) {digest : String} (h : IsDigestOf P components digest) :
    digest = FirmwareUpdateHelper.buildTaskId P components := by
  let s : State := { flows := fun _ => { nextStep := .checkStep } }
  obtain ⟨s', hrun, ⟨k, hk, -⟩, -⟩ := check_outcome P (f := 0) (s := s) rfl rfl .checkSuccess components
  have hreceived : CheckOutcome.received.Happens P .checkSuccess components s s' := by
    cases k with
    | ignored =>
      rcases hk.1 with hfailed | hundone
      · exact absurd hfailed (by decide)
      · exact absurd hundone (by decide)
    | stored =>
      have hlength : isStoredVersion [] components = true := hk.2.2.1
      unfold isStoredVersion at hlength
      cases components with
      | nil => exact absurd rfl hne
      | cons c l => simp at hlength
    | cancelled => exact absurd hk.2.1 hne
    | received => exact hk
  have hids := (h 0 s s' rfl rfl hrun hreceived).1
  have hids' := (isDigestOf_buildTaskId (P := P) hne 0 s s' rfl rfl hrun hreceived).1
  rw [hids] at hids'
  exact (List.cons.inj hids').1

end VersionDigestAux

open VersionDigestAux

/-- No two versions that responses are accepted as have different digests: what is stored and reported is the same for both. -/
theorem version_digests_coincide (P : Platform) {response response' : String} {components components' : List FirmwareComponent}
    (h : Accepts P response components) (h' : Accepts P response' components') :
    (∃ digest, IsDigestOf P components digest ∧ IsDigestOf P components' digest) ∧
      ∀ digest digest', IsDigestOf P components digest → IsDigestOf P components' digest' → ¬ digest ≠ digest' := by
  have hid := buildTaskId_of_empty (P := P) h.1 (versionId_of_accepts h)
  have hid' := buildTaskId_of_empty (P := P) h'.1 (versionId_of_accepts h')
  constructor
  · refine ⟨P.sha256 "".toUTF8.toList, ?_, ?_⟩
    · rw [← hid]
      exact isDigestOf_buildTaskId h.1
    · rw [← hid']
      exact isDigestOf_buildTaskId h'.1
  · intro digest digest' hd hd' hne
    rw [eq_of_isDigestOf h.1 hd, eq_of_isDigestOf h'.1 hd', hid, hid'] at hne
    exact hne rfl

/-! ## Two versions -/

/-- A second answer of the server, and the same parsed: another version number, URL, size and `verifyInfo`. -/
def nextVersionText : String := "\x7b\"searchStatus\":0,\"checkResults\":[...],\"descriptInfo\":[]\x7d"

def nextVersionJson : Json := .obj [("searchStatus", .num 0),
  ("checkResults", .arr [.obj [("descriptPackageId", .str "package"), ("packageType", .num 1), ("versionName", .str "3.0"),
    ("versionCode", .str "3.0"), ("url", .str "server/package3"), ("size", .num 2), ("verifyInfo", .str "00")]]),
  ("descriptInfo", .arr [])]

/-- The phone, whose server has gone on to the second answer, with a hash that has no collisions. -/
def Platform.phoneTwice : Platform := { Platform.phone with
  jsonParse := fun text =>
    if text = versionText then some versionJson else if text = nextVersionText then some nextVersionJson else none
  sha256 := fun content => String.ofList (content.map fun b => Char.ofNat b.toNat) }

/-- The component of the second answer. -/
def nextPackage : FirmwareComponent := {
  descriptPackageId := "package", url := "server/package3", size := 2, fileName := "package3", verifyInfo := "00"
  versionNumber := "3.0", targetBlVersionNumber := "3.0", targetBlDisplayVersionNumber := "3.0", blVersionType := 1
  componentId := "package", versionPackageType := .normal }

/-- The component of the first one. -/
def firstPackage : FirmwareComponent := { nextPackage with
  url := "server/package", size := 1, fileName := "package", verifyInfo := "", versionNumber := "2.0"
  targetBlVersionNumber := "2.0", targetBlDisplayVersionNumber := "2.0" }

theorem firstPackage_accepted : Accepts .phoneTwice versionText [firstPackage] := by
  refine ⟨List.cons_ne_nil _ _, .netChanged 0 .noNet, .none, {}, ?_⟩
  exact Prog.ends_iff_run.mpr ⟨_, _, rfl, by decide⟩

theorem nextPackage_accepted : Accepts .phoneTwice nextVersionText [nextPackage] := by
  refine ⟨List.cons_ne_nil _ _, .netChanged 0 .noNet, .none, {}, ?_⟩
  exact Prog.ends_iff_run.mpr ⟨_, _, rfl, by decide⟩

/-- The two versions of the phone. -/
theorem version_digests_coincide_phone :
    (∃ digest, IsDigestOf .phoneTwice [firstPackage] digest ∧ IsDigestOf .phoneTwice [nextPackage] digest) ∧
      ∀ digest digest', IsDigestOf .phoneTwice [firstPackage] digest → IsDigestOf .phoneTwice [nextPackage] digest' →
        ¬ digest ≠ digest' :=
  version_digests_coincide .phoneTwice firstPackage_accepted nextPackage_accepted

/-- Two accepted responses that differ in everything, and one digest. -/
theorem superseded_version_has_same_digest :
    Accepts .phoneTwice versionText [firstPackage] ∧ Accepts .phoneTwice nextVersionText [nextPackage] ∧
      Differ [firstPackage] [nextPackage] ∧
      ∃ digest, IsDigestOf .phoneTwice [firstPackage] digest ∧ IsDigestOf .phoneTwice [nextPackage] digest := by
  refine ⟨firstPackage_accepted, nextPackage_accepted, ⟨0, firstPackage, nextPackage, rfl, rfl, .inl (by decide)⟩, ?_⟩
  refine ⟨FirmwareUpdateHelper.buildTaskId .phoneTwice [firstPackage], isDigestOf_buildTaskId (List.cons_ne_nil _ _), ?_⟩
  have hsame : FirmwareUpdateHelper.buildTaskId .phoneTwice [firstPackage] =
      FirmwareUpdateHelper.buildTaskId .phoneTwice [nextPackage] := buildTaskId_congr .phoneTwice rfl
  rw [hsame]
  exact isDigestOf_buildTaskId (List.cons_ne_nil _ _)

end UpdateEngine
