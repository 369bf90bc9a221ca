import Mathlib.Data.List.Induction
import Mathlib.Tactic.Linarith
import UpdateEngine.Theorems.Sizes

/-!
# The space a download requires

`FirmwareDownloadDataProcessor::IsSpaceEnough` adds up what is left of each package. A package has a size of 32 bits with a sign, as
the analyser reads it: no product leaves 64 bits, but a part can be negative, and such a part makes the sum smaller.
-/

namespace UpdateEngine

open FirmwareDownloadDataProcessor

/-- What is left of a package, exactly. -/
def FirmwareComponent.required (c : FirmwareComponent) : Int := ((100 - c.progress.toInt) * c.size.toInt).tdiv 100

/-- What is left of all packages, exactly. -/
def exactTotalSize (components : List FirmwareComponent) : Int := (components.map (·.required)).sum

/-- The components are recorded for those that were found: their sizes are kept, and the progress of each is a percentage. -/
def RecordedFor (found components : List FirmwareComponent) : Prop :=
  List.Forall₂ (fun c c' => c'.size = c.size ∧ 0 ≤ c'.progress.toInt ∧ c'.progress.toInt ≤ 100) found components

/-- Nothing on the way to the sum leaves its type. -/
structure NoOverflow (components : List FirmwareComponent) : Prop where
  difference : ∀ c ∈ components, (100 - c.progress).toInt = 100 - c.progress.toInt
  product : ∀ c ∈ components, ((100 - c.progress).toInt64 * c.size).toInt = (100 - c.progress.toInt) * c.size.toInt
  total : ∀ pre, pre <+: components → (requireTotalSize pre).toInt = exactTotalSize pre

/-- The space that is required is a number of bytes, which no component and no part that is left makes smaller. -/
structure SpaceSound (components : List FirmwareComponent) : Prop where
  noOverflow : NoOverflow components
  nonneg : 0 ≤ (requireTotalSize components).toInt
  added : ∀ a c b, components = a ++ c :: b →
    NoOverflow (a ++ b) ∧ (requireTotalSize (a ++ b)).toInt ≤ (requireTotalSize components).toInt
  lowered : ∀ a c b progress, components = a ++ c :: b → c.progress.toInt ≤ progress.toInt → progress.toInt ≤ 100 →
    NoOverflow (a ++ { c with progress := progress } :: b) ∧
      (requireTotalSize (a ++ { c with progress := progress } :: b)).toInt ≤ (requireTotalSize components).toInt

namespace SpaceAux

/-- A component with a size of 32 bits and a percentage as its progress. -/
structure Small (c : FirmwareComponent) : Prop where
  size_ge : -2 ^ 31 ≤ c.size.toInt
  size_lt : c.size.toInt < 2 ^ 31
  progress_ge : 0 ≤ c.progress.toInt
  progress_le : c.progress.toInt ≤ 100

variable {c : FirmwareComponent} {components : List FirmwareComponent}

/-- A number that 64 bits hold is what they hold. -/
theorem bmod_of_bounds {n : Int} (hlow : -2 ^ 63 ≤ n) (hhigh : n < 2 ^ 63) : n.bmod (2 ^ 64) = n := by
  rw [Int.bmod_def]
  omega

/-- A division that rounds towards zero. -/
theorem tdiv_hundred (n : Int) : n.tdiv 100 = if 0 ≤ n then n / 100 else -(-n / 100) := by
  split
  · exact Int.tdiv_eq_ediv_of_nonneg ‹_›
  · rw [← Int.tdiv_eq_ediv_of_nonneg (by omega), Int.neg_tdiv, Int.neg_neg]

theorem Small.difference (h : Small c) : (100 - c.progress).toInt = 100 - c.progress.toInt := by
  have hge := h.progress_ge
  have hle := h.progress_le
  have h100 : (100 : Int32).toInt = 100 := rfl
  rw [Int32.toInt_sub, h100, Int.bmod_def]
  omega

theorem Small.product_bounds (h : Small c) :
    -(100 * 2 ^ 31) ≤ (100 - c.progress.toInt) * c.size.toInt ∧ (100 - c.progress.toInt) * c.size.toInt ≤ 100 * 2 ^ 31 := by
  have hge := h.progress_ge
  have hle := h.progress_le
  have hlow := h.size_ge
  have hhigh := h.size_lt
  constructor <;> nlinarith

theorem Small.product (h : Small c) :
    ((100 - c.progress).toInt64 * c.size).toInt = (100 - c.progress.toInt) * c.size.toInt := by
  obtain ⟨hlow, hhigh⟩ := h.product_bounds
  rw [Int64.toInt_mul, Int32.toInt_toInt64, h.difference]
  exact bmod_of_bounds (by omega) (by omega)

theorem Small.required_bounds (h : Small c) : -2 ^ 31 ≤ c.required ∧ c.required ≤ 2 ^ 31 := by
  obtain ⟨hlow, hhigh⟩ := h.product_bounds
  rw [FirmwareComponent.required, tdiv_hundred]
  split <;> omega

/-- The part that is added for a component. -/
theorem Small.part (h : Small c) : ((100 - c.progress).toInt64 * c.size / 100).toInt = c.required := by
  obtain ⟨hlow, hhigh⟩ := h.required_bounds
  have h100 : (100 : Int64).toInt = 100 := rfl
  rw [Int64.toInt_div, h.product, h100]
  exact bmod_of_bounds (by rw [← FirmwareComponent.required]; omega) (by rw [← FirmwareComponent.required]; omega)

theorem requireTotalSize_append (l : List FirmwareComponent) (c : FirmwareComponent) :
    requireTotalSize (l ++ [c]) = requireTotalSize l + (100 - c.progress).toInt64 * c.size / 100 := by
  simp [requireTotalSize]

theorem exactTotalSize_append (l l' : List FirmwareComponent) : exactTotalSize (l ++ l') = exactTotalSize l + exactTotalSize l' := by
  simp [exactTotalSize]

theorem exactTotalSize_cons (c : FirmwareComponent) (l : List FirmwareComponent) :
    exactTotalSize (c :: l) = c.required + exactTotalSize l := by
  simp [exactTotalSize]

/-- The sum is exact as long as it is one that 64 bits hold: by induction on the last component. -/
theorem noOverflow_iff (h : ∀ c ∈ components, Small c) :
    NoOverflow components ↔ ∀ pre, pre <+: components → -2 ^ 63 ≤ exactTotalSize pre ∧ exactTotalSize pre < 2 ^ 63 := by
  constructor
  · intro hexact pre hpre
    rw [← hexact.total pre hpre]
    exact ⟨Int64.le_toInt _, Int64.toInt_lt _⟩
  · intro hbounds
    refine ⟨fun c hc => (h c hc).difference, fun c hc => (h c hc).product, ?_⟩
    intro pre hpre
    induction pre using List.reverseRecOn with
    | nil => rfl
    | append_singleton pre c ih =>
      have hc : Small c := h c (hpre.subset (by simp))
      obtain ⟨hlow, hhigh⟩ := hbounds _ hpre
      have hpart := hc.part
      have hlast : exactTotalSize (pre ++ [c]) = exactTotalSize pre + c.required := by simp [exactTotalSize]
      rw [hlast] at hlow hhigh ⊢
      rw [requireTotalSize_append, Int64.toInt_add, ih ((List.prefix_append _ _).trans hpre), hpart]
      exact bmod_of_bounds hlow hhigh

/-- Parts that are not negative make no sum negative, and no part of a sum larger than the sum. -/
theorem exactTotalSize_nonneg (h : ∀ c ∈ components, 0 ≤ c.required) : 0 ≤ exactTotalSize components := by
  induction components with
  | nil => exact Int.le_refl 0
  | cons c l ih =>
    have hc := h c (List.mem_cons_self ..)
    have hl := ih fun c' hc' => h c' (List.mem_cons_of_mem _ hc')
    rw [exactTotalSize_cons]
    omega

theorem noOverflow_of_nonneg (h : ∀ c ∈ components, Small c) (hparts : ∀ c ∈ components, 0 ≤ c.required)
    (hlt : exactTotalSize components < 2 ^ 63) : NoOverflow components := by
  refine (noOverflow_iff h).mpr ?_
  rintro pre ⟨post, rfl⟩
  have hpre := exactTotalSize_nonneg fun c hc => hparts c (List.mem_append_left _ hc)
  have hpost := exactTotalSize_nonneg fun c hc => hparts c (List.mem_append_right _ hc)
  rw [exactTotalSize_append] at hlt
  omega

/-- What is left is not negative, up to what rounding takes away. -/
theorem required_nonneg_iff : 0 ≤ c.required ↔ -100 < (100 - c.progress.toInt) * c.size.toInt := by
  rw [FirmwareComponent.required, tdiv_hundred]
  split <;> omega

/-- The progress makes what is left smaller. -/
theorem required_lowered (hc : 0 ≤ c.required) {progress : Int32} (hle : c.progress.toInt ≤ progress.toInt)
    (hmax : progress.toInt ≤ 100) :
    0 ≤ { c with progress := progress }.required ∧ { c with progress := progress }.required ≤ c.required := by
  have hproduct := required_nonneg_iff.mp hc
  have hfactor : 0 ≤ 100 - progress.toInt ∧ 100 - progress.toInt ≤ 100 - c.progress.toInt := by omega
  obtain ⟨hnonneg, hfactor⟩ := hfactor
  rcases Int.le_total 0 c.size.toInt with hsize | hsize
  · have hlow : 0 ≤ (100 - progress.toInt) * c.size.toInt := Int.mul_nonneg hnonneg hsize
    have hhigh : (100 - progress.toInt) * c.size.toInt ≤ (100 - c.progress.toInt) * c.size.toInt :=
      Int.mul_le_mul_of_nonneg_right hfactor hsize
    simp only [FirmwareComponent.required, tdiv_hundred]
    rw [if_pos hlow, if_pos (by omega)]
    omega
  · -- a size that is negative leaves nothing, or less than a byte
    have hlow : (100 - c.progress.toInt) * c.size.toInt ≤ (100 - progress.toInt) * c.size.toInt :=
      Int.mul_le_mul_of_nonpos_right hfactor hsize
    have hhigh : (100 - progress.toInt) * c.size.toInt ≤ 0 := Int.mul_nonpos_of_nonneg_of_nonpos hnonneg hsize
    simp only [FirmwareComponent.required, tdiv_hundred]
    split <;> split <;> omega

/-- A component with a higher progress is one of the kind. -/
theorem Small.lowered (h : Small c) {progress : Int32} (hle : c.progress.toInt ≤ progress.toInt) (hmax : progress.toInt ≤ 100) :
    Small { c with progress := progress } :=
  ⟨h.size_ge, h.size_lt, Int.le_trans h.progress_ge hle, hmax⟩

/-- For components of 32 bits, the sum is sound exactly when no part is negative and 64 bits hold it. -/
theorem spaceSound_iff (h : ∀ c ∈ components, Small c) :
    SpaceSound components ↔ (∀ c ∈ components, 0 ≤ c.required) ∧ exactTotalSize components < 2 ^ 63 := by
  constructor
  · intro hsound
    have hexact := hsound.noOverflow.total components (List.prefix_refl _)
    refine ⟨?_, by rw [← hexact]; exact Int64.toInt_lt _⟩
    intro c hc
    obtain ⟨a, b, rfl⟩ := List.append_of_mem hc
    obtain ⟨hover, hle⟩ := hsound.added a c b rfl
    rw [hexact, hover.total _ (List.prefix_refl _), exactTotalSize_append, exactTotalSize_append, exactTotalSize_cons] at hle
    omega
  · rintro ⟨hparts, hlt⟩
    have hover := noOverflow_of_nonneg h hparts hlt
    have hexact := hover.total components (List.prefix_refl _)
    have hsmaller (l : List FirmwareComponent) (hl : ∀ c ∈ l, Small c ∧ 0 ≤ c.required)
        (hle : exactTotalSize l ≤ exactTotalSize components) :
        NoOverflow l ∧ (requireTotalSize l).toInt ≤ (requireTotalSize components).toInt := by
      have hover' := noOverflow_of_nonneg (fun c hc => (hl c hc).1) (fun c hc => (hl c hc).2) (Int.lt_of_le_of_lt hle hlt)
      rw [hover'.total l (List.prefix_refl _), hexact]
      exact ⟨hover', hle⟩
    refine ⟨hover, hexact ▸ exactTotalSize_nonneg hparts, ?_, ?_⟩
    · rintro a c b rfl
      refine hsmaller (a ++ b) ?_ ?_
      · intro c' hc'
        have hmem : c' ∈ a ++ c :: b := by simp at hc' ⊢; tauto
        exact ⟨h c' hmem, hparts c' hmem⟩
      · have hc := hparts c (by simp)
        rw [exactTotalSize_append, exactTotalSize_append, exactTotalSize_cons]
        omega
    · rintro a c b progress rfl hle hmax
      have hc := hparts c (by simp)
      obtain ⟨hnonneg, hless⟩ := required_lowered hc hle hmax
      refine hsmaller (a ++ { c with progress := progress } :: b) ?_ ?_
      · intro c' hc'
        by_cases hnew : c' = { c with progress := progress }
        · rw [hnew]
          exact ⟨(h c (by simp)).lowered hle hmax, hnonneg⟩
        · have hmem : c' ∈ a ++ c :: b := by simp [hnew] at hc' ⊢; tauto
          exact ⟨h c' hmem, hparts c' hmem⟩
      · rw [exactTotalSize_append, exactTotalSize_append, exactTotalSize_cons, exactTotalSize_cons]
        omega

open FirmwareCheckAnalyzeUtils AnalysisAux

/-- The size of every component that is found has been cast to 32 bits. -/
theorem size_of_analyzed {P : Platform} {rawJson : String} (hc : c ∈ analyzed P rawJson) : ∃ n : Int32, c.size = n.toInt64 := by
  have hfound (root : Json) (hc : c ∈ (found P root).2) : ∃ n : Int32, c.size = n.toInt64 := by
    unfold found at hc
    cases hresults : root.find "checkResults" with
    | none => simp [hresults] at hc
    | some checkResults =>
      have hmem : c ∈ (checkResults.items.map (analyzeComponent P)).map Prod.snd := by
        cases hinfos : root.find "descriptInfo" <;> simpa [hresults, hinfos] using hc
      rw [List.map_map] at hmem
      obtain ⟨j, -, rfl⟩ := List.mem_map.mp hmem
      exact ⟨_, rfl⟩
  unfold analyzed at hc
  split at hc
  · cases hc
  · split at hc
    · cases hc
    · split at hc
      · exact hfound _ hc
      · cases hc

/-- Components that are recorded for some of 32 bits. -/
theorem small_of_recorded {found : List FirmwareComponent} (h : RecordedFor found components)
    (hsize : ∀ c ∈ found, ∃ n : Int32, c.size = n.toInt64) : ∀ c ∈ components, Small c := by
  induction h with
  | nil =>
    intro c hc
    cases hc
  | cons hrow _ ih =>
    obtain ⟨n, hn⟩ := hsize _ (List.mem_cons_self ..)
    obtain ⟨hsame, hge, hle⟩ := hrow
    intro c hc
    rcases List.mem_cons.mp hc with rfl | hc
    · rw [hn] at hsame
      exact ⟨by rw [hsame, Int32.toInt_toInt64]; exact Int32.le_toInt n,
        by rw [hsame, Int32.toInt_toInt64]; exact Int32.toInt_lt n, hge, hle⟩
    · exact ih (fun c' hc' => hsize c' (List.mem_cons_of_mem _ hc')) c hc

end SpaceAux

open SpaceAux

/-- For the components of a response, with any percentages recorded, the space that is required is a sound number of bytes exactly
when no package has a negative part that is left (up to less than a byte) and 64 bits hold the sum. -/
theorem required_space_iff (P : Platform) (rawJson : String) {found components : List FirmwareComponent}
    (hfound : (FirmwareCheckAnalyzeUtils.doAnalyze P rawJson).Returns (· = found)) (hrecorded : RecordedFor found components) :
    SpaceSound components ↔
      (∀ c ∈ components, -100 < (100 - c.progress.toInt) * c.size.toInt) ∧ exactTotalSize components < 2 ^ 63 := by
  have hanalyzed : AnalysisAux.analyzed P rawJson = found := (AnalysisAux.doAnalyze_returns_iff rawJson).mp hfound
  subst hanalyzed
  rw [spaceSound_iff (small_of_recorded hrecorded fun c hc => size_of_analyzed hc)]
  simp only [required_nonneg_iff]

/-- The package of the phone, half of it downloaded. -/
def halfDownloaded : List FirmwareComponent := [{ url := "server/package", size := 1, progress := 50 }]

theorem required_space_iff_phone :
    SpaceSound halfDownloaded ↔
      (∀ c ∈ halfDownloaded, -100 < (100 - c.progress.toInt) * c.size.toInt) ∧ exactTotalSize halfDownloaded < 2 ^ 63 := by
  have hfound : (FirmwareCheckAnalyzeUtils.doAnalyze .phone versionText).Returns
      (· = AnalysisAux.analyzed .phone versionText) := (AnalysisAux.doAnalyze_returns_iff versionText).mpr rfl
  exact required_space_iff .phone versionText hfound (List.Forall₂.cons ⟨rfl, by decide, by decide⟩ List.Forall₂.nil)

/-- The package of 3 GB: the space that is required for it is negative. -/
theorem required_space_negative :
    (FirmwareCheckAnalyzeUtils.doAnalyze largePhone "").Returns (fun found => RecordedFor found [{ size := -1294967296 }]) ∧
      ¬ SpaceSound [{ size := -1294967296 }] := by
  refine ⟨(AnalysisAux.doAnalyze_returns_iff "").mpr (List.Forall₂.cons ⟨rfl, by decide, by decide⟩ List.Forall₂.nil), ?_⟩
  intro h
  exact absurd h.nonneg (by decide)

end UpdateEngine
