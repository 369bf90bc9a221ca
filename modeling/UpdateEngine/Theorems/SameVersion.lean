import Mathlib.Data.List.Perm.Basic
import UpdateEngine.Theorems.CheckFlow

/-!
# Whether a version is the stored one

A version from the server is compared with the stored one component by component, by the first row with the component's version id,
and the URLs of the server are then written by version id too. Both are right as long as a version id names one package.
-/

namespace UpdateEngine

open Concurrent AloneAux

namespace SameVersionAux

variable {P : Platform} {n : Thread} {a : Answer} {s : State} {rows l : List FirmwareComponent} {c : FirmwareComponent}

theorem isStoredVersion_iff : isStoredVersion rows l = true ↔ rows.length = l.length ∧ ∀ c ∈ l, c.isIn rows = true := by
  simp [isStoredVersion]

end SameVersionAux

/-- The URL a row has after the URLs of a list were written by version id: that of the last component with its version id. -/
def urlLeft (l : List FirmwareComponent) (r : FirmwareComponent) : String :=
  ((l.filter fun c => c.versionId = r.versionId).getLast?.map (·.url)).getD r.url

namespace SameVersionAux

open CheckFlowAux

variable {P : Platform} {n : Thread} {a : Answer} {s : State} {rows l : List FirmwareComponent}

/-- What writing the URLs of a list makes of a row. -/
theorem foldl_apply_url (l : List FirmwareComponent) (r : FirmwareComponent) :
    l.foldl (fun r c => ComponentUpdate.apply r (.urlByVersionId c.versionId c.url)) r = { r with url := urlLeft l r } := by
  induction l generalizing r with
  | nil => rfl
  | cons c l ih =>
    rw [List.foldl_cons]
    by_cases hid : r.versionId = c.versionId
    · have happly : ComponentUpdate.apply r (.urlByVersionId c.versionId c.url) = { r with url := c.url } := if_pos hid
      have hurl : urlLeft (c :: l) r = urlLeft l { r with url := c.url } := by
        unfold urlLeft
        rw [List.filter_cons_of_pos (by simpa using hid.symm), List.getLast?_cons]
        cases (l.filter fun c => c.versionId = r.versionId).getLast? with
        | none => rfl
        | some last => rfl
      rw [happly, ih, hurl]
    · have happly : ComponentUpdate.apply r (.urlByVersionId c.versionId c.url) = r := if_neg hid
      have hurl : urlLeft (c :: l) r = urlLeft l r := by
        unfold urlLeft
        rw [List.filter_cons_of_neg (by simpa using fun h => hid h.symm)]
      rw [happly, ih, hurl]

/-- The rows once the URLs of a list that is judged the stored version were written: while the task says that the check succeeded. -/
def rowsAfter (status : Option UpgradeStatus) (l rows : List FirmwareComponent) : List FirmwareComponent :=
  if status = some .checkVersionSuccess then rows.map fun r => { r with url := urlLeft l r } else rows

theorem updateFirmwareComponent_ends_rows (hs : s.stopped = false) :
    (FirmwareCheckDataProcessor.updateFirmwareComponent l).Ends (n.alone a) s fun _ s' =>
      s'.bare = withRows s.bare (rowsAfter s.status l s.components) := by
  have hloop (l : List FirmwareComponent) {s : State} (hs : s.stopped = false) : Prog.Ends (n.alone a)
      (l.forM fun c => call (.updateComponents .updateFirmwareComponent (.urlByVersionId c.versionId c.url))) s fun _ s' =>
        s'.bare = withRows s.bare (s.components.map fun r =>
          l.foldl (fun r c => ComponentUpdate.apply r (.urlByVersionId c.versionId c.url)) r) := by
    induction l generalizing s with
    | nil =>
      show s.bare = withRows s.bare (s.components.map id)
      rw [List.map_id]
      rfl
    | cons c l ih =>
      refine ends_via hs rfl
        (withRows s.bare (s.components.map fun r => ComponentUpdate.apply r (.urlByVersionId c.versionId c.url))) rfl ?_
      intro s₁ h₁
      refine (ih (not_stopped h₁ hs)).mono ?_
      intro _ s' h
      rw [h, h₁, (components_eq h₁ :)]
      exact congrArg (withRows s.bare) (List.map_map ..)
  refine Prog.Ends.seq (queryTask_ends hs _ _) ?_
  rintro _ s₁ ⟨rfl, h₁⟩
  have hkept (hne : s.status ≠ some .checkVersionSuccess) : s₁.bare = withRows s.bare (rowsAfter s.status l s.components) := by
    rw [rowsAfter, if_neg hne, h₁]
    rfl
  cases ht : s.tasks with
  | nil => exact hkept (by simp [State.status, ht])
  | cons t tasks =>
    have hstatus : s.status = some t.status := by simp [State.status, ht]
    change Prog.Ends _ (if t.status ≠ .checkVersionSuccess then _ else _) s₁ _
    by_cases hsuccess : t.status = .checkVersionSuccess
    · rw [if_neg (not_not.mpr hsuccess)]
      refine (hloop l (not_stopped h₁ hs)).mono ?_
      intro _ s' h
      rw [rowsAfter, if_pos (by rw [hstatus, hsuccess]), h, h₁, (components_eq h₁ :)]
      exact congrArg (withRows s.bare) (List.map_congr_left fun r _ => foldl_apply_url l r)
    · rw [if_pos hsuccess]
      exact hkept (by simpa [hstatus] using hsuccess)

/-- A list that is judged the stored version has its URLs written, and nothing else is changed. -/
theorem handleNewVersion_ends_rows (hs : s.stopped = false) (hl : isStoredVersion s.components l = true) :
    (FirmwareCheckDataProcessor.handleNewVersion P l).Ends (n.alone a) s fun _ s' =>
      s'.bare = withRows (s.bare.setFlow n.flow (.isSameWithDb true)) (rowsAfter s.status l s.components) := by
  refine Prog.Ends.seq (isVersionSameWithDb_ends hs) ?_
  rintro _ s₁ ⟨rfl, h₁⟩
  rw [hl]
  refine ends_via (not_stopped h₁ hs) rfl (s₁.bare.setFlow n.flow (.isSameWithDb true)) rfl ?_
  intro s₂ h₂
  rw [h₁] at h₂
  have hstatus : s₂.status = s.status := by
    rw [State.status, State.status, (tasks_eq h₂ :)]
    rfl
  refine (updateFirmwareComponent_ends_rows (not_stopped h₂ hs)).mono ?_
  intro _ s' h
  rw [h, h₂, hstatus, (components_eq h₂ :)]
  rfl

end SameVersionAux

end UpdateEngine
