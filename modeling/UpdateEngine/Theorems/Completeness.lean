import UpdateEngine.Firmware.Lives
import UpdateEngine.Lemmas.SoloAux
import UpdateEngine.Theorems.Downloads

/-!
# A download of several components

The progress of each component goes to the row of the task, which all components share. The first one that is downloaded makes the
task `DOWNLOAD_SUCCESS`, whatever becomes of the others.
-/

namespace UpdateEngine

open Concurrent StepAux FlowsAux

/-- Whether an operation marks the task of its flow as downloaded. -/
def Op.marksDownloaded : Op → Bool
  | .updateTasks .downloadCallback _ (.progress .downloadSuccess _) => true
  | _ => false

/-- A download marks its task as downloaded only when the package of every component that its executor has read is complete and was
accepted. -/
def MarksWhole (c : Config) : Prop :=
  ∀ n o, c.next n = some o → o.marksDownloaded = true → ∀ component ∈ (c.state.flows n.flow).components,
    component.spath ∈ (c.state.journals n.flow).complete ∧ component.spath ∈ (c.state.journals n.flow).accepted

/-- A worker that writes the task row has written the component row before. -/
theorem SoloAux.written_of_records {r : Role} {s : UpgradeStatus} (h : r.records .downloadCallback s) :
    ∃ w v, r = .download w ∧ w.phase = .written s v := by
  cases r with
  | download w =>
    rcases h with ⟨-, v, hv⟩ | ⟨hc, -⟩
    · exact ⟨w, v, rfl, hv⟩
    · cases hc
  | recovering | applying => cases h.1
  | installed => rcases h.1 with hc | hc | hc <;> cases hc
  | install components =>
    cases components with
    | none => cases h
    | some l => rcases h.1 with hc | hc | hc <;> cases hc
  | _ => cases h

/-- On every run on which executors find one component at most, tasks are marked as downloaded only with all of their packages. -/
theorem marks_whole (P : Platform) (d : Store) {c : Config} (h : Reach (machine P) (fun c a => singleKept c a = true) d.boot c) :
    MarksWhole c := by
  obtain ⟨ρ, hρ, -, hJ⟩ := (SoloAux.invariant P d).holds h
  intro n o hn hmarks component hcomponent
  obtain ⟨r, hr, ha⟩ := hρ.allowed hn
  have hwritten : ∃ w v, r = .download w ∧ w.phase = .written .downloadSuccess v := by
    cases o with
    | updateTasks caller i u =>
      cases u with
      | progress status percent =>
        cases caller with
        | downloadCallback => cases status <;> first | exact SoloAux.written_of_records ha | cases hmarks
        | _ => cases hmarks
      | _ => cases caller <;> cases hmarks
    | _ => cases hmarks
  obtain ⟨w, verdict, rfl, hphase⟩ := hwritten
  have hreports := hJ.reports n w hr
  rw [hphase] at hreports
  obtain ⟨hcomplete, path, v, -, hpath, haccepted⟩ := hreports rfl
  have hown := hJ.own n w hr
  rw [hown.package path hpath component hcomponent]
  exact ⟨hown.complete hcomplete path hpath, haccepted⟩

/-- A version with two packages has been found. -/
def twoFound : Store where
  tasks := [{ taskId := "task", status := .checkVersionSuccess }]
  components := [{ url := "first", spath := "/data/first", size := 1, status := .checkVersionSuccess },
    { url := "second", spath := "/data/second", size := 1, status := .checkVersionSuccess }]

/-- A download is accepted, and the thread of its first component comes to mark the task. -/
def marksFirst (t : Thread) : List (Thread × Nat) :=
  [(.netChanged 0 .notMeteredWifi, 6), (.download 1 {}, 10), (.downloadExecutor 1 {}, 9), (t, 15)]

/-- A package is downloaded and marks its task. -/
theorem marks_whole_single : ∃ c, Reach (machine .device) (fun c a => singleKept c a = true) oneFound.boot c ∧
    (c.next (.downloadThread 1 {} 0 "/data/package" "url")).any Op.marksDownloaded = true ∧ MarksWhole c := by
  have h : ((machine .device).follow singleKept ((machine .device).turns favourable
      (turnsOf (marksFirst (.downloadThread 1 {} 0 "/data/package" "url"))) oneFound.boot) oneFound.boot).any (fun c =>
        (c.next (.downloadThread 1 {} 0 "/data/package" "url")).any Op.marksDownloaded) = true := by decide
  obtain ⟨c, hc, hp⟩ := Reach.exists_of_follow h
  exact ⟨c, hc, hp, marks_whole .device oneFound hc⟩

/-- Of two packages the first marks the task while the second has not been started. -/
theorem marked_by_first : ¬ ∀ c, Reach (machine .device) (fun _ _ => True) twoFound.boot c → MarksWhole c := by
  intro hall
  have h : ((machine .device).follow (fun _ _ => true) ((machine .device).turns favourable
      (turnsOf (marksFirst (.downloadThread 1 {} 0 "/data/first" "first"))) twoFound.boot) twoFound.boot).any (fun c =>
        (c.next (.downloadThread 1 {} 0 "/data/first" "first")).any Op.marksDownloaded &&
        (c.state.flows 1).components.any fun component => component.spath ∉ (c.state.journals 1).complete) = true := by
    decide
  obtain ⟨c, hc, hp⟩ := Reach.exists_of_follow h
  simp only [Bool.and_eq_true, List.any_eq_true, decide_eq_true_eq] at hp
  obtain ⟨hmarks, component, hcomponent, hmissing⟩ := hp
  obtain ⟨o, ho, hmarks⟩ := (Option.any_eq_true ..).mp hmarks
  exact hmissing (hall c (hc.mono fun _ _ _ => trivial) _ o ho hmarks component hcomponent).1

end UpdateEngine
