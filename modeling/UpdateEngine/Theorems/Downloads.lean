import UpdateEngine.Lemmas.Guard

/-!
# One download at a time

A download is accepted from the status stored in the task row, and the row becomes `DOWNLOADING` only with the first progress of its
thread. Two requests in between are both accepted.
-/

namespace UpdateEngine

open Concurrent StepAux FlowsAux

/-- Downloads start from the statuses `FirmwareDownloadMode` accepts. -/
def downloadGuard : Guard where
  kind := .download
  opens := UpgradeStatus.isDownloadable
  not_check := nofun
  mode := fun n c t hn hc ht => by
    rcases hc with ⟨rfl, -⟩ | ⟨o, rfl, ho⟩
    · exact ht
    · cases n with
      | upgrade f o' =>
        simp only [Thread.kind] at hn
        split at hn
        · cases hn
        · split at hn <;> cases hn
      | delayInit f reason => cases hn
      | _ => cases ho
  recovery := nofun

/-- A thread that carries a download out. -/
def Thread.downloads (n : Thread) : Bool := n.isDownloadExecutor || n.isDownloadThread

/-- The threads that carry downloads out belong to one flow, and a new executor is started for no other flow. -/
structure OneDownload (c : Config) : Prop where
  running : ∀ n m, c.live n = true → n.downloads = true → c.live m = true → m.downloads = true → n.flow = m.flow
  starting : ∀ n f o, c.next n = some (.spawn (.downloadExecutor f o)) → ∀ m, c.live m = true → m.downloads = true → m.flow = f

namespace DownloadsAux

theorem kind_of_downloads {n : Thread} (h : n.downloads = true) : n.kind = .download := by
  cases n <;> first | rfl | cases h

theorem engaged_of_downloads {n : Thread} {r : Role} (hp : plays n r = true) (h : n.downloads = true) :
    Guard.engaged r = true := by
  cases n <;> cases r <;> first | rfl | exact (Bool.false_ne_true h).elim | exact (Bool.false_ne_true hp).elim

/-- A thread that starts a download executor is an accepted request for its flow. -/
theorem of_spawns {P : Platform} {n : Thread} {r : Role} {f : Nat} {o : DownloadOptions}
    (ha : Outline.allowed P n r (.spawn (.downloadExecutor f o))) :
    n.flow = f ∧ n.kind = .download ∧ Guard.engaged r = true := by
  obtain ⟨hf, -, -, -, -, hk⟩ := spawns_cases ha
  refine ⟨hf.symm, hk.symm, ?_⟩
  rcases ha with ⟨rfl, -⟩ | ⟨_, _, _, _, _, _, -, rfl, -⟩ <;> rfl

end DownloadsAux

open DownloadsAux in
/-- On every run on which the guard of downloads is kept, one download is active at a time. -/
theorem one_download (P : Platform) (d : Store) {c : Config}
    (h : Reach (machine P) (fun c a => downloadGuard.kept c a = true) d.boot c) : OneDownload c := by
  obtain ⟨ρ, hρ, hF, hJ⟩ := (downloadGuard.invariant P d).holds h
  have hrole {n : Thread} (hn : c.live n = true) (hd : n.downloads = true) :
      ∃ r, ρ n = some r ∧ n.kind = .download ∧ Guard.engaged r = true := by
    obtain ⟨r, hr⟩ := Option.isSome_iff_exists.mp ((hρ.live_iff n).mp hn)
    exact ⟨r, hr, kind_of_downloads hd, engaged_of_downloads (hF.plays n r hr) hd⟩
  refine ⟨fun n m hn hnd hm hmd => ?_, fun n f o hn m hm hmd => ?_⟩
  · obtain ⟨r, hr, hk, he⟩ := hrole hn hnd
    obtain ⟨r', hr', hk', he'⟩ := hrole hm hmd
    exact hJ.one n r m r' hr hk he hr' hk' he'
  · obtain ⟨r, hr, ha⟩ := hρ.allowed hn
    have ha : Outline.allowed P n r (.spawn (.downloadExecutor f o)) := ha
    obtain ⟨rfl, hk, he⟩ := of_spawns ha
    obtain ⟨r', hr', hk', he'⟩ := hrole hm hmd
    exact hJ.one m r' n r hr' hk' he' hr hk he

/-- A version with one package has been found. -/
def oneFound : Store where
  tasks := [{ taskId := "task", status := .checkVersionSuccess }]
  components := [{ url := "url", spath := "/data/package", size := 2, status := .checkVersionSuccess }]

/-- A request to download is accepted and comes to start its executor. -/
def downloadAccepted (f : Nat) : List Action :=
  .start (.download f {}) :: Thread.steps (.download f {}) 6 ++ .run (.download f {}) (.space 10) ::
    Thread.steps (.download f {}) 1

/-- The executor starts, and the thread of the only package. -/
def downloadRunning (f : Nat) : List Action :=
  Thread.steps (.download f {}) 1 ++ Thread.steps (.downloadExecutor f {}) 6 ++
    .run (.downloadExecutor f {}) (.bool true) :: Thread.steps (.downloadExecutor f {}) 2

/-- One request is downloaded. -/
theorem one_download_alone : ∃ c, Reach (machine .device) (fun c a => downloadGuard.kept c a = true) oneFound.boot c ∧
    c.live (.downloadThread 1 {} 0 "/data/package" "url") = true ∧ OneDownload c := by
  have h : ((machine .device).follow downloadGuard.kept (connected ++ downloadAccepted 1 ++ downloadRunning 1)
      oneFound.boot).any (fun c => c.live (.downloadThread 1 {} 0 "/data/package" "url")) = true := by decide
  obtain ⟨c, hc, hp⟩ := Reach.exists_of_follow h
  exact ⟨c, hc, hp, one_download .device oneFound hc⟩

/-- Two requests that are accepted before the first progress of the first one both start their executor. -/
theorem two_downloads : ¬ ∀ c, Reach (machine .device) (fun _ _ => True) oneFound.boot c → OneDownload c := by
  intro hall
  have h : ((machine .device).follow (fun _ _ => true) (connected ++ downloadAccepted 1 ++ downloadRunning 1 ++
      downloadAccepted 2 ++ downloadRunning 2) oneFound.boot).any (fun c =>
        c.live (.downloadThread 1 {} 0 "/data/package" "url") && c.live (.downloadThread 2 {} 0 "/data/package" "url")) =
      true := by decide
  obtain ⟨c, hc, hp⟩ := Reach.exists_of_follow h
  simp only [Bool.and_eq_true] at hp
  exact absurd ((hall c (hc.mono fun _ _ _ => trivial)).running _ _ hp.1 rfl hp.2 rfl) (by decide)

end UpdateEngine
