import UpdateEngine.Lemmas.Guard

/-!
# Installations

An installation is accepted from `DOWNLOAD_SUCCESS`, and its executor writes another status later; `isInstalling_` is a field of an
installer that every flow makes anew. Two requests in between are both accepted and both enter their installer.
-/

namespace UpdateEngine

open Concurrent StepAux FlowsAux

/-- Installations start from a finished download. -/
def installGuard : Guard where
  kind := .install
  opens := fun s => s = .downloadSuccess
  not_check := nofun
  mode := fun n c t hn hc ht => by
    rcases hc with ⟨rfl, hd⟩ | ⟨o, rfl, ho⟩
    · cases n <;> first | (cases hd; done) | cases hn
    · have hinstall : o = .install ∨ o = .installAndApply := by
        cases n with
        | upgrade f o' =>
          obtain rfl : o'.order = o := Option.some.inj ho
          simp only [Thread.kind] at hn
          split at hn
          · rename_i hor
            simpa only [Bool.or_eq_true, decide_eq_true_eq] using hor
          · split at hn <;> cases hn
        | delayInit f reason => exact .inr (Option.some.inj ho).symm
        | _ => cases ho
      simpa [Caller.admits, hinstall] using ht
  recovery := fun _ => rfl

/-- An installer is entered only when the one of no other flow is running. -/
def OneInstall (c : Config) : Prop :=
  ∀ n l, c.next n = some (.enter (.performInstall l)) → ∀ f, f ≠ n.flow → (c.state.journals f).performing = false

/-- On every run on which the guard of installations is kept, one installer is running at a time. -/
theorem one_install (P : Platform) (d : Store) {c : Config}
    (h : Reach (machine P) (fun c a => installGuard.kept c a = true) d.boot c) : OneInstall c := by
  obtain ⟨ρ, hρ, hF, hJ⟩ := (installGuard.invariant P d).holds h
  intro n l hn f hf
  obtain ⟨r, hr, ha⟩ := hρ.allowed hn
  obtain rfl : r = .install (some l) := ha
  have hk : n.kind = .install := by
    have hp := hF.plays n _ hr
    cases n <;> first | rfl | cases hp
  by_contra hp
  obtain ⟨m, given, hm, rfl⟩ := hF.performing f (by simpa using hp)
  exact hf (hJ.one m _ n _ hm (kind_of_performing (hF.plays m _ hm)) rfl hr hk rfl)

/-- One package has been downloaded. -/
def oneDownloaded : Store where
  tasks := [{ taskId := "task", status := .downloadSuccess }]
  components := [{ url := "url", spath := "/data/package", size := 1, status := .downloadSuccess }]
  files := fun path => if path = "/data/package" then some [0] else none

/-- A request to install is accepted and starts its executor. -/
def installAccepted (f : Nat) : List Action :=
  .start (.upgrade f {}) :: Thread.steps (.upgrade f {}) 6 ++ .run (.upgrade f {}) (.space 1000000000) ::
    Thread.steps (.upgrade f {}) 5

/-- One request is installed. -/
theorem one_install_alone : ∃ c, Reach (machine .device) (fun c a => installGuard.kept c a = true) oneDownloaded.boot c ∧
    (c.state.journals 0).performing = true ∧ OneInstall c := by
  have h : ((machine .device).follow installGuard.kept (installAccepted 0 ++ Thread.steps (.installExecutor 0 {} .sysInstaller) 10)
      oneDownloaded.boot).any (fun c => (c.state.journals 0).performing) = true := by decide
  obtain ⟨c, hc, hp⟩ := Reach.exists_of_follow h
  exact ⟨c, hc, hp, one_install .device oneDownloaded hc⟩

/-- Whether an operation enters an installer. -/
def Op.performsInstall : Op → Bool
  | .enter (.performInstall _) => true
  | _ => false

/-- Two requests that are accepted before the first one's executor has written its status both enter their installer. -/
theorem two_installs : ¬ ∀ c, Reach (machine .device) (fun _ _ => True) oneDownloaded.boot c → OneInstall c := by
  intro hall
  have h : ((machine .device).follow (fun _ _ => true) (installAccepted 0 ++ installAccepted 1 ++
      Thread.steps (.installExecutor 0 {} .sysInstaller) 10 ++ Thread.steps (.installExecutor 1 {} .sysInstaller) 9)
      oneDownloaded.boot).any (fun c => (c.next (.installExecutor 1 {} .sysInstaller)).any Op.performsInstall &&
        (c.state.journals 0).performing) = true := by decide
  obtain ⟨c, hc, hp⟩ := Reach.exists_of_follow h
  simp only [Bool.and_eq_true] at hp
  obtain ⟨o, ho, hpo⟩ := (Option.any_eq_true ..).mp hp.1
  cases o with
  | enter m =>
    cases m with
    | performInstall l =>
      exact absurd hp.2 (by simp [hall c (hc.mono fun _ _ _ => trivial) _ l ho 0 (by simp [Thread.flow])])
    | _ => cases hpo
  | _ => cases hpo

end UpdateEngine
