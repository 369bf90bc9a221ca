import UpdateEngine.Firmware.Lives
import UpdateEngine.Lemmas.OriginAux
import UpdateEngine.Lemmas.SoloAux

/-!
# What the server decides

A server sends responses; the device is started, runs any threads in any order, and is stopped at any point, any number of times.
Whatever its tables hold, whatever it fetches, compares a package with or gives to an installer then goes back to an entry of a response
that lists a version.
-/

namespace UpdateEngine

open Concurrent OriginAux

variable {P : Platform} {R : String → Prop}

/-- What is read from the connection is one of the responses. -/
def receives (R : String → Prop) (c : Config) (a : Action) : Prop :=
  ∀ n text, a = .run n (.text (some text)) → c.next n = some (.ask .sslRead) → R text

/-- `Left`, of a device that is sent these responses. -/
inductive LeftBy (P : Platform) (R : String → Prop) : Store → Prop
  | new {d : Store} (ht : d.tasks = []) (hc : d.components = []) : LeftBy P R d
  | stopped {d : Store} {startupReason : StartupReason} {c : Config} (h : LeftBy P R d)
    (hc : Reach (machine P) (receives R) (FirmwareManager.init startupReason d).boot c) : LeftBy P R c.state.store
  | elsewhere {d d' : Store} (h : LeftBy P R d) (ht : d'.tasks = d.tasks) (hc : d'.components = d.components) : LeftBy P R d'

/-- What a process of such a device can come to. -/
def RunsBy (P : Platform) (R : String → Prop) (c : Config) : Prop :=
  ∃ d startupReason, LeftBy P R d ∧ Reach (machine P) (receives R) (FirmwareManager.init startupReason d).boot c

/-- What an operation fetches, stores as a package, compares one with or installs is that of a row: the package of the row is fetched
from the URL of the row and stored under its path, and compared with its `verifyInfo`, and the installers are given such paths. -/
def Op.Serves (P : Platform) (R : String → Prop) (n : Thread) : Op → Prop
  | .ask (.curlPerform url _) => ∃ c f o i, Genuine P R c ∧ n = .downloadThread f o i c.spath c.url ∧ url = c.url
  | .appendFile path _ => ∃ c f o i, Genuine P R c ∧ n = .downloadThread f o i c.spath c.url ∧ path = c.spath
  | .enter (.verified v) => ∃ c, Genuine P R c ∧ c.spath = v.path ∧ c.verifyInfo = v.verifyInfo
  | .enter (.performInstall l) => ∀ c ∈ l, Genuine P R c
  | .ask (.startUpdatePackageZip path) => ∃ c, Genuine P R c ∧ c.spath = path
  | .ask (.rebootAndInstallUpgradePackage files) => ∀ path ∈ files, ∃ c, Genuine P R c ∧ c.spath = path
  | _ => True

namespace OriginAux

variable {n : Thread} {s : State} {ρ : Thread → Option Unit}

/-- The rows go back to responses, and have the statuses that are stored. -/
structure Rows (P : Platform) (R : String → Prop) (tasks : List FirmwareTask) (components : List FirmwareComponent) : Prop where
  tasks : ∀ t ∈ tasks, Titled P R t.taskId ∧ t.status.isStored = true
  components : ∀ c ∈ components, Genuine P R c ∧ c.status.isStored = true

theorem rows_nil : Rows P R [] [] := ⟨fun _ h => absurd h List.not_mem_nil, fun _ h => absurd h List.not_mem_nil⟩

/-- So do the components that the flows keep; nobody has been told of a pause; and the threads are fine. -/
structure Original (P : Platform) (R : String → Prop) (s : State) (ρ : Thread → Option Unit) : Prop where
  rows : Rows P R s.tasks s.components
  flows : ∀ f, ∀ c ∈ (s.flows f).components, Genuine P R c
  events : ∀ e ∈ s.events, e.eventId ≠ .downloadPause
  threads : ∀ n r, ρ n = some r → Fine P R n

theorem genuine_apply {c : FirmwareComponent} {u : ComponentUpdate} (hu : ∀ caller, carries P R n (.updateComponents caller u))
    (h : Genuine P R c ∧ c.status.isStored = true) : Genuine P R (u.apply c) ∧ (u.apply c).status.isStored = true := by
  obtain ⟨⟨⟨e, he, hc⟩, hurl⟩, hstatus⟩ := h
  cases u with
  | progressByUrl url st p =>
    unfold ComponentUpdate.apply
    dsimp only
    split
    · refine ⟨⟨⟨e, he, ?_⟩, hurl⟩, hu .download⟩
      rw [hc]
    · exact ⟨⟨⟨e, he, hc⟩, hurl⟩, hstatus⟩
  | urlByVersionId v url =>
    unfold ComponentUpdate.apply
    dsimp only
    split
    · refine ⟨⟨⟨e, he, ?_⟩, hu .download⟩, hstatus⟩
      rw [hc]
    · exact ⟨⟨⟨e, he, hc⟩, hurl⟩, hstatus⟩

theorem titled_apply {t : FirmwareTask} {u : TaskUpdate} (hu : ∀ caller i, carries P R n (.updateTasks caller i u))
    (h : Titled P R t.taskId ∧ t.status.isStored = true) : Titled P R (u.apply t).taskId ∧ (u.apply t).status.isStored = true := by
  cases u with
  | progress st p => exact ⟨h.1, hu .download ""⟩
  | _ => exact h

/-- The rows after an operation. -/
theorem rows_after (h : Rows P R s.tasks s.components) {o : Op} (ho : carries P R n o) (x : o.Res) :
    Rows P R (o.after n s x).tasks (o.after n s x).components := by
  cases o with
  | insertTask t =>
    refine ⟨fun t' ht' => ?_, h.components⟩
    rcases List.mem_append.mp ht' with ht' | ht'
    · exact h.tasks t' ht'
    · rw [List.mem_singleton.mp ht']
      exact ho
  | updateTasks caller i u =>
    refine ⟨fun t' ht' => ?_, h.components⟩
    obtain ⟨t, ht, rfl⟩ := List.mem_map.mp ht'
    split
    · refine titled_apply (n := n) (fun _ _ => ?_) (h.tasks t ht)
      cases u <;> exact ho
    · exact h.tasks t ht
  | deleteTasks => exact ⟨fun _ h => absurd h List.not_mem_nil, h.components⟩
  | insertComponents l =>
    refine ⟨h.tasks, fun c hc => ?_⟩
    rcases List.mem_append.mp hc with hc | hc
    · exact h.components c hc
    · exact ho c hc
  | updateComponents caller u =>
    refine ⟨h.tasks, fun c' hc' => ?_⟩
    obtain ⟨c, hc, rfl⟩ := List.mem_map.mp hc'
    refine genuine_apply (n := n) (fun _ => ?_) (h.components c hc)
    cases u <;> exact ho
  | deleteComponents => exact ⟨h.tasks, fun _ h => absurd h List.not_mem_nil⟩
  | openFile p | saveDataToFile p d | awaitWake i => cases x <;> exact h
  | enter m => cases m <;> exact h
  | _ => exact h

theorem flows_after (h : ∀ f, ∀ c ∈ (s.flows f).components, Genuine P R c) {o : Op} (ho : carries P R n o) (x : o.Res) (f : Nat) :
    ∀ c ∈ ((o.after n s x).flows f).components, Genuine P R c := by
  by_cases hset : ∃ l, o = .setFlow (.components l) ∧ f = n.flow
  · obtain ⟨l, rfl, rfl⟩ := hset
    have ho : ∀ c ∈ l, Genuine P R c := ho
    rw [StepAux.after_flows]
    simpa [StepAux.flowUpdate, FlowUpdate.apply] using ho
  · rw [SoloAux.after_components fun l hl hf => hset ⟨l, hl, hf⟩]
    exact h f

theorem events_after (h : ∀ e ∈ s.events, e.eventId ≠ .downloadPause) {o : Op} (ho : carries P R n o) (x : o.Res) :
    ∀ e ∈ (o.after n s x).events, e.eventId ≠ .downloadPause := by
  cases o with
  | publish e =>
    intro e' he'
    rcases List.mem_append.mp he' with he' | he'
    · exact h e' he'
    · rw [List.mem_singleton.mp he']
      exact ho
  | openFile p | saveDataToFile p d | awaitWake i => cases x <;> exact h
  | enter m => cases m <;> exact h
  | _ => exact h

/-- The answers are those that are expected. -/
theorem expects_of_original {c : Config} {o : Op} {a : Answer} {x : o.Res} (h : Original P R c.state ρ)
    (hok : receives R c (.run n a)) (hnext : c.next n = some o) (hx : o.answer n a c.state = some x) : expects P R o x := by
  cases o with
  | queryTasks caller =>
    obtain rfl : c.state.tasks = x := Option.some.inj hx
    exact fun t ht => (h.rows.tasks t ht).2
  | queryComponents caller =>
    obtain rfl : c.state.components = x := Option.some.inj hx
    exact fun r hr => (h.rows.components r hr).1
  | getFlow =>
    obtain rfl : c.state.flows n.flow = x := Option.some.inj hx
    exact h.flows n.flow
  | ask q =>
    cases q with
    | sslRead =>
      cases a with
      | text text =>
        obtain rfl : text = x := Option.some.inj hx
        rintro t ht
        rw [Option.mem_def.mp ht] at hok
        exact hok n t rfl hnext
      | _ => cases hx
    | _ => trivial
  | _ => trivial

/-- What is started from outside is fine. -/
theorem fine_of_starts {s' : State} (h : starts n s = some s') : Fine P R n := by
  cases n with
  | downloadThread | installExecutor | applyExecutor => cases h
  | _ => trivial

theorem threads_update {r : Unit} (h : ∀ m r, ρ m = some r → Fine P R m) (hn : Fine P R n) :
    ∀ m r', Function.update ρ n (some r) m = some r' → Fine P R m := by
  intro m r' hm
  rcases Protocol.role_update hm with ⟨rfl, -⟩ | ⟨-, hm⟩
  · exact hn
  · exact h m r' hm

/-- On every run from such rows there are only such rows. -/
def simulation {d : Store} (hd : Rows P R d.tasks d.components) :
    Simulation (machine P) (origins P R) (receives R) d.state (Original P R) where
  occurs := fun _ => True
  occurs_start := fun _ _ _ => trivial
  occurs_spawn := fun _ _ _ _ _ _ _ => trivial
  conforms := fun n _ => conforms P R n
  init := ⟨hd, fun _ _ h => absurd h List.not_mem_nil, fun _ h => absurd h List.not_mem_nil, fun _ _ h => by cases h⟩
  start := fun c ρ n s _ h _ _ _ hs => by
    have hthreads := threads_update (r := ()) h.threads (fine_of_starts hs)
    rcases FlowsAux.starts_cases hs with ⟨-, rfl, -⟩ | ⟨rfl, -⟩
    · exact ⟨h.rows, h.flows, h.events, hthreads⟩
    · exact ⟨h.rows, h.flows, h.events, hthreads⟩
  expected := fun c ρ n r o x a s _ h _ hok hnext _ _ hx => expects_of_original h hok hnext (exec_eq_some hx).2.1
  run := fun c ρ n r o x a s _ h _ _ _ hr ha _ _ hx _ => by
    obtain ⟨-, -, rfl⟩ := exec_eq_some hx
    have hn := h.threads n r hr
    have hthreads := threads_update (r := ()) h.threads hn
    refine ⟨rows_after h.rows (ha hn) x, flows_after h.flows (ha hn) x, events_after h.events (ha hn) x, fun m r' hm => ?_⟩
    rcases Protocol.role_spawn (machine P) hm with ⟨hspawn, -⟩ | ⟨rfl, -⟩ | ⟨-, hm⟩
    · cases o with
      | spawn t =>
        cases hspawn
        exact ha hn
      | _ => cases hspawn
    · exact hn
    · exact h.threads m r' hm
  retire := fun s ρ n r h _ _ => ⟨h.rows, h.flows, h.events, fun m r hm => h.threads m r (Protocol.role_retire hm).2⟩

theorem rows_init {d : Store} (h : Rows P R d.tasks d.components) (startupReason : StartupReason) :
    Rows P R (FirmwareManager.init startupReason d).tasks (FirmwareManager.init startupReason d).components := by
  unfold FirmwareManager.init
  split
  · exact rows_nil
  · exact h

/-- What a device is left with. -/
theorem rows_of_left {d : Store} (h : LeftBy P R d) : Rows P R d.tasks d.components := by
  induction h with
  | new ht hc =>
    rw [ht, hc]
    exact rows_nil
  | stopped _ hc ih =>
    obtain ⟨⟨ρ, -, h⟩, -⟩ := (simulation (rows_init ih _)).invariant hc
    exact h.rows
  | elsewhere _ ht hc ih =>
    rw [ht, hc]
    exact ih

/-- What the processes of a device come to. -/
theorem original_of_runs {c : Config} (h : RunsBy P R c) : ∃ ρ, (origins P R).Tracks c ρ ∧ Original P R c.state ρ := by
  obtain ⟨d, startupReason, hd, hc⟩ := h
  exact ((simulation (rows_init (rows_of_left hd) startupReason)).invariant hc).1

/-- An operation of a thread that was started for something genuine. -/
theorem serves_of_carries {o : Op} (hn : Fine P R n) (ho : carries P R n o) : o.Serves P R n := by
  cases o with
  | appendFile path bytes =>
    obtain ⟨f, o, i, url, rfl⟩ := ho
    obtain ⟨c, hc, rfl, rfl⟩ := hn
    exact ⟨c, f, o, i, hc, rfl, rfl⟩
  | ask q =>
    cases q with
    | curlPerform url size =>
      obtain ⟨f, o, i, path, rfl⟩ := ho
      obtain ⟨c, hc, rfl, rfl⟩ := hn
      exact ⟨c, f, o, i, hc, rfl, rfl⟩
    | startUpdatePackageZip | rebootAndInstallUpgradePackage => exact ho
    | _ => trivial
  | enter m =>
    cases m with
    | verified | performInstall => exact ho
    | _ => trivial
  | _ => trivial

end OriginAux

/-- A device that is sent the responses `R`, with any threads in any order, stopped anywhere and started again any number of times. Each
row of its component table is that of an entry of a response that lists a version, and each task is named after one such response; what
is fetched, what a package is compared with and what the installers are given goes back to such entries as well. -/
theorem server_decides {c : Config} (h : RunsBy P R c) :
    (∀ r ∈ c.state.components, Genuine P R r) ∧ (∀ t ∈ c.state.tasks, Titled P R t.taskId) ∧
      ∀ n o, c.next n = some o → o.Serves P R n := by
  obtain ⟨ρ, hρ, hc⟩ := original_of_runs h
  refine ⟨fun r hr => (hc.rows.components r hr).1, fun t ht => (hc.rows.tasks t ht).1, fun n o ho => ?_⟩
  obtain ⟨r, hr, ha⟩ := hρ.allowed ho
  exact serves_of_carries (hc.threads n r hr) (ha (hc.threads n r hr))

/-- Whether what is read is the response of the phone's server. -/
def receivesVersion (_ : Config) : Action → Bool
  | .run _ (.text (some text)) => text = versionText
  | _ => true

/-- The thread that has the version of the phone installed, and its turns up to the updater. -/
def phoneInstaller : Thread := .installExecutor 3 {} .updater
def phoneHandsOver : List (Thread × Nat) := phoneInstalls ++ [(phoneInstaller, 7)]

/-- The updater of the phone is about to be given a package. -/
def Config.handsOver (c : Config) (n : Thread) (files : List String) : Bool := (c.next n).any fun o => match o with
  | .ask (.rebootAndInstallUpgradePackage l) => l = files
  | _ => false

theorem server_decides_phone : ∃ c, RunsBy .phone (· = versionText) c ∧
    c.next phoneInstaller = some (.ask (.rebootAndInstallUpgradePackage [Firmware.PACKAGE_PATH ++ "/package"])) ∧
    ∃ r, Genuine .phone (· = versionText) r ∧ r.spath = Firmware.PACKAGE_PATH ++ "/package" := by
  have h : ((machine .phone).follow receivesVersion
      ((machine .phone).turns favourable (turnsOf phoneHandsOver) (Store.boot {})) (Store.boot {})).any (fun c =>
        Config.handsOver c phoneInstaller [Firmware.PACKAGE_PATH ++ "/package"]) = true := by decide +kernel
  obtain ⟨c, hc, hgiven⟩ := Reach.exists_of_follow h
  have hruns : RunsBy .phone (· = versionText) c := by
    refine ⟨{}, .unknown, .new rfl rfl, hc.mono fun c a ha n text h _ => ?_⟩
    subst h
    exact of_decide_eq_true ha
  have hnext : c.next phoneInstaller = some (.ask (.rebootAndInstallUpgradePackage [Firmware.PACKAGE_PATH ++ "/package"])) := by
    unfold Config.handsOver at hgiven
    cases ho : c.next phoneInstaller with
    | none => simp [ho] at hgiven
    | some o =>
      rw [ho, Option.any_some] at hgiven
      cases o with
      | ask q =>
        cases q with
        | rebootAndInstallUpgradePackage l => rw [of_decide_eq_true hgiven]
        | _ => cases hgiven
      | _ => cases hgiven
  exact ⟨c, hruns, hnext, (server_decides hruns).2.2 _ _ hnext _ (List.mem_singleton_self _)⟩

/-! ## The statuses that are stored -/

namespace OriginAux

/-- A device is sent any responses. -/
theorem leftBy_of_left {d : Store} (h : Left P d) : LeftBy P (fun _ => True) d := by
  induction h with
  | new ht hc => exact .new ht hc
  | stopped _ hc ih => exact .stopped ih (hc.mono fun _ _ _ _ _ _ _ => trivial)
  | elsewhere _ ht hc ih => exact .elsewhere ih ht hc

end OriginAux

/-- A device on which any threads run in any order, stopped anywhere and started again any number of times: a task or a component is
never stored with another status than those of `isStored`, and no client is ever told that a download pauses. -/
theorem stored_statuses {d : Store} (h : Left P d) {startupReason : StartupReason} {c : Config}
    (hc : Reach (machine P) (fun _ _ => True) (FirmwareManager.init startupReason d).boot c) :
    (∀ t ∈ c.state.tasks, t.status.isStored = true) ∧ (∀ r ∈ c.state.components, r.status.isStored = true) ∧
      ∀ e ∈ c.state.events, e.eventId ≠ .downloadPause := by
  obtain ⟨ρ, -, ho⟩ := original_of_runs (P := P) (R := fun _ => True)
    ⟨d, startupReason, leftBy_of_left h, hc.mono fun _ _ _ _ _ _ _ => trivial⟩
  exact ⟨fun t ht => (ho.rows.tasks t ht).2, fun r hr => (ho.rows.components r hr).2, ho.events⟩

/-- The download of the phone's version is being cancelled. -/
theorem stored_statuses_phone : ∃ c : Config,
    c.state.status = some .downloadCancel ∧ (∀ t ∈ c.state.tasks, t.status.isStored = true) ∧
    (∀ r ∈ c.state.components, r.status.isStored = true) ∧ ∀ e ∈ c.state.events, e.eventId ≠ .downloadPause := by
  have h : ((machine .phone).follow (fun _ _ => true)
      ((machine .phone).turns slow (turnsOf phoneCancels) (Store.boot {})) (Store.boot {})).any (fun c =>
        c.state.status = some .downloadCancel) = true := by decide +kernel
  obtain ⟨c, hc, hstatus⟩ := Reach.exists_of_follow h
  exact ⟨c, of_decide_eq_true hstatus, @stored_statuses .phone {} (.new rfl rfl) .unknown c (hc.mono fun _ _ _ => trivial)⟩

end UpdateEngine
