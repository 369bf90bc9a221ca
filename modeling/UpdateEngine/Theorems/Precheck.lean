import UpdateEngine.Firmware.Lives
import UpdateEngine.Lemmas.AloneAux
import UpdateEngine.Lemmas.FetchAux

/-!
# Whether a downloaded package is found ready

A transfer is taken for complete by the result of the library, and by a digest that may be empty; before it installs the package the
service compares the length of the file with the size in its row. They agree as long as a transfer brings as much as the row says.
-/

namespace UpdateEngine

open Concurrent

/-- Whether an operation changes the file of a stored component, or which components are stored. -/
def Op.touches (s : State) : Op → Bool
  | .openFile p => (s.files p).isNone && s.components.any fun row => row.spath = p
  | .appendFile p _ | .removeFile p | .saveDataToFile p _ => s.components.any fun row => row.spath = p
  | .deleteDownloadFiles | .insertComponents _ | .deleteComponents => true
  | _ => false

/-- A thread carries a download out: it has been woken, or has come to read the components. -/
def Config.fetches (c : Config) (n : Thread) : Bool := n.downloads && (c.next n).any fun o => match o with
  | .awaitWake _ | .queryComponents .downloadExecutor => false
  | _ => true

/-- The executor finds one component at most; a transfer that ends without an error has brought the file of the component to the size
in its row; and while a thread carries a download out, no other flow changes the file or the components. -/
def packageKept (c : Config) : Action → Bool
  | .start _ => true
  | .run n a => (c.next n).all fun o =>
    (!o.touches c.state || c.all fun m => m.flow = n.flow || !Config.fetches c m) && match o, a with
      | .queryComponents .downloadExecutor, _ => c.state.components.length ≤ 1
      | .ask (.curlPerform _ _), .transfer t => t.res ≠ DownloadThread.CURLE_OK || c.state.components.all fun row =>
        row.spath = n.fileName && (c.state.files n.fileName).any fun content => Int64.ofNat (content.length + t.amount) = row.size
      | _, _ => true

/-- An action that leaves the file and the components alone. -/
def leavesPackage (c : Config) : Action → Bool
  | .start _ => true
  | .run n _ => (c.next n).all fun o => !o.touches c.state

/-- Whatever happens that leaves the file and the components alone, `IsUpgradePackagesReady` accepts the stored component. -/
def StaysReady (P : Platform) (c : Config) : Prop :=
  ∀ c', Reach (machine P) (fun c a => leavesPackage c a = true) c c' → c'.state.stopped = false → ∀ m a,
    (FirmwareUpdateHelper.isUpgradePackagesReady c'.state.components).Ends (Thread.alone m a) c'.state fun ready _ => ready = true

namespace FetchAux

open StepAux FlowsAux

variable {P : Platform} {c : Config} {n m : Thread} {s : State} {ρ : Thread → Option Fetch} {r : Fetch} {o : Op}

/-! ## What stays -/

/-- What a component row says of its file. -/
def dims (row : FirmwareComponent) : String × Int64 := (row.spath, row.size)

theorem after_dims {x : o.Res} (h : o.touches s = false) : (o.after n s x).components.map dims = s.components.map dims := by
  cases o with
  | insertComponents | deleteComponents => cases h
  | updateComponents caller u =>
    change (s.components.map fun row => u.apply row).map dims = _
    rw [List.map_map]
    refine List.map_congr_left fun row _ => ?_
    cases u <;> (simp only [Function.comp, ComponentUpdate.apply]; split <;> rfl)
  | openFile | saveDataToFile | awaitWake => cases x <;> rfl
  | enter mark => cases mark <;> rfl
  | _ => rfl

theorem after_file {x : o.Res} (h : o.touches s = false) {row : FirmwareComponent} (hrow : row ∈ s.components) :
    (o.after n s x).files row.spath = s.files row.spath := by
  have hother {p : String} (hp : (s.components.any fun row => row.spath = p) = false) : row.spath ≠ p := by
    have := List.any_eq_false.mp hp row hrow
    simpa using this
  cases o with
  | openFile p =>
    cases x with
    | false => rfl
    | true =>
      change Function.update s.files p _ row.spath = _
      by_cases hp : row.spath = p
      · subst hp
        cases hfile : s.files row.spath with
        | none =>
          have : (s.components.any fun row' => row'.spath = row.spath) = false := by simpa [Op.touches, hfile] using h
          exact absurd rfl (hother this)
        | some content => simp
      · exact Function.update_of_ne hp ..
  | appendFile p | removeFile p => exact Function.update_of_ne (hother h) ..
  | saveDataToFile p d =>
    cases x with
    | false => rfl
    | true => exact Function.update_of_ne (hother h) ..
  | deleteDownloadFiles => cases h
  | awaitWake => cases x <;> rfl
  | enter mark => cases mark <;> rfl
  | _ => rfl

/-- The file of each stored component is so much shorter than its row says. -/
def Missing (s : State) (path : String) (rest : Nat) : Prop := ∀ row ∈ s.components,
  row.spath = path ∧ ((s.files path).any fun content => Int64.ofNat (content.length + rest) = row.size) = true

theorem missing_after {x : o.Res} (h : o.touches s = false) {path : String} {rest : Nat} (hm : Missing s path rest) :
    Missing (o.after n s x) path rest := by
  intro row hrow
  have hdims : dims row ∈ s.components.map dims := after_dims h ▸ List.mem_map_of_mem hrow
  obtain ⟨row', hrow', he⟩ := List.mem_map.mp hdims
  obtain ⟨hpath, hsize⟩ := hm row' hrow'
  obtain ⟨he, he'⟩ := Prod.mk.inj he
  subst hpath
  refine ⟨he.symm, ?_⟩
  rw [after_file h hrow', ← he']
  exact hsize

/-! ## The invariant -/

/-- The state agrees with what a thread knows. -/
def Agrees (s : State) (n : Thread) : Fetch → Prop
  | .ended | .idle => True
  | .listed rows => n.downloads = true ∧ s.components.map dims = rows.map dims
  | .lacks path rest called => n.downloads = true ∧ Missing s path rest ∧
    ∀ status, called = some status → (s.flows n.flow).upgradeStatus = status

/-- A download is in the hands of one thread, and the state agrees with what it knows. -/
structure Fetched (s : State) (ρ : Thread → Option Fetch) : Prop where
  kind : ∀ n r, ρ n = some r → r ≠ .ended → n.kind = .download
  alone : ∀ n r m r', ρ n = some r → r ≠ .ended → ρ m = some r' → r' ≠ .ended → n.flow = m.flow → n = m
  agrees : ∀ n r, ρ n = some r → Agrees s n r

/-- What leaves the package and `upgradeStatus_` alone keeps what is known. -/
theorem agrees_after {x : o.Res} (h : Agrees s m r) (htouches : o.touches s = false)
    (hcalled : ∀ status, o = .setFlow (.upgradeStatus status) → m.flow ≠ n.flow) : Agrees (o.after n s x) m r := by
  cases r with
  | ended | idle => trivial
  | listed rows => exact ⟨h.1, (after_dims htouches).trans h.2⟩
  | lacks path rest called =>
    refine ⟨h.1, missing_after htouches h.2.1, fun status hs => ?_⟩
    rw [after_upgradeStatus hcalled]
    exact h.2.2 status hs

/-! ### The thread itself -/

theorem touches_of_still (h : still o = true) : o.touches s = false := by
  cases o with
  | openFile | appendFile | removeFile | saveDataToFile | deleteDownloadFiles | insertComponents | deleteComponents => cases h
  | _ => rfl

/-- The executor finds the file as long as the only row says. -/
theorem missing_of_match {rows : List FirmwareComponent} {path : String} (hrows : s.components.map dims = rows.map dims)
    (h : (rows.all fun row => row.spath = path &&
      (s.files path).any fun bytes => Int64.ofNat bytes.length = row.size) = true) : Missing s path 0 := by
  intro row hrow
  have hdims : dims row ∈ rows.map dims := hrows ▸ List.mem_map_of_mem hrow
  obtain ⟨row', hrow', he⟩ := List.mem_map.mp hdims
  obtain ⟨he, he'⟩ := Prod.mk.inj he
  have hmatch := List.all_eq_true.mp h row' hrow'
  simp only [Bool.and_eq_true, decide_eq_true_eq] at hmatch
  exact ⟨he.symm.trans hmatch.1, by simpa [he'] using hmatch.2⟩

/-- What arrives is no longer missing. -/
theorem missing_append {x : Unit} {path : String} {bytes : Bytes} {rest : Nat} (h : Missing s path rest) (hle : bytes.length ≤ rest) :
    Missing (Op.after n s (.appendFile path bytes) x) path (rest - bytes.length) := by
  intro row hrow
  obtain ⟨hpath, hsize⟩ := h row hrow
  refine ⟨hpath, ?_⟩
  change ((Function.update s.files path ((s.files path).map (· ++ bytes)) path).any _) = true
  rw [Function.update_self]
  cases hfile : s.files path with
  | none => simp [hfile] at hsize
  | some content =>
    have hlength : (content ++ bytes).length + (rest - bytes.length) = content.length + rest := by
      rw [List.length_append]
      omega
    rw [hfile] at hsize
    rw [Option.map_some, Option.any_some, hlength]
    exact hsize

/-- An operation of the thread itself, on a run that keeps the condition. -/
theorem agrees_own {a : Answer} {x : o.Res} (h : Agrees c.state n r) (ha : allowed n r o)
    (hok : packageKept c (.run n a) = true) (hnext : c.next n = some o) (hx : o.answer n a c.state = some x) :
    Agrees (o.after n c.state x) n (next n r o x) := by
  cases hstill : still o with
  | true =>
    rw [(allowed_of_still hstill n r).2 x]
    refine agrees_after h (touches_of_still hstill) ?_
    rintro status rfl
    cases hstill
  | false =>
    cases o with
    | queryComponents caller =>
      cases caller with
      | downloadExecutor =>
        obtain ⟨rfl, hn⟩ := ha
        cases Option.some.inj hx
        exact ⟨hn, rfl⟩
      | _ => cases hstill
    | updateTasks caller i u => exact agrees_after h rfl fun _ => Op.noConfusion
    | readFile path =>
      cases Option.some.inj hx
      cases r with
      | listed rows =>
        simp only [next]
        split
        · rename_i hmatch
          exact ⟨h.1, missing_of_match h.2 hmatch, fun _ hs => by cases hs⟩
        · exact h
      | _ => exact agrees_after h rfl fun _ => Op.noConfusion
    | awaitWake i =>
      obtain rfl : r = .idle := ha
      trivial
    | ask q =>
      cases q with
      | newThread => trivial
      | curlPerform url resumeFrom =>
        obtain ⟨rfl, hn⟩ := ha
        cases a with
        | transfer t =>
          cases Option.some.inj hx
          simp only [next]
          split
          · rename_i hres
            simp only [packageKept, hnext, Option.all_some, Bool.and_eq_true] at hok
            refine ⟨hn, fun row hrow => ?_, fun _ hs => by cases hs⟩
            have hrows := List.all_eq_true.mp (((Bool.or_eq_true ..).mp hok.2).resolve_left (by simp [hres])) row hrow
            obtain ⟨hpath, hsize⟩ := (Bool.and_eq_true ..).mp hrows
            exact ⟨of_decide_eq_true hpath, hsize⟩
          · trivial
        | _ => cases hx
      | _ => cases hstill
    | setFlow u =>
      cases u with
      | upgradeStatus status =>
        cases r with
        | ended | idle => trivial
        | listed rows => exact h
        | lacks path rest called =>
          refine ⟨h.1, h.2.1, fun status' hs => ?_⟩
          cases hs
          simp [Op.after, Op.effect, State.setFlow, FlowUpdate.apply]
      | _ => cases hstill
    | enter mark =>
      cases mark with
      | onDownloadCallback p =>
        simp only [next]
        split
        · exact agrees_after h rfl fun _ => Op.noConfusion
        · trivial
      | _ => cases hstill
    | appendFile path bytes =>
      cases r with
      | lacks path' rest called =>
        simp only [next]
        split
        · rename_i happend
          obtain ⟨rfl, hle⟩ := happend
          exact ⟨h.1, missing_append h.2.1 hle, h.2.2⟩
        · trivial
      | _ => trivial
    | spawn | openFile | removeFile | saveDataToFile | deleteDownloadFiles | insertComponents | deleteComponents => trivial
    | _ => cases hstill

/-! ### The other threads -/

/-- A thread that knows something carries a download out. -/
theorem fetches_of_known (hρ : fetching.Tracks c ρ) (hm : ρ m = some r) (hworks : m.downloads = true) (hr : r ≠ .idle) :
    Config.fetches c m = true := by
  have hlive : c.live m = true := (hρ.live_iff m).mpr (by simp [hm])
  obtain ⟨o, ho⟩ := Option.isSome_iff_exists.mp hlive
  obtain ⟨r', hr', ha⟩ := hρ.allowed ho
  obtain rfl : r = r' := Option.some.inj (hm.symm.trans hr')
  have ha : allowed m r o := ha (DownloadsAux.kind_of_downloads hworks)
  rw [Config.fetches, hworks, ho]
  cases o with
  | awaitWake i => exact absurd ha hr
  | queryComponents caller =>
    cases caller with
    | downloadExecutor => exact absurd ha.1 hr
    | _ => rfl
  | _ => rfl

/-- A thread that has handed the download over touches nothing any more. -/
theorem still_of_ended (ha : allowed n .ended o) : o.touches s = false ∧ ∀ status, o ≠ .setFlow (.upgradeStatus status) := by
  cases o with
  | openFile | appendFile | removeFile | saveDataToFile | deleteDownloadFiles | insertComponents | deleteComponents =>
    exact absurd rfl ha
  | setFlow u =>
    cases u with
    | upgradeStatus status => exact absurd rfl ha
    | _ => exact ⟨rfl, fun _ => by simp⟩
  | _ => exact ⟨rfl, fun _ => Op.noConfusion⟩

/-- An operation of another thread, on a run that keeps the condition. -/
theorem agrees_other {a : Answer} {x : o.Res} {r' : Fetch} (hf : Fits P c) (hρ : fetching.Tracks c ρ) (hJ : Fetched c.state ρ)
    (hm : ρ m = some r) (hmn : m ≠ n) (hn : ρ n = some r') (ha : n.kind = .download → allowed n r' o)
    (hok : packageKept c (.run n a) = true) (hnext : c.next n = some o) : Agrees (o.after n c.state x) m r := by
  have h := hJ.agrees m r hm
  have hknown (hworks : m.downloads = true) (hidle : r ≠ .idle) (hended : r ≠ .ended) : Agrees (o.after n c.state x) m r := by
    have hlive {k : Thread} {q : Fetch} (hk : ρ k = some q) : c.live k = true := (hρ.live_iff k).mpr (by simp [hk])
    -- a thread of the same flow has handed the download over
    have hsame (hflow : m.flow = n.flow) : allowed n .ended o := by
      have hkind := (kind_eq hf (hlive hm) (hlive hn) hflow).symm.trans (DownloadsAux.kind_of_downloads hworks)
      by_cases hr' : r' = .ended
      · exact hr' ▸ ha hkind
      · exact absurd (hJ.alone m r n r' hm hended hn hr' hflow) hmn
    refine agrees_after h ?_ fun status ho hflow => (still_of_ended (s := c.state) (hsame hflow)).2 status ho
    by_contra htouches
    simp only [packageKept, hnext, Option.all_some, Bool.and_eq_true] at hok
    have hall := ((Bool.or_eq_true ..).mp hok.1).resolve_left (by simpa using htouches)
    have hm' := Config.all_eq_true.mp hall m (hlive hm)
    rw [fetches_of_known hρ hm hworks hidle, Bool.not_true, Bool.or_false, decide_eq_true_eq] at hm'
    exact htouches (still_of_ended (hsame hm')).1
  cases r with
  | ended | idle => trivial
  | listed => exact hknown h.1 Fetch.noConfusion Fetch.noConfusion
  | lacks => exact hknown h.1 Fetch.noConfusion Fetch.noConfusion

/-! ### Runs -/

/-- A thread that has handed the download over does not get it back. -/
theorem next_ended {x : o.Res} (ha : allowed n .ended o) : next n .ended o x = .ended := by
  cases o with
  | queryComponents caller =>
    cases caller with
    | downloadExecutor => cases ha.1
    | _ => rfl
  | ask q =>
    cases q with
    | curlPerform => cases ha.1
    | newThread => exact absurd rfl ha
    | _ => rfl
  | setFlow u => cases u <;> rfl
  | enter mark =>
    cases mark with
    | onDownloadCallback p => exact absurd rfl ha
    | _ => rfl
  | openFile | appendFile | removeFile | saveDataToFile | deleteDownloadFiles | insertComponents | deleteComponents =>
    exact absurd rfl ha
  | _ => rfl

/-- The workers of a download find their flow past the first step. -/
theorem past_of_downloads (hf : Fits P c) (hlive : c.live n = true) (hworks : n.downloads = true) :
    (c.state.flows n.flow).nextStep ≠ .init := by
  obtain ⟨σ, hσ, hF⟩ := hf
  obtain ⟨r, hr⟩ := Option.isSome_iff_exists.mp ((hσ.live_iff n).mp hlive)
  refine hF.past n r hr ?_
  have hplays := hF.plays n r hr
  cases n with
  | downloadExecutor | downloadThread =>
    cases r with
    | download w => rfl
    | _ => cases hplays
  | _ => cases hworks

/-- Who has the download of a thread in hand after an operation of the thread. -/
def heir (n : Thread) : Op → Thread
  | .spawn m => m
  | _ => n

/-- A download is in the hands of the threads it was in before, or is handed on. -/
theorem holder {x : o.Res} {k : Thread} {q : Fetch} (hf : Fits P c) (hJ : Fetched c.state ρ) (hnext : c.next n = some o)
    (hr : ρ n = some r) (ha : n.kind = .download → allowed n r o)
    (hk : fetching.spawn (machine P) o (Function.update ρ n (some (fetching.next n r o x))) k = some q) (hq : q ≠ .ended) :
    (k ≠ n ∧ ρ k = some q) ∨ (r ≠ .ended ∧ k.flow = n.flow ∧ k.kind = .download ∧ k = heir n o) := by
  rcases Protocol.role_spawn _ hk with ⟨hs, rfl⟩ | ⟨rfl, rfl⟩ | ⟨hkn, hk⟩
  · have ho : o = .spawn k := by
      cases o with
      | spawn m => cases hs; rfl
      | _ => cases hs
    subst ho
    obtain ⟨hflow, hkind⟩ := spawns_flow hf hnext
    have hdownload : k.kind = .download := by
      by_contra hne
      exact hq (if_neg hne)
    exact .inr ⟨ha (hkind.symm.trans hdownload), hflow, hdownload, rfl⟩
  · have hended : r ≠ .ended := by
      rintro rfl
      by_cases hkind : k.kind = .download
      · exact hq ((if_pos hkind).trans (next_ended (ha hkind)))
      · exact hq (if_neg hkind)
    have hkind := hJ.kind k r hr hended
    refine .inr ⟨hended, rfl, hkind, ?_⟩
    cases o with
    | spawn m => exact absurd (if_pos hkind) hq
    | _ => rfl
  · exact .inl ⟨hkn, hk⟩

/-- On runs that keep the condition, the state agrees with what the threads of downloads know. -/
def fetched (P : Platform) (d : Store) :
    Simulation (machine P) fetching (fun c a => packageKept c a = true ∧ Fits P c) d.state Fetched where
  occurs := fun _ => True
  occurs_start := fun _ _ _ => trivial
  occurs_spawn := fun _ _ _ _ _ _ _ => trivial
  conforms := fun n _ => conforms P n
  init := ⟨(fun _ _ h => by cases h), (fun _ _ _ _ h => by cases h), (fun _ _ h => by cases h)⟩
  start := fun c ρ n s hρ hJ hok hn _ hs => by
    have hlive {k : Thread} {q : Fetch} (hk : ρ k = some q) : c.live k = true := (hρ.live_iff k).mpr (by simp [hk])
    have hkind (h : fetching.entry n ≠ .ended) : n.kind = .download := by
      by_contra hne
      exact h (if_neg hne)
    -- the flow of a request is new
    have hother {k : Thread} {q : Fetch} (hk : ρ k = some q) (h : fetching.entry n ≠ .ended) : k.flow ≠ n.flow := by
      have hlt := flow_lt hok.2 (hlive hk)
      rcases starts_cases hs with ⟨hflow, -⟩ | ⟨-, -, -, hinstall⟩
      · omega
      · cases (hkind h).symm.trans hinstall
    refine ⟨fun k q hk hq => ?_, fun k q m q' hk hq hm hq' hflow => ?_, fun k q hk => ?_⟩
    · rcases Protocol.role_update hk with ⟨rfl, rfl⟩ | ⟨-, hk⟩
      · exact hkind hq
      · exact hJ.kind k q hk hq
    · rcases Protocol.role_update hk with ⟨rfl, rfl⟩ | ⟨-, hk'⟩ <;> rcases Protocol.role_update hm with ⟨rfl, rfl⟩ | ⟨-, hm'⟩
      · rfl
      · exact absurd hflow.symm (hother hm' hq)
      · exact absurd hflow (hother hk' hq')
      · exact hJ.alone k q m q' hk' hq hm' hq' hflow
    · rcases Protocol.role_update hk with ⟨-, rfl⟩ | ⟨-, hk⟩
      · by_cases hdownload : n.kind = .download
        · have he : fetching.entry n = .idle := if_pos hdownload
          rw [he]
          trivial
        · have he : fetching.entry n = .ended := if_neg hdownload
          rw [he]
          trivial
      · have hk := hJ.agrees k q hk
        rcases starts_cases hs with ⟨-, rfl, -⟩ | ⟨rfl, -⟩ <;> cases q <;> exact hk
  expected := fun c ρ n r o x a s hρ hJ _ hok hnext hr ha hx => by
    intro hkind
    obtain ⟨-, hanswer, -⟩ := exec_eq_some hx
    have hlive {k : Thread} {q : Fetch} (hk : ρ k = some q) : c.live k = true := (hρ.live_iff k).mpr (by simp [hk])
    cases o with
    | queryComponents caller =>
      cases caller with
      | downloadExecutor =>
        cases Option.some.inj hanswer
        have := hok.1
        simp only [packageKept, hnext, Option.all_some, Bool.and_eq_true, decide_eq_true_eq] at this
        exact this.2
      | _ => trivial
    | getNextStep =>
      intro hworks
      cases Option.some.inj hanswer
      exact past_of_downloads hok.2 (hlive hr) hworks
    | getFlow =>
      cases Option.some.inj hanswer
      rintro path rest status rfl
      exact (hJ.agrees n _ hr).2.2 status rfl
    | _ => trivial
  run := fun c ρ n r o x a s hρ hJ _ hok hnext hr ha _ _ hx _ => by
    obtain ⟨-, hanswer, rfl⟩ := exec_eq_some hx
    have hlive {k : Thread} {q : Fetch} (hk : ρ k = some q) : c.live k = true := (hρ.live_iff k).mpr (by simp [hk])
    refine ⟨fun k q hk hq => ?_, fun k q m q' hk hq hm hq' hflow => ?_, fun k q hk => ?_⟩
    · rcases holder hok.2 hJ hnext hr ha hk hq with ⟨-, hk⟩ | ⟨-, -, hkind, -⟩
      · exact hJ.kind k q hk hq
      · exact hkind
    · rcases holder hok.2 hJ hnext hr ha hk hq with ⟨hkn, hk'⟩ | ⟨hended, hkf, -, hkh⟩ <;>
        rcases holder hok.2 hJ hnext hr ha hm hq' with ⟨hmn, hm'⟩ | ⟨hended', hmf, -, hmh⟩
      · exact hJ.alone k q m q' hk' hq hm' hq' hflow
      · exact absurd (hJ.alone k q n r hk' hq hr hended' (hflow.trans hmf)) hkn
      · exact absurd (hJ.alone m q' n r hm' hq' hr hended (hflow.symm.trans hkf)) hmn
      · exact hkh.trans hmh.symm
    · rcases Protocol.role_spawn _ hk with ⟨-, rfl⟩ | ⟨rfl, rfl⟩ | ⟨hkn, hk⟩
      · by_cases hdownload : k.kind = .download
        · have he : fetching.entry k = .idle := if_pos hdownload
          rw [he]
          trivial
        · have he : fetching.entry k = .ended := if_neg hdownload
          rw [he]
          trivial
      · by_cases hdownload : k.kind = .download
        · have hown := agrees_own (hJ.agrees k r hr) (ha hdownload) hok.1 hnext hanswer
          change Agrees _ k (if k.kind = .download then next k r o x else r)
          rw [if_pos hdownload]
          exact hown
        · have hended : r = .ended := by
            by_contra hr'
            exact hdownload (hJ.kind k r hr hr')
          subst hended
          change Agrees _ k (if k.kind = .download then next k .ended o x else .ended)
          rw [if_neg hdownload]
          trivial
      · exact agrees_other hok.2 hρ hJ hk hkn hr ha hok.1 hnext
  retire := fun s ρ n r hJ _ _ =>
    ⟨fun k q hk => hJ.kind k q (Protocol.role_retire hk).2,
      fun k q m q' hk hq hm hq' => hJ.alone k q m q' (Protocol.role_retire hk).2 hq (Protocol.role_retire hm).2 hq',
      fun k q hk => hJ.agrees k q (Protocol.role_retire hk).2⟩

/-! ## Afterwards -/

/-- What leaves the file and the components alone keeps the package complete. -/
theorem missing_of_reach {c' : Config} (h : Reach (machine P) (fun c a => leavesPackage c a = true) c c') {path : String} {rest : Nat}
    (hm : Missing c.state path rest) :
    Missing c'.state path rest ∧ c'.state.components.map dims = c.state.components.map dims := by
  induction h with
  | refl => exact ⟨hm, rfl⟩
  | step h hok hs ih =>
    rename_i c' c'' action
    obtain ⟨hm', hdims⟩ := ih
    cases action with
    | start n =>
      obtain ⟨-, s, hstart, rfl⟩ := step_start hs
      rcases starts_cases hstart with ⟨-, rfl, -⟩ | ⟨rfl, -⟩ <;> exact ⟨hm', hdims⟩
    | run n a =>
      obtain ⟨o, k, x, s, hfind, -, -, hexec, rfl⟩ := step_run hs
      obtain ⟨-, -, rfl⟩ := exec_eq_some hexec
      have hnext : c'.next n = some o := by simp [Config.next, hfind]
      have htouches : o.touches c'.state = false := by
        simp only [leavesPackage, hnext, Option.all_some, Bool.not_eq_true'] at hok
        exact hok
      exact ⟨missing_after htouches hm', (after_dims htouches).trans hdims⟩

end FetchAux

open FetchAux in
/-- As long as transfers bring as much as the row of the component says, and a download has the component to itself: a package that is
about to be recorded as downloaded is found ready, now and whenever it was left alone. -/
theorem precheck_accepts (P : Platform) {d : Store} {c : Config} (h : Reach (machine P) (fun c a => packageKept c a = true) d.boot c)
    {n : Thread} (hn : n.downloads = true) {i : String} {percent : Int32}
    (hnext : c.next n = some (.updateTasks .downloadCallback i (.progress .downloadSuccess percent)))
    (hone : c.state.components.length = 1) : StaysReady P c := by
  have hfits := Reach.strengthen (I := FlowsAux.Fits P) (fun _ hc => FlowsAux.fits_of_reach hc) h
  obtain ⟨⟨ρ, hρ, hJ⟩, -⟩ := (fetched P d).invariant hfits
  obtain ⟨r, hr, ha⟩ := hρ.allowed hnext
  obtain ⟨path, called, rfl⟩ := ha (DownloadsAux.kind_of_downloads hn)
  intro c' hc' hs m a
  obtain ⟨hmissing, hdims⟩ := missing_of_reach hc' (hJ.agrees n _ hr).2.1
  have hlength : c'.state.components.length = 1 := by
    have := congrArg List.length hdims
    simpa [hone] using this
  obtain ⟨row, hrow⟩ := List.length_eq_one_iff.mp hlength
  obtain ⟨hpath, hsize⟩ := hmissing row (by rw [hrow]; exact List.mem_cons_self ..)
  rw [hrow]
  refine (AloneAux.isUpgradePackagesReady_ends hs row).mono fun ready _ hready => ?_
  rw [hready, hpath]
  exact hsize

/-- Whether a thread is about to record that the one package is downloaded. -/
def Config.recordsSuccess (c : Config) (n : Thread) : Bool := c.state.components.length = 1 && (c.next n).any fun o => match o with
  | .updateTasks .downloadCallback _ (.progress .downloadSuccess _) => true
  | _ => false

/-- The phone comes to the record of its download. -/
def phoneRecords : List (Thread × Nat) := phoneChecks ++
  [(.download 2 {}, 10), (.downloadExecutor 2 {}, 10), (phoneThread 2, 15)]

namespace FetchAux

theorem next_of_recordsSuccess {c : Config} {n : Thread} (h : Config.recordsSuccess c n = true) : c.state.components.length = 1 ∧
    ∃ i percent, c.next n = some (.updateTasks .downloadCallback i (.progress .downloadSuccess percent)) := by
  simp only [Config.recordsSuccess, Bool.and_eq_true, decide_eq_true_eq] at h
  obtain ⟨hone, hnext⟩ := h
  obtain ⟨o, ho, hrecord⟩ := (Option.any_eq_true ..).mp hnext
  split at hrecord
  · rename_i i percent
    exact ⟨hone, i, percent, ho⟩
  · cases hrecord

end FetchAux

theorem precheck_accepts_phone : ∃ c : Config, Config.recordsSuccess c (phoneThread 2) = true ∧ StaysReady .phone c := by
  have h : ((machine .phone).follow packageKept
      ((machine .phone).turns favourable (turnsOf phoneRecords) (Store.boot {})) (Store.boot {})).any (fun c =>
        Config.recordsSuccess c (phoneThread 2)) = true := by decide +kernel
  obtain ⟨c, hc, hp⟩ := Reach.exists_of_follow h
  obtain ⟨hone, i, percent, hnext⟩ := FetchAux.next_of_recordsSuccess hp
  exact ⟨c, hp, precheck_accepts .phone hc rfl hnext hone⟩

/-- Answers of an environment whose server sends more than it had announced. -/
def generous : Op → Answer
  | .ask (.curlPerform _ _) => .transfer { events := [.data [0, 0]] }
  | o => favourable o

/-- Without a digest a package of another length than its row says is recorded as downloaded, and is not found ready. -/
theorem precheck_rejects : ∃ c : Config, Reach (machine .phone) (fun _ _ => True) (Store.boot {}) c ∧
    Config.recordsSuccess c (phoneThread 2) = true ∧ ¬StaysReady .phone c := by
  have h : ((machine .phone).follow (fun _ _ => true)
      ((machine .phone).turns generous (turnsOf phoneRecords) (Store.boot {})) (Store.boot {})).any (fun c =>
        Config.recordsSuccess c (phoneThread 2) && !c.state.stopped && c.state.components.all fun row =>
          !(c.state.files row.spath).any fun content => Int64.ofNat content.length = row.size) = true := by decide +kernel
  obtain ⟨c, hc, hp⟩ := Reach.exists_of_follow h
  simp only [Bool.and_eq_true, Bool.not_eq_true'] at hp
  obtain ⟨⟨hrecords, hs⟩, hlength⟩ := hp
  refine ⟨c, hc.mono fun _ _ _ => trivial, hrecords, fun hready => ?_⟩
  obtain ⟨row, hrow⟩ := List.length_eq_one_iff.mp (FetchAux.next_of_recordsSuccess hrecords).1
  have hends := hready c .refl hs (phoneThread 2) .none
  rw [hrow] at hends
  obtain ⟨ready, _, htrue, hsame⟩ := Prog.Ends.unique hends (AloneAux.isUpgradePackagesReady_ends hs row)
  have hrejected := List.all_eq_true.mp hlength row (by rw [hrow]; exact List.mem_cons_self ..)
  rw [← hsame, htrue] at hrejected
  cases hrejected

end UpdateEngine
