import UpdateEngine.Firmware.Lives
import UpdateEngine.Lemmas.FlowsAux
import UpdateEngine.Theorems.Downloads

/-!
# The network a download is allowed

`DownloadOptions` name the networks a download is allowed, and nothing reads them: a request is tested for any network, a transfer for
none at all. So the option is honoured as long as the network itself stays within it.
-/

namespace UpdateEngine

open Concurrent

/-- `NetManager::IsNetAvailable`, once the network is read: whether it is in the mask. -/
def NetType.isIn (t mask : NetType) : Bool := 0 < t.value &&& mask.value

/-- The networks a download is allowed, for the threads that work for one. -/
def Thread.allowNetwork : Thread → Option NetType
  | .download _ o | .downloadExecutor _ o | .downloadThread _ o _ _ _ => some o.allowNetwork
  | _ => none

/-- What a request does once it has passed its test for a network. -/
def Op.goesOn : Op → Bool
  | .queryComponents .downloadDataProcessor | .ask .freeSpace => true
  | .setFlow (.buildError _ msg) => msg = "download condition fail!"
  | .setFlow (.nextStep step) => step = .downloadStep
  | .spawn _ => true
  | _ => false

/-- A thread that works for a download that is under way: its request has passed the test for a network. -/
def Config.downloading (c : Config) (n : Thread) : Bool := match n with
  | .download _ _ => (c.next n).any Op.goesOn
  | _ => n.downloads

/-- What a thread does next starts a download or goes on with it only in a network that it is allowed: the request's test for a network
lets it start, a transfer is started, a thread finds that it may go on. -/
def Honours (c : Config) (n : Thread) : Prop := ∀ mask, n.allowNetwork = some mask → match c.next n with
  | some .getNetType => c.state.netType.isIn .cellularAndWifi = true → c.state.netType.isIn mask = true
  | some (.ask (.curlPerform _ _)) => c.state.netType.isIn mask = true
  | some .getIsNoNet => c.state.isNoNet = false → c.state.netType.isIn mask = true
  | _ => True

/-- A request that is tested finds a network that it is allowed, or none; while a download is under way the network changes to one that
it is allowed, or to none; and while there is none no transfer is started, and no thread tests before that is noted. -/
def withinMask (c : Config) : Action → Bool
  | .start _ => true
  | .run n _ => match c.next n with
    | some .getNetType =>
      !c.state.netType.isIn .cellularAndWifi || n.allowNetwork.all fun mask => c.state.netType.isIn mask
    | some (.setNetType t) => t = .noNet || c.all fun m => !Config.downloading c m || m.allowNetwork.all fun mask => t.isIn mask
    | some (.ask (.curlPerform _ _)) => c.state.netType ≠ .noNet
    | some .getIsNoNet => n.allowNetwork.isNone || c.state.netType ≠ .noNet || c.state.isNoNet
    | _ => true

namespace NetworkAux

open StepAux FlowsAux

/-- Whether a thread works for a download that has passed the test for a network. -/
inductive Permit where
  | apart | tested

/-- The operations of the threads of a download. -/
def transfers : Op → Bool
  | .spawn _ | .ask (.curlPerform _ _) | .getIsNoNet => true
  | _ => false

/-- What an answer makes of a request. -/
def next (r : Permit) : (o : Op) → o.Res → Permit
  | .getNetType, t => if t.isIn .cellularAndWifi then .tested else .apart
  | .setFlow (.buildError _ _), _ => .apart
  | _, _ => r

/-- A request is tested, and goes on or is refused. -/
def networking : Protocol Op Op.Res Thread Permit where
  entry := fun n => if n.downloads then .tested else .apart
  allowed := fun n r o => n.isDownload = true → match r with
    | .tested => o.goesOn = true
    | .apart => transfers o = false
  expects := fun _ _ _ _ => True
  next := fun n r o x => if n.isDownload then next r o x else r
  final := fun _ => True

variable {P : Platform} {n : Thread} {f : Nat} {o : DownloadOptions}

/-! ## Requests -/

/-- The kinds of operations that are no business of a request's test. -/
def apartKind : OpKind → Bool
  | .getNet | .getNoNet | .spawn | .ask => false
  | _ => true

theorem apart_of_kinds {l : List OpKind} (hl : l.all apartKind = true) (f : Nat) (d : DownloadOptions) (o : Op)
    (ho : l.contains o.kind = true) :
    networking.allowed (.download f d) .apart o ∧ ∀ x, networking.next (.download f d) .apart o x = .apart := by
  have hk := List.all_eq_true.mp hl _ (List.contains_iff_mem.mp ho)
  cases o with
  | getNetType | getIsNoNet | spawn => cases hk
  | ask q =>
    cases q with
    | curlPerform => cases hk
    | _ => exact ⟨fun _ => rfl, fun _ => rfl⟩
  | setFlow u => cases u <;> exact ⟨fun _ => rfl, fun _ => rfl⟩
  | _ => exact ⟨fun _ => rfl, fun _ => rfl⟩

/-- A request goes on only when it has passed the test. -/
theorem stepAfterInit_spec : networking.Spec (.download f o) FirmwareDownloadMode.getStepAfterInit .apart fun step r =>
    (step = .complete ∧ r = .apart) ∨ (step = .downloadStep ∧ r = .tested) := by
  refine Protocol.Spec.skip (apart_of_kinds rfl f o) (KindsAux.queryTask_kinds rfl _) fun tasks => ?_
  split
  · exact ⟨fun _ => rfl, fun _ _ => .inl ⟨rfl, rfl⟩⟩
  · split
    · exact ⟨fun _ => rfl, fun _ _ => .inl ⟨rfl, rfl⟩⟩
    · split
      · exact ⟨fun _ => rfl, fun _ _ => ⟨fun _ => rfl, fun _ _ => .inl ⟨rfl, rfl⟩⟩⟩
      · refine ⟨fun _ => rfl, fun t _ => ?_⟩
        change networking.Spec _ (if (!t.isIn .cellularAndWifi) = true then _ else _)
          (if t.isIn .cellularAndWifi then .tested else .apart) _
        cases t.isIn .cellularAndWifi with
        | false => exact ⟨fun _ => rfl, fun _ _ => ⟨fun _ => rfl, fun _ _ => .inl ⟨rfl, rfl⟩⟩⟩
        | true =>
          refine ⟨fun _ => rfl, fun components _ => ⟨fun _ => rfl, fun space _ => ?_⟩⟩
          change networking.Spec _ (if (!decide (_ ≤ space)) = true then _ else _) .tested _
          split
          · exact ⟨fun _ => rfl, fun _ _ => ⟨fun _ => rfl, fun _ _ => .inl ⟨rfl, rfl⟩⟩⟩
          · exact .inr ⟨rfl, rfl⟩

/-- After a download the flow is over. -/
theorem stepAfterDownload_returns : FirmwareDownloadMode.getStepAfterDownload.Returns fun step => step = .complete := by
  refine Prog.Returns.bind (Prog.returns_true _) fun task _ => ?_
  split
  · rfl
  · intro w
    have hend (t : FirmwareTask) (e : ErrorMessage) : (FirmwareDownloadMode.processStatus t e >>= fun _ =>
        Prog.ret FirmwareStep.complete).Returns fun step => step = .complete :=
      Prog.Returns.bind (Prog.returns_true _) fun _ _ => rfl
    change Prog.Returns _ (if (_ : Bool) = true then _ else _)
    split
    · cases stoi w.downloadProgress.endReason with
      | some c => exact hend task _
      | none => exact fun _ => rfl
    · exact hend task _

/-- Whatever the step, a request goes on only when it has passed the test. -/
theorem getNextStep_spec (step : FirmwareStep) : networking.Spec (.download f o) (getNextStep P (.download o) step) .apart
    fun step r => (step = .complete ∧ r = .apart) ∨ (step = .downloadStep ∧ r = .tested) := by
  cases step with
  | init => exact stepAfterInit_spec
  | downloadStep =>
    exact (Protocol.Spec.of_returns (apart_of_kinds rfl f o) KindsAux.stepAfterDownload_kinds stepAfterDownload_returns).mono
      fun _ _ h => .inl h
  | _ => exact .inl ⟨rfl, rfl⟩

theorem download_conforms (P : Platform) (f : Nat) (o : DownloadOptions) :
    networking.Conforms (.download f o) (UpdateServiceImplFirmware.download P f o) .apart := by
  refine Protocol.Spec.skip (apart_of_kinds rfl f o) (KindsAux.queryTask_kinds rfl _) fun task => ?_
  split
  · exact ⟨fun _ => rfl, fun _ _ => trivial⟩
  · refine ⟨fun _ => rfl, fun _ _ => ⟨fun _ => rfl, fun step _ => ?_⟩⟩
    change networking.Spec _ (getNextStep P (.download o) step >>= _) .apart _
    refine Protocol.Spec.seq (getNextStep_spec step) ?_
    rintro step r (⟨rfl, rfl⟩ | ⟨rfl, rfl⟩)
    · exact ⟨fun _ => rfl, fun _ _ => ⟨fun _ => rfl, fun _ _ => trivial⟩⟩
    · exact ⟨fun _ => rfl, fun _ _ => ⟨fun _ => rfl, fun _ _ => trivial⟩⟩

/-- A thread that is no request does what it likes. -/
theorem conforms_of_other (hn : n.isDownload = false) (p : Prog Unit) (r : Permit) : networking.Conforms n p r := by
  induction p generalizing r with
  | ret a => trivial
  | op o k ih => exact ⟨fun h => absurd (hn.symm.trans h) Bool.noConfusion, fun x _ => ih x _⟩

theorem conforms (P : Platform) (n : Thread) : networking.Conforms n (body P n) (networking.entry n) := by
  cases n with
  | download f o => exact download_conforms P f o
  | _ => exact conforms_of_other rfl _ _

/-! ## The network -/

variable {s s' : State} {ρ : Thread → Option Permit} {c : Config} {r : Permit}

/-- A download that is under way is allowed the network, or there is none. -/
structure Permitted (s : State) (ρ : Thread → Option Permit) : Prop where
  network : ∀ n mask, ρ n = some .tested → n.allowNetwork = some mask → s.netType = .noNet ∨ s.netType.isIn mask = true
  tested : ∀ n r, ρ n = some r → n.downloads = true → r = .tested

/-- Only one operation changes the network. -/
theorem after_netType (n : Thread) (s : State) {o : Op} (ho : ∀ t, o ≠ .setNetType t) (x : o.Res) :
    (o.after n s x).netType = s.netType := by
  cases o with
  | setNetType t => exact absurd rfl (ho t)
  | openFile p | saveDataToFile p d | awaitWake i => cases x <;> rfl
  | enter m => cases m <;> rfl
  | _ => rfl

/-- A thread goes on, or begins, in the network it finds. -/
theorem Permitted.step (h : Permitted s ρ) (hnet : s'.netType = s.netType)
    (hr : r = .tested → ∀ mask, n.allowNetwork = some mask → s.netType = .noNet ∨ s.netType.isIn mask = true)
    (htested : n.downloads = true → r = .tested) : Permitted s' (Function.update ρ n (some r)) := by
  refine ⟨fun m mask hm hmask => ?_, fun m r' hm hd => ?_⟩
  · rw [hnet]
    rcases Protocol.role_update hm with ⟨rfl, hd⟩ | ⟨-, hm⟩
    · exact hr hd.symm mask hmask
    · exact h.network m mask hm hmask
  · rcases Protocol.role_update hm with ⟨rfl, rfl⟩ | ⟨-, hm⟩
    · exact htested hd
    · exact h.tested m r' hm hd

/-- Whoever has passed the test counts as a download under way. -/
theorem downloading_of_tested (hρ : networking.Tracks c ρ) (hn : ρ n = some .tested) {mask : NetType}
    (hmask : n.allowNetwork = some mask) : c.live n = true ∧ Config.downloading c n = true := by
  have hlive : c.live n = true := by
    rw [hρ.live_iff, hn]
    rfl
  refine ⟨hlive, ?_⟩
  cases n with
  | download f o =>
    obtain ⟨op, ho⟩ := Option.isSome_iff_exists.mp hlive
    obtain ⟨r, hr, ha⟩ := hρ.allowed ho
    rw [hn] at hr
    cases hr
    simp only [Config.downloading, ho, Option.any_some]
    exact ha rfl
  | downloadExecutor | downloadThread => rfl
  | _ => cases hmask

/-- What starts a thread of a download works for the same one. -/
theorem spawns_download (hf : Fits P c) {m : Thread} (hn : c.next n = some (.spawn m)) (hm : m.downloads = true) :
    n.allowNetwork = m.allowNetwork ∧ (n.isDownload = true ∨ n.downloads = true) := by
  obtain ⟨ρ, hρ, -⟩ := hf
  obtain ⟨r, -, ha⟩ := hρ.allowed hn
  rcases ha with ⟨-, hs⟩ | ⟨f, o, i, p, l, w, rfl, -, -, -, rfl⟩
  · cases m with
    | downloadExecutor g o' =>
      cases n with
      | download f o =>
        simp only [Thread.starts, Bool.and_eq_true, decide_eq_true_eq] at hs
        obtain ⟨-, rfl⟩ := hs
        exact ⟨rfl, .inl rfl⟩
      | _ => cases hs
    | downloadThread => cases n <;> cases hs
    | _ => cases hm
  · exact ⟨rfl, .inr rfl⟩

/-- An operation keeps the invariant. -/
theorem run_permitted {o : Op} {a : Answer} {x : o.Res} (h : Permitted c.state ρ) (hρ : networking.Tracks c ρ)
    (hok : withinMask c (.run n a) = true) (hn : c.next n = some o) (hr : ρ n = some r)
    (hx : o.answer n a c.state = some x) :
    Permitted (o.after n c.state x) (Function.update ρ n (some (networking.next n r o x))) := by
  have htested (hd : n.downloads = true) : networking.next n r o x = .tested := by
    have hr' := h.tested n r hr hd
    cases n with
    | downloadExecutor | downloadThread => exact hr'
    | _ => cases hd
  by_cases ho : ∃ t, o = .setNetType t
  · obtain ⟨t, rfl⟩ := ho
    have hnext : networking.next n r (.setNetType t) x = r := by
      cases n <;> rfl
    rw [hnext] at htested ⊢
    rw [withinMask, hn] at hok
    have hall : ∀ m mask, ρ m = some .tested → m.allowNetwork = some mask → t = .noNet ∨ t.isIn mask = true := by
      intro m mask hm hmask
      obtain ⟨hlive, hd⟩ := downloading_of_tested hρ hm hmask
      rcases (Bool.or_eq_true ..).mp hok with ht | hall
      · exact .inl (of_decide_eq_true ht)
      · have := Config.all_eq_true.mp hall m hlive
        simpa [hd, hmask] using Or.inr (a := t = .noNet) this
    refine ⟨fun m mask hm hmask => ?_, fun m r' hm hd => ?_⟩
    · rcases Protocol.role_update hm with ⟨rfl, hd⟩ | ⟨-, hm⟩
      · exact hall m mask (hd ▸ hr) hmask
      · exact hall m mask hm hmask
    · rcases Protocol.role_update hm with ⟨rfl, rfl⟩ | ⟨-, hm⟩
      · exact htested hd
      · exact h.tested m r' hm hd
  · refine h.step (after_netType n c.state (fun t ht => ho ⟨t, ht⟩) x) (fun hr' mask hmask => ?_) htested
    by_cases hold : r = .tested
    · exact h.network n mask (hold ▸ hr) hmask
    · cases n with
      | download f d =>
        cases o with
        | getNetType =>
          rw [withinMask, hn] at hok
          obtain rfl : c.state.netType = x := Option.some.inj hx
          have hin : c.state.netType.isIn .cellularAndWifi = true := by
            refine Decidable.byContradiction fun hin => hold ?_
            have : networking.next (.download f d) r .getNetType c.state.netType = .apart := if_neg hin
            rw [this] at hr'
            cases hr'
          simp only [hin, Bool.not_true, Bool.false_or, hmask, Option.all_some] at hok
          exact .inr hok
        | setFlow u =>
          cases u with
          | buildError => cases hr'
          | _ => exact absurd hr' hold
        | _ => exact absurd hr' hold
      | downloadExecutor | downloadThread => exact absurd hr' hold
      | _ => cases hmask

theorem permitted_init (d : Store) : Permitted d.state fun _ => none where
  network := fun _ _ h => by cases h
  tested := fun _ _ h => by cases h

/-- On runs on which the network stays within the masks the invariant holds. -/
def simulation (P : Platform) (d : Store) :
    Simulation (machine P) networking (fun c a => withinMask c a = true ∧ Fits P c) d.state Permitted where
  occurs := fun _ => True
  occurs_start := fun _ _ _ => trivial
  occurs_spawn := fun _ _ _ _ _ _ _ => trivial
  conforms := fun n _ => conforms P n
  init := permitted_init d
  start := fun c ρ n s hρ h _ _ _ hs => by
    have hd : n.downloads = false := by
      cases n with
      | downloadExecutor | downloadThread => cases hs
      | _ => rfl
    have hentry : networking.entry n = .apart := if_neg (by rw [hd]; exact Bool.noConfusion)
    rw [hentry]
    have hnet : s.netType = c.state.netType := by
      rcases starts_cases hs with ⟨-, rfl, -⟩ | ⟨rfl, -⟩ <;> rfl
    exact h.step hnet Permit.noConfusion fun hd' => absurd (hd.symm.trans hd') Bool.noConfusion
  expected := fun _ _ _ _ _ _ _ _ _ _ _ _ _ _ _ _ => trivial
  run := fun c ρ n r o x a s hρ h _ hok hnext hr ha _ hsp hx _ => by
    obtain ⟨-, hanswer, rfl⟩ := exec_eq_some hx
    have hrun := run_permitted h hρ hok.1 hnext hr hanswer
    cases o with
    | spawn m =>
      rw [after_spawn] at hrun ⊢
      by_cases hm : m.downloads = true
      · obtain ⟨hmask, hn⟩ := spawns_download hok.2 hnext hm
        have htested : r = .tested := by
          rcases hn with hn | hn
          · cases r with
            | tested => rfl
            | apart => cases ha hn
          · exact h.tested n r hr hn
        refine hrun.step rfl (fun _ mask hm' => ?_) fun _ => if_pos hm
        exact h.network n mask (htested ▸ hr) (hmask.trans hm')
      · have hentry : networking.entry m = .apart := if_neg hm
        refine hrun.step rfl (fun hm' => ?_) fun hm' => absurd hm' hm
        rw [hentry] at hm'
        cases hm'
    | _ => exact hrun
  retire := fun s ρ n r h _ _ => ⟨fun m mask hm => h.network m mask (Protocol.role_retire hm).2,
    fun m r' hm => h.tested m r' (Protocol.role_retire hm).2⟩

end NetworkAux

open NetworkAux in
/-- As long as the network is within the mask when a request is tested, changes within the masks of the downloads under way, and there
is one when a transfer starts or a thread tests unless it is noted that there is none: whatever a thread does next starts or continues
a download only in a network it is allowed. -/
theorem networks_honoured (P : Platform) {d : Store} {c : Config}
    (h : Reach (machine P) (fun c a => withinMask c a = true) d.boot c) {n : Thread} {a : Answer}
    (hok : withinMask c (.run n a) = true) : Honours c n := by
  have hfits := Reach.strengthen (I := FlowsAux.Fits P) (fun _ hc => FlowsAux.fits_of_reach hc) h
  obtain ⟨⟨ρ, hρ, hJ⟩, -⟩ := (simulation P d).invariant hfits
  intro mask hmask
  cases hn : c.next n with
  | none => trivial
  | some o =>
    rw [withinMask, hn] at hok
    obtain ⟨r, hr, ha⟩ := hρ.allowed hn
    -- a transfer, and a test, are in the threads of a download that is under way
    have hallowed (ho : transfers o = true) : c.state.netType = .noNet ∨ c.state.netType.isIn mask = true := by
      refine hJ.network n mask ?_ hmask
      cases n with
      | download f d =>
        cases r with
        | tested => exact hr
        | apart => rw [ha rfl] at ho; cases ho
      | downloadExecutor | downloadThread => exact hJ.tested _ r hr rfl ▸ hr
      | _ => cases hmask
    cases o with
    | getNetType =>
      intro hin
      simpa only [hin, hmask, Bool.not_true, Bool.false_or, Option.all_some] using hok
    | getIsNoNet =>
      intro hnet
      simp only [hnet, hmask, Option.isNone_some, Bool.false_or, Bool.or_false, decide_eq_true_eq] at hok
      exact (hallowed rfl).resolve_left hok
    | ask q =>
      cases q with
      | curlPerform => exact (hallowed rfl).resolve_left (of_decide_eq_true hok)
      | _ => trivial
    | _ => trivial

/-- Whether a thread is about to start a transfer. -/
def Config.starts (c : Config) (n : Thread) : Bool := (c.next n).any fun o => match o with
  | .ask (.curlPerform _ _) => true
  | _ => false

/-- A phone gets a network, finds a version, and comes to transfer its package, for a request that allows WIFI. -/
def phoneTransfers (net : NetType) : List (Thread × Nat) :=
  [(.netChanged 0 net, 6), (.checkNewVersion 1, 9), (.checkExecutor 1, 28), (.download 2 {}, 10), (.downloadExecutor 2 {}, 10),
    (phoneThread 2, 4)]

/-- In such a network the option is honoured. -/
theorem networks_honoured_phone : ∃ c : Config, Config.starts c (phoneThread 2) = true ∧ c.state.netType = .notMeteredWifi ∧
    Honours c (phoneThread 2) := by
  have h : ((machine .phone).follow withinMask
      ((machine .phone).turns favourable (turnsOf (phoneTransfers .notMeteredWifi)) (Store.boot {})) (Store.boot {})).any (fun c =>
        Config.starts c (phoneThread 2) && c.state.netType = .notMeteredWifi && withinMask c (.run (phoneThread 2) .none)) =
      true := by decide +kernel
  obtain ⟨c, hc, hp⟩ := Reach.exists_of_follow h
  simp only [Bool.and_eq_true, decide_eq_true_eq] at hp
  exact ⟨c, hp.1.1, hp.1.2, networks_honoured .phone hc hp.2⟩

/-- In a cellular network the transfer starts all the same. -/
theorem network_not_honoured : ∃ c : Config, Reach (machine .phone) (fun _ _ => True) (Store.boot {}) c ∧
    ¬Honours c (phoneThread 2) := by
  have h : ((machine .phone).follow (fun _ _ => true)
      ((machine .phone).turns favourable (turnsOf (phoneTransfers .cellular)) (Store.boot {})) (Store.boot {})).any (fun c =>
        Config.starts c (phoneThread 2) && c.state.netType = .cellular) = true := by decide +kernel
  obtain ⟨c, hc, hp⟩ := Reach.exists_of_follow h
  simp only [Bool.and_eq_true, decide_eq_true_eq] at hp
  refine ⟨c, hc.mono fun _ _ _ => trivial, fun hhonours => ?_⟩
  obtain ⟨o, ho, htransfer⟩ := (Option.any_eq_true ..).mp hp.1
  have hmask := hhonours .wifi rfl
  rw [ho, hp.2] at hmask
  cases o with
  | ask q =>
    cases q with
    | curlPerform => cases hmask
    | _ => cases htransfer
  | _ => cases htransfer

end UpdateEngine
