import Mathlib.Data.List.Perm.Basic
import UpdateEngine.Client.Module
import UpdateEngine.Concurrent.System
import UpdateEngine.Theorems.Requests
import UpdateEngine.Theorems.UpgradeInfo

/-!
# One client for each `UpgradeInfo`

A script that asks for updaters gets the same native object for the same `UpgradeInfo` and different ones for different ones, however
often it asks and whatever it constructs besides; and each object that was handed out registers its callback once, under its own
`UpgradeInfo`, so that no client takes the events of another one.
-/

namespace UpdateEngine.Ipc.Client

open Concurrent
open Client.ClientHelper

namespace Module

/-- What is claimed of the clients that were handed out. -/
structure Shared (m : Module) : Prop where
  same : ∀ a ∈ m.handedOut, ∀ b ∈ m.handedOut, a.2 = b.2 ↔ a.1 = b.1
  once : (m.initThreads.map NativeObject.updateClient ++ m.registered.map Prod.fst).Nodup
  registers : ∀ a ∈ m.handedOut, a.2 ∈ m.initThreads ∨ (.updateClient a.2, a.1) ∈ m.registered
  own : ∀ client info, (.updateClient client, info) ∈ m.registered → (info, client) ∈ m.handedOut
  apart : ∀ client client' info, (.updateClient client, info) ∈ m.registered → (.updateClient client', info) ∈ m.registered →
    client = client'

end Module

namespace UpdatersAux

open Registry (key)
open Registry.MapAux (key_injective)
open UpdateHelper.OrderAux

variable {indeterminate : Int32} {m m' : Module} {client : Nat} {info : UpgradeInfo}

/-- A client that has been handed out, for an `UpgradeInfo`. -/
def Serves (m : Module) (client : Nat) (info : UpgradeInfo) : Prop :=
  ∃ c : OnlineUpdater, m.clients[client]? = some c ∧ c.isInit = true ∧ c.members.upgradeInfo = info

/-- What holds between the calls of a script: the map has an entry for each client that was made; a client that was not handed out has
the members it was made with; one that was is found under its own `UpgradeInfo`, and has a thread or a registration. -/
structure Filed (m : Module) : Prop where
  sorted : SortedMap.Sorted m.onlineUpdater
  numbered : ∀ e ∈ m.onlineUpdater, e.2 < m.clients.length
  apart : ∀ e ∈ m.onlineUpdater, ∀ e' ∈ m.onlineUpdater, e.2 = e'.2 → e.1 = e'.1
  fresh : ∀ (client : Nat) (c : OnlineUpdater), m.clients[client]? = some c → c.isInit = false → c.members.upgradeInfo = {}
  entry : ∀ client info, Serves m client info → (key info, client) ∈ m.onlineUpdater
  handedOut : ∀ client info, (info, client) ∈ m.handedOut ↔ Serves m client info
  threads : ∀ client, client ∈ m.initThreads → ∃ info, Serves m client info
  registered : ∀ client info, (.updateClient client, info) ∈ m.registered → Serves m client info
  registers : ∀ client info, Serves m client info → client ∈ m.initThreads ∨ (.updateClient client, info) ∈ m.registered
  once : (m.initThreads.map NativeObject.updateClient ++ m.registered.map Prod.fst).Nodup
  localUpdater : .localUpdater ∈ m.registered.map Prod.fst → m.localUpdater = some true

theorem Serves.unique {info' : UpgradeInfo} (h : Serves m client info) (h' : Serves m client info') : info = info' := by
  obtain ⟨c, hc, -, rfl⟩ := h
  obtain ⟨c', hc', -, rfl⟩ := h'
  rw [hc] at hc'
  cases hc'
  rfl

theorem filed_empty : Filed {} where
  sorted := .nil
  numbered := by simp
  apart := by simp
  fresh := by simp
  entry := by rintro client info ⟨c, hc, -⟩; simp at hc
  handedOut client info := by simp [Serves]
  threads := by simp
  registered := by simp
  registers := by rintro client info ⟨c, hc, -⟩; simp at hc
  once := by simp
  localUpdater := by simp

theorem Filed.shared (h : Filed m) : m.Shared where
  same := by
    rintro ⟨info, client⟩ ha ⟨info', client'⟩ hb
    have hserves := (h.handedOut client info).mp ha
    have hserves' := (h.handedOut client' info').mp hb
    constructor
    · rintro rfl
      exact hserves.unique hserves'
    · rintro rfl
      have hentry := (ComparedMap.mem_iff_find less_compares h.sorted _ _).mp (h.entry client info hserves)
      have hentry' := (ComparedMap.mem_iff_find less_compares h.sorted _ _).mp (h.entry client' info hserves')
      exact Option.some.inj (hentry.symm.trans hentry')
  once := h.once
  registers := by
    rintro ⟨info, client⟩ ha
    exact h.registers client info ((h.handedOut client info).mp ha)
  own client info hmem := (h.handedOut client info).mpr (h.registered client info hmem)
  apart client client' info hmem hmem' := by
    have hentry := (ComparedMap.mem_iff_find less_compares h.sorted _ _).mp (h.entry client info (h.registered client info hmem))
    have hentry' := (ComparedMap.mem_iff_find less_compares h.sorted _ _).mp (h.entry client' info (h.registered client' info hmem'))
    exact Option.some.inj (hentry.symm.trans hentry')

/-! ## The constructor -/

/-- What is read of an object does not fail. -/
theorem getUpgradeInfo_of_success {arg : Value} (h : (getUpgradeInfo indeterminate arg {}).1 = .CLIENT_SUCCESS) :
    getUpgradeInfo indeterminate arg {} = (.CLIENT_SUCCESS, Module.upgradeInfoOf indeterminate arg) := by
  rw [Module.upgradeInfoOf, ← h]

/-- The constructor makes nothing of what is no object; it finds a client, or it makes one. -/
inductive Constructed (indeterminate : Int32) (arg : Value) (m : Module) : Option Nat × Module → Prop
  | refused : Constructed indeterminate arg m (none, m)
  | found {client : Nat} (hsuccess : (getUpgradeInfo indeterminate arg {}).1 = .CLIENT_SUCCESS)
      (hfind : m.onlineUpdater.find (key (Module.upgradeInfoOf indeterminate arg)) = some client) :
      Constructed indeterminate arg m (some client, m)
  | made (hsuccess : (getUpgradeInfo indeterminate arg {}).1 = .CLIENT_SUCCESS)
      (hfind : m.onlineUpdater.find (key (Module.upgradeInfoOf indeterminate arg)) = none) :
      Constructed indeterminate arg m (some m.clients.length, { m with
        clients := m.clients ++ [({} : OnlineUpdater)]
        onlineUpdater := ComparedMap.assign UpdateHelper.UpgradeInfo.less (key (Module.upgradeInfoOf indeterminate arg))
          m.clients.length m.onlineUpdater })

theorem jsConstructor_cases (arg : Value) : Constructed indeterminate arg m (m.jsConstructor indeterminate arg) := by
  unfold Module.jsConstructor
  by_cases hret : (getUpgradeInfo indeterminate arg {}).1 = .CLIENT_SUCCESS
  · rw [getUpgradeInfo_of_success hret]
    dsimp only
    rw [if_neg (by simp)]
    split
    · exact .found hret ‹_›
    · exact .made hret ‹_›
  · dsimp only
    rw [if_pos hret]
    exact .refused

/-- The clients that are there serve as before when one is added. -/
theorem serves_append (h : m'.clients = m.clients ++ [({} : OnlineUpdater)]) : Serves m' client info ↔ Serves m client info := by
  unfold Serves
  rw [h]
  constructor
  · rintro ⟨c, hc, hinit, hinfo⟩
    rw [List.getElem?_append] at hc
    split_ifs at hc with hlt
    · exact ⟨c, hc, hinit, hinfo⟩
    · have hmem := List.mem_of_getElem? hc
      rw [List.mem_singleton] at hmem
      rw [hmem] at hinit
      cases hinit
  · rintro ⟨c, hc, hinit, hinfo⟩
    refine ⟨c, ?_, hinit, hinfo⟩
    rw [List.getElem?_append, if_pos (List.getElem?_eq_some_iff.mp hc).1]
    exact hc

/-- A client that is made: the map gets an entry, under a key that had none. -/
theorem Filed.make (h : Filed m) {k : UpdateHelper.UpgradeInfo} (hfind : m.onlineUpdater.find k = none) :
    Filed { m with
      clients := m.clients ++ [({} : OnlineUpdater)]
      onlineUpdater := ComparedMap.assign UpdateHelper.UpgradeInfo.less k m.clients.length m.onlineUpdater } := by
  obtain ⟨hsorted, hfinds⟩ := ComparedMap.assign_touches less_compares h.sorted k m.clients.length
  have hmem (e : UpdateHelper.UpgradeInfo × Nat) :
      e ∈ ComparedMap.assign UpdateHelper.UpgradeInfo.less k m.clients.length m.onlineUpdater ↔
        e = (k, m.clients.length) ∨ e ∈ m.onlineUpdater := by
    obtain ⟨k', client⟩ := e
    rw [ComparedMap.mem_iff_find less_compares hsorted, hfinds, ComparedMap.mem_iff_find less_compares h.sorted, Prod.mk.injEq]
    split_ifs with hk
    · subst hk
      have hnone : ComparedMap.find UpdateHelper.UpgradeInfo.less k m.onlineUpdater = none := hfind
      simp [hnone, eq_comm]
    · simp [Ne.symm hk]
  have hserves (client : Nat) (info : UpgradeInfo) : Serves { m with
      clients := m.clients ++ [({} : OnlineUpdater)]
      onlineUpdater := ComparedMap.assign UpdateHelper.UpgradeInfo.less k m.clients.length m.onlineUpdater } client info ↔
        Serves m client info := serves_append rfl
  refine ⟨hsorted, fun e he => ?_, fun e he e' he' heq => ?_, fun client c hc hinit => ?_, fun client info hs => ?_, fun client info => ?_,
    fun client hc => ?_, fun client info hr => ?_, fun client info hs => ?_, h.once, h.localUpdater⟩
  · have hlength : (m.clients ++ [({} : OnlineUpdater)]).length = m.clients.length + 1 := List.length_append
    rcases (hmem e).mp he with rfl | he
    · simp
    · have := h.numbered e he
      exact hlength ▸ Nat.lt_succ_of_lt this
  · -- the new client is no old one
    rcases (hmem e).mp he with rfl | he <;> rcases (hmem e').mp he' with rfl | he'
    · rfl
    · exact absurd heq.symm (Nat.ne_of_lt (h.numbered e' he'))
    · exact absurd heq (Nat.ne_of_lt (h.numbered e he))
    · exact h.apart e he e' he' heq
  · change (m.clients ++ [({} : OnlineUpdater)])[client]? = some c at hc
    rw [List.getElem?_append] at hc
    split_ifs at hc
    · exact h.fresh client c hc hinit
    · rw [List.mem_singleton.mp (List.mem_of_getElem? hc)]
  · exact (hmem _).mpr (.inr (h.entry client info ((hserves client info).mp hs)))
  · rw [hserves]
    exact h.handedOut client info
  · obtain ⟨info, hs⟩ := h.threads client hc
    exact ⟨info, (hserves client info).mpr hs⟩
  · exact (hserves client info).mpr (h.registered client info hr)
  · exact h.registers client info ((hserves client info).mp hs)

theorem Filed.construct (h : Filed m) {arg : Value} {r : Option Nat × Module} (hr : Constructed indeterminate arg m r) : Filed r.2 := by
  cases hr with
  | refused | found => exact h
  | made _ hfind => exact h.make hfind

/-! ## The updaters -/

/-- The client that a constructor gives is there, under the `UpgradeInfo` of its argument. -/
theorem Filed.constructed (h : Filed m) {arg : Value} {r : Option Nat × Module} (hr : Constructed indeterminate arg m r)
    (hclient : r.1 = some client) :
    (key (Module.upgradeInfoOf indeterminate arg), client) ∈ r.2.onlineUpdater ∧
      ∃ c : OnlineUpdater, r.2.clients[client]? = some c := by
  cases hr with
  | refused => cases hclient
  | found _ hfind =>
    cases hclient
    have hmem := (ComparedMap.mem_iff_find less_compares h.sorted _ _).mpr hfind
    exact ⟨hmem, _, List.getElem?_eq_getElem (h.numbered _ hmem)⟩
  | made _ hfind =>
    cases hclient
    obtain ⟨hsorted, hfinds⟩ := ComparedMap.assign_touches less_compares h.sorted (key (Module.upgradeInfoOf indeterminate arg))
      m.clients.length
    refine ⟨?_, {}, by simp⟩
    rw [ComparedMap.mem_iff_find less_compares hsorted, hfinds, if_pos rfl]

/-- A client in the place of one that is there. -/
theorem serves_set {c : OnlineUpdater} (hclient : client < m.clients.length) (h : m'.clients = m.clients.set client c) {j : Nat} :
    Serves m' j info ↔ (j = client ∧ c.isInit = true ∧ c.members.upgradeInfo = info) ∨ (j ≠ client ∧ Serves m j info) := by
  unfold Serves
  rw [h, List.getElem?_set]
  by_cases hj : client = j
  · subst hj
    simp [hclient]
  · simp [hj, Ne.symm hj]

/-- A client that is handed out once more. -/
theorem Filed.again (h : Filed m) (hs : Serves m client info) : Filed { m with handedOut := m.handedOut ++ [(info, client)] } where
  sorted := h.sorted
  numbered := h.numbered
  apart := h.apart
  fresh := h.fresh
  entry := h.entry
  handedOut client' info' := by
    rw [List.mem_append, List.mem_singleton, h.handedOut]
    constructor
    · rintro (hs' | heq)
      · exact hs'
      · cases heq
        exact hs
    · exact .inl
  threads := h.threads
  registered := h.registered
  registers := h.registers
  once := h.once
  localUpdater := h.localUpdater

/-- A client that is handed out for the first time: nobody has registered it. -/
theorem Filed.init (h : Filed m) {c : OnlineUpdater} (hc : m.clients[client]? = some c) (hinit : c.isInit = false)
    (hentry : (key info, client) ∈ m.onlineUpdater) :
    Filed { m with
      clients := m.clients.set client { members := { c.members with upgradeInfo := info }, isInit := true }
      initThreads := m.initThreads ++ [client]
      handedOut := m.handedOut ++ [(info, client)] } := by
  have hnew (info' : UpgradeInfo) : ¬ Serves m client info' := by
    rintro ⟨c', hc', hinit', -⟩
    rw [hc] at hc'
    cases hc'
    rw [hinit] at hinit'
    cases hinit'
  have hserves (j : Nat) (info' : UpgradeInfo) : Serves { m with
      clients := m.clients.set client { members := { c.members with upgradeInfo := info }, isInit := true }
      initThreads := m.initThreads ++ [client]
      handedOut := m.handedOut ++ [(info, client)] } j info' ↔ (j = client ∧ info = info') ∨ Serves m j info' := by
    rw [serves_set (List.getElem?_eq_some_iff.mp hc).1 rfl]
    by_cases hj : j = client
    · subst hj
      simp [hnew]
    · simp [hj]
  refine ⟨h.sorted, ?_, h.apart, fun j c' hc' hinit' => ?_, fun j info' hs => ?_, fun j info' => ?_, fun j hj => ?_, fun j info' hr => ?_,
    fun j info' hs => ?_, ?_, h.localUpdater⟩
  · simpa using h.numbered
  · change (m.clients.set client _)[j]? = some c' at hc'
    rw [List.getElem?_set] at hc'
    split_ifs at hc'
    · cases hc'
      cases hinit'
    · exact h.fresh j c' hc' hinit'
  · rcases (hserves j info').mp hs with ⟨rfl, rfl⟩ | hs
    · exact hentry
    · exact h.entry j info' hs
  · rw [hserves, List.mem_append, List.mem_singleton, Prod.mk.injEq, h.handedOut, or_comm]
    simp only [and_comm, eq_comm]
  · rcases List.mem_append.mp hj with hj | hj
    · obtain ⟨info', hs⟩ := h.threads j hj
      exact ⟨info', (hserves j info').mpr (.inr hs)⟩
    · exact ⟨info, (hserves j info).mpr (.inl ⟨List.mem_singleton.mp hj, rfl⟩)⟩
  · exact (hserves j info').mpr (.inr (h.registered j info' hr))
  · rcases (hserves j info').mp hs with ⟨rfl, rfl⟩ | hs
    · exact .inl (by simp)
    · exact (h.registers j info' hs).imp_left fun hj => List.mem_append_left _ hj
  · have hthread : NativeObject.updateClient client ∉ m.initThreads.map NativeObject.updateClient := by
      intro hmem
      obtain ⟨j, hj, heq⟩ := List.mem_map.mp hmem
      cases heq
      obtain ⟨info', hs⟩ := h.threads client hj
      exact hnew info' hs
    have hregistered : NativeObject.updateClient client ∉ m.registered.map Prod.fst := by
      intro hmem
      obtain ⟨⟨_, info'⟩, hr, rfl⟩ := List.mem_map.mp hmem
      exact hnew info' (h.registered client info' hr)
    have hone : (NativeObject.updateClient client :: (m.initThreads.map NativeObject.updateClient ++ m.registered.map Prod.fst)).Nodup :=
      List.nodup_cons.mpr ⟨fun hmem => (List.mem_append.mp hmem).elim hthread hregistered, h.once⟩
    rw [List.map_append, List.append_assoc]
    exact List.perm_middle.nodup_iff.mpr hone

/-- `GetOnlineUpdater`, with what it has handed out. -/
theorem Filed.getOnlineUpdater (h : Filed m) (args : List Value) (hs : m.step indeterminate (.getOnlineUpdater args) = some m') :
    Filed m' := by
  simp only [Module.step] at hs
  have hconstructed : Constructed indeterminate (argument args 0) m (m.jsConstructor indeterminate (argument args 0)) :=
    jsConstructor_cases (argument args 0)
  have hfiled := h.construct hconstructed
  have hclient {client : Nat} : (m.jsConstructor indeterminate (argument args 0)).1 = some client → _ := h.constructed hconstructed
  unfold Module.getOnlineUpdater at hs
  cases hr : m.jsConstructor indeterminate (argument args 0) with
  | mk found m₁ =>
    rw [hr] at hs hconstructed hfiled hclient
    cases found with
    | none =>
      cases hs
      exact hfiled
    | some client =>
      obtain ⟨hentry, c, hc⟩ := hclient rfl
      have hsuccess : (getUpgradeInfo indeterminate (argument args 0) {}).1 = .CLIENT_SUCCESS := by
        cases hconstructed <;> assumption
      unfold Module.initClient at hs
      dsimp only at hs hc hentry
      by_cases hargs : args.isEmpty
      · rw [if_pos hargs] at hs
        cases hs
        exact hfiled
      rw [if_neg hargs, hc] at hs
      dsimp only at hs
      by_cases hinit : c.isInit
      · -- the client is the one of the same `UpgradeInfo`
        rw [if_pos hinit] at hs
        cases hs
        have hserves : Serves m₁ client c.members.upgradeInfo := ⟨c, hc, hinit, rfl⟩
        have hkey := hfiled.apart _ (hfiled.entry client _ hserves) _ hentry rfl
        rw [key_injective hkey] at hserves
        exact hfiled.again hserves
      · have hfresh : c.members.upgradeInfo = {} := hfiled.fresh client c hc (by simpa using hinit)
        rw [if_neg hinit, hfresh, getUpgradeInfo_of_success hsuccess] at hs
        dsimp only at hs
        rw [if_neg (by simp)] at hs
        cases hs
        exact hfiled.init hc (by simpa using hinit) hentry

/-! ## The other steps -/

theorem Filed.getLocalUpdater (h : Filed m) : Filed m.getLocalUpdater := by
  have hconstructed : Filed m.jsConstructorLocalUpdater := { h with
    localUpdater := fun hmem => by
      have hinit := h.localUpdater hmem
      simp [Module.jsConstructorLocalUpdater, hinit] }
  unfold Module.getLocalUpdater
  dsimp only
  split_ifs with hinit
  · exact hconstructed
  · refine { hconstructed with
      registered := fun client info hr => ?_, registers := fun client info hs => ?_, once := ?_, localUpdater := fun _ => rfl }
    · rcases List.mem_append.mp hr with hr | hr
      · exact h.registered client info hr
      · cases List.mem_singleton.mp hr
    · exact (h.registers client info hs).imp_right fun hr => List.mem_append_left _ hr
    · have hnew : NativeObject.localUpdater ∉ m.initThreads.map NativeObject.updateClient ++ m.registered.map Prod.fst := by
        intro hmem
        rcases List.mem_append.mp hmem with hmem | hmem
        · simp at hmem
        · exact hinit (hconstructed.localUpdater hmem)
      change (m.initThreads.map NativeObject.updateClient ++ (m.registered ++ [_]).map Prod.fst).Nodup
      rw [List.map_append, ← List.append_assoc, List.map_singleton]
      exact List.nodup_append.mpr ⟨h.once, by simp, fun a ha b hb hab => hnew (by
        rw [List.mem_singleton.mp hb] at hab
        rwa [hab] at ha)⟩

theorem Filed.initCallback (h : Filed m) {i : Nat} (hs : m.initCallback i = some m') : Filed m' := by
  unfold Module.initCallback at hs
  cases hthread : m.initThreads[i]? with
  | none => simp [hthread] at hs
  | some client =>
    obtain ⟨hi, hget⟩ := List.getElem?_eq_some_iff.mp hthread
    have hmem : client ∈ m.initThreads := hget ▸ List.getElem_mem hi
    obtain ⟨info, c, hc, hinit, hinfo⟩ := h.threads client hmem
    simp only [hthread, hc, Option.map_some, Option.some.injEq] at hs
    subst hs
    -- the thread leaves, and its registration comes
    have hthreads : (client :: m.initThreads.eraseIdx i).Perm m.initThreads := by
      rw [← hget]
      exact List.getElem_cons_eraseIdx_perm hi
    have hserves : Serves m client c.members.upgradeInfo := ⟨c, hc, hinit, rfl⟩
    refine { h with
      threads := fun j hj => h.threads j (hthreads.mem_iff.mp (List.mem_cons_of_mem _ hj))
      registered := fun j info' hr => ?_, registers := fun j info' hs => ?_, once := ?_, localUpdater := fun hmem => ?_ }
    · rcases List.mem_append.mp hr with hr | hr
      · exact h.registered j info' hr
      · cases List.mem_singleton.mp hr
        exact hserves
    · rcases h.registers j info' hs with hj | hr
      · rcases List.mem_cons.mp (hthreads.mem_iff.mpr hj) with rfl | hj
        · rw [hs.unique hserves]
          exact .inr (by simp)
        · exact .inl hj
      · exact .inr (List.mem_append_left _ hr)
    · refine (List.Perm.nodup_iff ?_).mpr h.once
      rw [List.map_append, List.map_singleton, ← List.append_assoc]
      refine (List.perm_append_singleton _ _).trans ?_
      exact (hthreads.map NativeObject.updateClient).append_right _
    · exact h.localUpdater (by simpa using hmem)

/-- A method of a client leaves its `UpgradeInfo` alone, and so do the workers of its sessions. -/
theorem methods_keep {σ : Type} {method : Method UpdateClient σ} (hm : method ∈ UpdateClient.methods) (args : List Value)
    (c : UpdateClient) :
    (method args c).1.upgradeInfo = c.upgradeInfo ∧ ∀ request, (method args c).2 = some request → ∀ kit c' businessError s,
      (request.doWorker kit c' businessError s).1.2.1.upgradeInfo = c'.upgradeInfo := by
  simp only [UpdateClient.methods, List.mem_cons, List.not_mem_nil, or_false] at hm
  rcases hm with rfl | rfl | rfl | rfl | rfl | rfl | rfl | rfl | rfl | rfl | rfl | rfl | rfl | rfl | rfl
  all_goals refine ⟨rfl, fun request hrequest kit c' businessError s => ?_⟩
  · cases hrequest
    rfl
  · simp only [UpdateClient.cancelUpgrade] at hrequest
    split_ifs at hrequest
    cases hrequest
    rfl
  · rw [RequestsAux.doWorker_request hrequest]
    rfl
  · cases hrequest
    rfl
  · rw [RequestsAux.doWorker_request hrequest]
    rfl
  · rw [RequestsAux.doWorker_request hrequest]
    rfl
  · rw [RequestsAux.doWorker_request hrequest]
    rfl
  · cases hrequest
    rfl
  · rw [RequestsAux.doWorker_request hrequest]
    rfl
  · cases hrequest
    rfl
  · cases hrequest
    rfl
  · rw [RequestsAux.doWorker_request hrequest]
    rfl
  · cases hrequest
    rfl
  · rw [RequestsAux.doWorker_request hrequest]
    rfl
  · cases hrequest
    rfl

/-- So what is changed of the members is not the `UpgradeInfo`. -/
theorem Filed.changesMembers (h : Filed m) {members : UpdateClient}
    (hs : m.step indeterminate (.changesMembers client members) = some m') : Filed m' := by
  simp only [Module.step] at hs
  cases hc : m.clients[client]? with
  | none => simp [hc] at hs
  | some c =>
    simp only [hc] at hs
    split_ifs at hs with hinfo
    cases hs
    have hserves (j : Nat) (info : UpgradeInfo) :
        Serves { m with clients := m.clients.set client { c with members } } j info ↔ Serves m j info := by
      rw [serves_set (List.getElem?_eq_some_iff.mp hc).1 rfl]
      by_cases hj : j = client
      · subst hj
        simp [Serves, hc, hinfo]
      · simp [hj]
    refine ⟨h.sorted, ?_, h.apart, fun j c' hc' hinit' => ?_, fun j info hs => h.entry j info ((hserves j info).mp hs),
      fun j info => (h.handedOut j info).trans (hserves j info).symm,
      fun j hj => (h.threads j hj).imp fun info hs => (hserves j info).mpr hs,
      fun j info hr => (hserves j info).mpr (h.registered j info hr),
      fun j info hs => h.registers j info ((hserves j info).mp hs), h.once, h.localUpdater⟩
    · simpa using h.numbered
    · change (m.clients.set client _)[j]? = some c' at hc'
      rw [List.getElem?_set] at hc'
      split_ifs at hc' with hj
      · cases hc'
        rw [hinfo]
        exact h.fresh client c hc hinit'
      · exact h.fresh j c' hc' hinit'

theorem filed_step {a : Module.Action} (h : Filed m) (hs : m.step indeterminate a = some m') : Filed m' := by
  cases a with
  | construct arg =>
    cases hs
    exact h.construct (jsConstructor_cases arg)
  | getOnlineUpdater args => exact h.getOnlineUpdater args hs
  | constructLocalUpdater =>
    cases hs
    exact { h with
      localUpdater := fun hmem => by
        have hinit := h.localUpdater hmem
        simp [Module.jsConstructorLocalUpdater, hinit] }
  | getLocalUpdater =>
    cases hs
    exact h.getLocalUpdater
  | initCallback i => exact h.initCallback hs
  | changesMembers client members => exact h.changesMembers hs

end UpdatersAux

open UpdatersAux

/-- After any calls of a script, with any steps of the threads in between: two calls were given the same client exactly when they asked
for the same `UpgradeInfo`; no object registers twice, and each client that was handed out has registered or is about to, under the
`UpgradeInfo` it was asked for, so that no two clients register under the same one. -/
theorem updaters_shared {indeterminate : Int32} {m : Module}
    (h : Leads (Module.step indeterminate) (fun _ _ => True) {} m) : m.Shared := by
  refine Filed.shared ?_
  exact h.invariant (I := Filed) filed_empty fun m a m' hm _ hs => filed_step hm hs

/-- An updater that is asked for after a constructor has refused its argument. -/
def onePhone : List Module.Action :=
  [.construct .undefined, .getOnlineUpdater [.object [("upgradeApp", .string "phone")]], .initCallback 0]

theorem updaters_shared_phone : ∃ m : Module, m.Shared ∧ m.handedOut = [({ upgradeApp := "phone" }, 0)] ∧
    m.registered = [(.updateClient 0, { upgradeApp := "phone" })] := by
  have hfollow : (follow (Module.step 0) (fun _ _ => true) onePhone {}).any (fun m => decide (
      m.handedOut = [({ upgradeApp := "phone" }, 0)] ∧ m.registered = [(.updateClient 0, { upgradeApp := "phone" })])) = true := by
    decide
  obtain ⟨m, hleads, hm⟩ := Leads.exists_of_follow hfollow
  exact ⟨m, updaters_shared (hleads.mono fun _ _ _ => trivial), of_decide_eq_true hm⟩

end UpdateEngine.Ipc.Client
