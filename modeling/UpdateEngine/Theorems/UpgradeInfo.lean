import Mathlib.Data.List.Basic
import UpdateEngine.Engine.UpgradeInfo
import UpdateEngine.Lemmas.TextAux
import UpdateEngine.Theorems.Registry

/-!
# The order of `UpgradeInfo`, and what is registered under it

`operator<` is the order of the five fields in turn, so that the maps of callbacks have one entry for each `UpgradeInfo`, whatever is
registered and removed in whatever order. The service that uses such a map is the service that looks its clients up by equality.
-/

namespace UpdateEngine.UpdateHelper

open Comparison

/-! ## The order -/

namespace OrderAux

/-- The bytes of a text as numbers. -/
def stringKey : Bytes → List ℕ := List.map UInt8.toNat

theorem stringKey_injective : Function.Injective stringKey := List.map_injective_iff.mpr fun _ _ => UInt8.toNat_inj.mp

theorem stringLess_compares : Compares stringLess stringKey :=
  Compares.row fun _ _ => decide_eq_true_iff

/-- The fields of a `BusinessType` in turn. -/
def businessKey (b : BusinessType) : Lex (List ℕ × ℤ) := toLex (stringKey b.vendor, b.subType.toInt)

theorem businessKey_injective : Function.Injective businessKey := by
  intro b b' h
  obtain ⟨hvendor, hsubType⟩ := Prod.mk.inj (toLex.injective h)
  cases b
  cases b'
  simp only [BusinessType.mk.injEq]
  exact ⟨stringKey_injective hvendor, Int32.toInt_inj.mp hsubType⟩

theorem castLess_compares : Compares castLess Int32.toInt := fun _ _ => decide_eq_true_iff

theorem businessLess_compares : Compares BusinessType.less businessKey :=
  (stringLess_compares.comp BusinessType.vendor).thenBy (castLess_compares.comp BusinessType.subType).thenBy_never

/-- The fields of an `UpgradeInfo` in turn. -/
def upgradeKey (u : UpgradeInfo) : Lex (List ℕ × Lex (Lex (List ℕ × ℤ) × Lex (List ℕ × List ℕ))) :=
  toLex (stringKey u.upgradeApp, toLex (businessKey u.businessType, toLex (stringKey u.upgradeDevId, stringKey u.controlDevId)))

theorem upgradeKey_injective : Function.Injective upgradeKey := by
  intro u u' h
  obtain ⟨happ, h⟩ := Prod.mk.inj (toLex.injective h)
  obtain ⟨hbusiness, h⟩ := Prod.mk.inj (toLex.injective h)
  obtain ⟨hdev, hcontrol⟩ := Prod.mk.inj (toLex.injective h)
  cases u
  cases u'
  simp only [UpgradeInfo.mk.injEq]
  exact ⟨stringKey_injective happ, businessKey_injective hbusiness, stringKey_injective hdev, stringKey_injective hcontrol⟩

theorem upgradeLess_compares : Compares UpgradeInfo.less upgradeKey :=
  (stringLess_compares.comp UpgradeInfo.upgradeApp).thenBy <|
    (businessLess_compares.comp UpgradeInfo.businessType).thenBy <|
      (stringLess_compares.comp UpgradeInfo.upgradeDevId).thenBy <|
        (stringLess_compares.comp UpgradeInfo.controlDevId).thenBy_never

/-- The maps are kept in this order. -/
instance : LinearOrder UpgradeInfo := LinearOrder.lift' upgradeKey upgradeKey_injective

theorem less_compares : Compares UpgradeInfo.less id := fun l r => upgradeLess_compares l r

end OrderAux

/-! ## The maps -/

/-- The map has one entry for each `UpgradeInfo` that something is registered for, and finds that. -/
structure CallbackMap.Holds {ν : Type} (m : CallbackMap ν) (registered : UpgradeInfo → Option ν) : Prop where
  nodup : (m.map Prod.fst).Nodup
  mem_iff : ∀ info v, (info, v) ∈ m ↔ registered info = some v
  find_eq : ∀ info, m.find info = registered info

namespace OrderAux

variable {ν : Type} {m : CallbackMap ν}

theorem serviceSection_touches (hm : SortedMap.Sorted m) (s : UpdateService.Section ν) :
    ComparedMap.Touches UpgradeInfo.less m (s.run m) s.info (s.entry (m.find s.info)) := by
  cases s with
  | unregisterUpdateCallback info =>
    simp only [UpdateService.Section.run, UpdateService.Section.info, UpdateService.Section.entry]
    split
    · exact ComparedMap.touches_self hm ‹_›
    · exact ComparedMap.erase_touches less_compares hm info
  | insertClient info clientProxy => exact ComparedMap.insert_touches less_compares hm info clientProxy

theorem kitSection_touches (hm : SortedMap.Sorted m) (s : UpdateServiceKitsImpl.Section ν) :
    ComparedMap.Touches UpgradeInfo.less m (s.run m) s.info (s.entry (m.find s.info)) := by
  cases s with
  | registerUpdateCallback info remoteUpdateCallback ret =>
    simp only [UpdateServiceKitsImpl.Section.run, UpdateServiceKitsImpl.Section.info, UpdateServiceKitsImpl.Section.entry]
    split
    · exact ComparedMap.assign_touches less_compares hm info remoteUpdateCallback
    · exact ComparedMap.touches_self hm rfl
  | unregisterUpdateCallback info => exact ComparedMap.erase_touches less_compares hm info

/-- A map that was made by sections holds what the sections about each `UpgradeInfo` have left. -/
theorem holds_foldl {σ : Type} {run : CallbackMap ν → σ → CallbackMap ν} {info : σ → UpgradeInfo} {entry : Option ν → σ → Option ν}
    (hrun : ∀ m s, SortedMap.Sorted m → ComparedMap.Touches UpgradeInfo.less m (run m s) (info s) (entry (CallbackMap.find m (info s)) s))
    (l : List σ) : CallbackMap.Holds (l.foldl run []) fun i => (l.filter fun s => info s = i).foldl entry none := by
  obtain ⟨hsorted, hfind⟩ := ComparedMap.find_foldl hrun List.Pairwise.nil l
  refine ⟨SortedMap.nodup_keys hsorted, fun i v => ?_, hfind⟩
  rw [ComparedMap.mem_iff_find less_compares hsorted, hfind]
  rfl

end OrderAux

/-- `operator<` of `UpgradeInfo` is a strict order, and infos of which neither is less agree in all fields that identify them; the maps
of callbacks have one entry for each `UpgradeInfo`, and what is done for one of them does not touch another one. -/
theorem upgradeInfo_keys :
    ((∀ a : UpgradeInfo, a.less a = false) ∧
      (∀ a b c : UpgradeInfo, a.less b = true → b.less c = true → a.less c = true) ∧
      ∀ a b : UpgradeInfo, a.less b = false → b.less a = false →
        a.upgradeApp = b.upgradeApp ∧ a.businessType.vendor = b.businessType.vendor ∧
          a.businessType.subType = b.businessType.subType ∧ a.upgradeDevId = b.upgradeDevId ∧ a.controlDevId = b.controlDevId) ∧
    ∀ ν : Type,
      (∀ l : List (UpdateService.Section ν), CallbackMap.Holds (l.foldl UpdateService.Section.run [])
        fun info => (l.filter fun s => s.info = info).foldl UpdateService.Section.entry none) ∧
      ∀ l : List (UpdateServiceKitsImpl.Section ν), CallbackMap.Holds (l.foldl UpdateServiceKitsImpl.Section.run [])
        fun info => (l.filter fun s => s.info = info).foldl UpdateServiceKitsImpl.Section.entry none := by
  have hless := OrderAux.upgradeLess_compares
  refine ⟨⟨hless.irrefl, fun a b c => hless.trans, fun a b hab hba => ?_⟩, fun ν => ⟨fun l => ?_, fun l => ?_⟩⟩
  · obtain rfl : a = b := OrderAux.upgradeKey_injective (hless.key_eq hab hba)
    exact ⟨rfl, rfl, rfl, rfl, rfl⟩
  · exact OrderAux.holds_foldl (fun m s hm => OrderAux.serviceSection_touches hm s) l
  · exact OrderAux.holds_foldl (fun m s hm => OrderAux.kitSection_touches hm s) l

end UpdateEngine.UpdateHelper

/-! ## The service with its map -/

namespace UpdateEngine.Registry

open Concurrent
open UpdateHelper (CallbackMap)

namespace MapAux

variable {s : Service} {m : CallbackMap ClientProxy}

theorem key_injective : Function.Injective key := by
  have htext : ∀ t t' : String, t.toUTF8.toList = t'.toUTF8.toList → t = t' := by
    intro t t' h
    rw [← TextAux.textOf_toUTF8 t, h, TextAux.textOf_toUTF8]
  rintro ⟨app, ⟨vendor, subType⟩, dev, control⟩ ⟨app', ⟨vendor', subType'⟩, dev', control'⟩ h
  simp only [key, UpdateHelper.UpgradeInfo.mk.injEq, UpdateHelper.BusinessType.mk.injEq] at h
  obtain ⟨happ, ⟨hvendor, rfl⟩, hdev, hcontrol⟩ := h
  rw [htext _ _ happ, htext _ _ hvendor, htext _ _ hdev, htext _ _ hcontrol]

/-- The map has what the service has: it is sorted, has no other keys, and finds the same clients. -/
structure Represents (m : CallbackMap ClientProxy) (s : Service) : Prop where
  sorted : SortedMap.Sorted m
  keys : ∀ e ∈ m, ∃ info, key info = e.1
  find_eq : ∀ info, m.find (key info) = s.client info

theorem Represents.of_eq {s' : Service} (h : Represents m s) (hmap : s'.clientProxyMap = s.clientProxyMap) : Represents m s' :=
  ⟨h.sorted, h.keys, fun info => by rw [h.find_eq, Service.client, Service.client, hmap]⟩

/-- A section about one `UpgradeInfo` that the service does the same to. -/
theorem Represents.of_section {s' : Service} (h : Represents m s) (t : UpdateHelper.UpdateService.Section ClientProxy)
    {info : Ipc.UpgradeInfo} (ht : t.info = key info)
    (hclient : ∀ j, s'.client j = if j = info then t.entry (s.client info) else s.client j) : Represents (t.run m) s' := by
  obtain ⟨hsorted, hfind⟩ := UpdateHelper.OrderAux.serviceSection_touches h.sorted t
  rw [ht, h.find_eq] at hfind
  refine ⟨hsorted, fun e he => ?_, fun j => ?_⟩
  · have hin := (ComparedMap.mem_iff_find UpdateHelper.OrderAux.less_compares hsorted e.1 e.2).mp he
    rw [hfind] at hin
    split_ifs at hin with hk
    · exact ⟨info, hk⟩
    · exact h.keys e ((ComparedMap.mem_iff_find UpdateHelper.OrderAux.less_compares h.sorted e.1 e.2).mpr hin)
  · rw [CallbackMap.find, hfind, hclient]
    by_cases hj : j = info
    · rw [hj, if_pos rfl, if_pos rfl]
    · rw [if_neg fun hk => hj (key_injective hk).symm, if_neg hj]
      exact h.find_eq j

/-- The map is empty when the service has no clients. -/
theorem Represents.isEmpty_eq (h : Represents m s) : m.isEmpty = s.clientProxyMap.isEmpty := by
  rw [Bool.eq_iff_iff, List.isEmpty_iff, List.isEmpty_iff]
  constructor
  · intro hm
    rw [List.eq_nil_iff_forall_not_mem]
    rintro ⟨info, c⟩ he
    have hnone : s.client info = none := by rw [← h.find_eq, hm]; rfl
    have hne := List.lookup_eq_none_iff.mp hnone _ he
    simp at hne
  · intro hs
    rw [List.eq_nil_iff_forall_not_mem]
    intro e he
    obtain ⟨info, hk⟩ := h.keys e he
    have hfind := (ComparedMap.mem_iff_find UpdateHelper.OrderAux.less_compares h.sorted e.1 e.2).mp he
    have hnone := h.find_eq info
    rw [hk, CallbackMap.find, hfind, Service.client, hs] at hnone
    cases hnone

/-- The map gives the answers of the service. -/
theorem Represents.answerOf_eq (h : Represents m s) (o : Op) : o.answerOf s m = o.answer s := by
  cases o with
  | eraseClient info => rw [Op.answerOf, Op.answer, h.find_eq]
  | getClient info => rw [Op.answerOf, Op.answer, h.find_eq]
  | isEmpty => rw [Op.answerOf, Op.answer, h.isEmpty_eq]
  | lock | unlock | insertClient | setUpgradeInfo | getUpgradeInfo | setRemoteIdle | onCheckVersionDone | onEvent | notifyToHap => rfl

/-- An operation does the same to the map and to the service. -/
theorem Represents.effect (h : Represents m s) (n : Thread) (o : Op) : Represents (o.mapEffect s m) (o.effect n s) := by
  cases o with
  | eraseClient info => exact h.of_section (.unregisterUpdateCallback (key info)) rfl (RegistryAux.client_eraseClient n s info)
  | insertClient info updateCallback =>
    refine h.of_section (.insertClient (key info) { proxy := updateCallback, deathRecipient := s.nextRecipient }) rfl fun j => ?_
    rw [Op.effect, RegistryAux.client_insertClient]
    by_cases hj : j = info <;> simp [hj, UpdateHelper.UpdateService.Section.entry]
  | setUpgradeInfo info => exact h.of_eq (RegistryAux.setUpgradeInfo_same s info).1
  | lock | unlock | isEmpty | getClient | getUpgradeInfo | setRemoteIdle | onCheckVersionDone | onEvent | notifyToHap => exact h.of_eq rfl

theorem Represents.starts {s' : Service} {n : Thread} (h : Represents m s) (hs : starts n s = some s') : Represents m s' := by
  refine h.of_eq ?_
  unfold Registry.starts at hs
  split at hs
  · split_ifs at hs
    cases hs
    rfl
  · split_ifs at hs
    cases hs
    rfl
  · cases hs
    rfl

end MapAux

/-- Every run of the service with its map is a run of the service, and the map has one entry for each client. -/
theorem mapMachine_refines {c : Concurrent.Config Op Op.Res (Service × CallbackMap ClientProxy) Thread}
    (h : Reach mapMachine (fun _ _ => True) ⟨({}, []), []⟩ c) :
    Reach machine (fun _ _ => True) ⟨{}, []⟩ ⟨c.state.1, c.pool⟩ ∧ MapAux.Represents c.state.2 c.state.1 := by
  induction h with
  | refl => exact ⟨.refl, List.Pairwise.nil, by simp, fun _ => rfl⟩
  | @step c c' a _ _ hs ih =>
    obtain ⟨hreach, hrep⟩ := ih
    cases a with
    | start n =>
      obtain ⟨hn, s', hstarts, rfl⟩ := step_start hs
      obtain ⟨s₁, hs₁, rfl⟩ := Option.map_eq_some_iff.mp hstarts
      exact ⟨.step hreach trivial (start_step hn hs₁), hrep.starts hs₁⟩
    | run n a =>
      obtain ⟨o, k, x, s', hf, _, _, hx, rfl⟩ := step_run hs
      obtain ⟨y, hy, he⟩ := Option.map_eq_some_iff.mp hx
      obtain ⟨rfl, rfl⟩ := Prod.mk.inj he
      rw [hrep.answerOf_eq] at hy
      have hexec : machine.exec n o a c.state.1 = some (y, o.effect n c.state.1) := by
        change (o.answer c.state.1).map (fun x => (x, o.effect n c.state.1)) = _
        rw [hy, Option.map_some]
      have hstep := @run_step Op Op.Res Service Unit Thread _ machine ⟨c.state.1, c.pool⟩ n a o k y _ hf (by simp [machine])
        (by simp [machine]) hexec
      exact ⟨.step hreach trivial hstep, hrep.effect n o⟩

end UpdateEngine.Registry
