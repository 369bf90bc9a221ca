import Mathlib.Data.List.TakeWhile
import UpdateEngine.Client.Helper
import UpdateEngine.Theorems.Events

/-!
# The two routes of an event

An event goes to the callback of a client, where a script is handed an object, or, without one, to an application as a text. Where the
text says what the event says, it is the text of that object exactly when the object leaves nothing out (it drops messages without a code
and components without a type) and the sizes are in the range of its numbers.
-/

namespace UpdateEngine.Ipc

/-- An object carries the whole task body: every message that is listed has a code, and every component a type and a size in the range of
a number of the object. -/
structure TaskBody.Carried (template : UInt32) (t : TaskBody) : Prop where
  errorMessages : template &&& ERROR_MESSAGE ≠ 0 → ∀ m ∈ t.errorMessages, m.errorCode ≠ 0
  versionComponents : template &&& VERSION_COMPONENT ≠ 0 →
    ∀ c ∈ t.versionComponents, c.componentType ≠ ClientHelper.INVALID ∧ c.size.toNat < 2 ^ 31

namespace Client

open JsonText (PlainText decode)

/-- A value that a script reads from a text. -/
def ofJson : JsonText.Value → Value
  | .null => .null
  | .bool b => .boolean b
  | .num m e => .number (if 0 ≤ e then m * 10 ^ e.toNat else m.tdiv (10 ^ (-e).toNat))
  | .str s => .string s
  | .arr l => .array (l.map ofJson)
  | .obj l => .object (l.map fun kv => (kv.1, ofJson kv.2))
decreasing_by
  · decreasing_tactic
  · exact JsonText.sizeOf_snd_lt ‹_›

namespace RoutesAux

open EventsAux
open Client.ClientHelper Client.NapiUtil

/-! ## Lists -/

theorem map_filter_eq_map_iff {α β : Type} {p : α → Bool} {f g : α → β} {l : List α} :
    (l.filter p).map f = l.map g ↔ ∀ a ∈ l, p a = true ∧ f a = g a := by
  constructor
  · intro h
    have hlength : (l.filter p).length = l.length := by
      have := congrArg List.length h
      rwa [List.length_map, List.length_map] at this
    have hall : ∀ a ∈ l, p a = true := List.length_filter_eq_length_iff.mp hlength
    rw [List.filter_eq_self.mpr hall] at h
    exact fun a ha => ⟨hall a ha, List.map_inj_left.mp h a ha⟩
  · intro h
    rw [List.filter_eq_self.mpr fun a ha => (h a ha).1]
    exact List.map_inj_left.mpr fun a ha => (h a ha).2

/-- The properties of two names are apart. -/
theorem append_eq_append_iff_of_keys {a b a' b' : Properties} {k k' : String} (hk : k ≠ k') (ha : ∀ e ∈ a, e.1 = k) (ha' : ∀ e ∈ a', e.1 = k)
    (hb : ∀ e ∈ b, e.1 = k') (hb' : ∀ e ∈ b', e.1 = k') : a ++ b = a' ++ b' ↔ a = a' ∧ b = b' := by
  constructor
  · intro h
    have hfilter {l r : Properties} (hl : ∀ e ∈ l, e.1 = k) (hr : ∀ e ∈ r, e.1 = k') : (l ++ r).filter (fun e => e.1 = k) = l := by
      rw [List.filter_append, List.filter_eq_self.mpr (by simpa using hl), List.filter_eq_nil_iff.mpr, List.append_nil]
      intro e he
      simpa [hr e he] using hk.symm
    have heq : a = a' := by rw [← hfilter ha hb, h, hfilter ha' hb']
    rw [heq] at h
    exact ⟨heq, List.append_cancel_left h⟩
  · rintro ⟨rfl, rfl⟩
    rfl

/-! ## What is read of the text -/

theorem ofJson_num (n : Int) : ofJson (.num n 0) = .number n := by simp [ofJson]

theorem ofJson_obj (l : List (String × JsonText.Value)) : ofJson (.obj l) = .object (l.map fun kv => (kv.1, ofJson kv.2)) := by
  rw [ofJson]

/-- The text of an event that can be written. -/
theorem decode_of_writable {e : EventInfo} {template : UInt32} (htemplate : taskBodyTemplateMap.lookup e.eventId = some template)
    (h : e.taskBody.Writable template) : decode e.toJson = some e.value := by
  rw [JsonText.decode_render_iff e.toJson _ _ (event_text e htemplate) (event_skeleton e), event_eq e htemplate, event_plain e htemplate]
  refine ⟨⟨h.versionDigest, h.errorMessages, fun hmask c hc => ?_⟩, fun hmask c hc => ?_⟩
  · have hc := h.versionComponents hmask c hc
    exact (component_plain c).mpr ⟨hc.componentId, hc.upgradeAction, hc.displayVersion, hc.innerVersion, hc.content, hc.componentExtra⟩
  · have hc := h.versionComponents hmask c hc
    exact ⟨hc.size, hc.effectiveMode⟩

/-! ## The objects -/

/-- A plain text does not end early. -/
theorem cStr_eq {s : String} (h : PlainText s) : cStr s = s := by
  unfold cStr
  rw [List.takeWhile_eq_self_iff.mpr, String.ofList_toList]
  intro c hc
  have hplain := h c hc
  simp only [JsonText.isPlain, Bool.and_eq_true, decide_eq_true_eq] at hplain
  have hnull : c ≠ '\x00' := by
    rintro rfl
    exact absurd hplain.2 (by decide)
  simpa using hnull

theorem componentObject_eq {c : VersionComponent} (h : c.Writable) :
    versionComponent c = ofJson c.value ↔ c.size.toNat < 2 ^ 31 := by
  have hmode : (c.effectiveMode.toNat : Int) = c.effectiveMode.toUInt32.toInt32.toInt := (effectiveMode_cast _).mpr h.effectiveMode
  have hsize : (c.size.toNat : Int) = c.size.toUInt32.toInt32.toInt ↔ c.size.toNat < 2 ^ 31 := effectiveMode_cast c.size
  rw [← hsize]
  simp only [versionComponent, VersionComponent.value, VersionComponent.valueWith, DescriptionInfo.value, buildDescInfo, setString,
    setInt32, setNamedProperty, ofJson_obj, ofJson_num, ofJson, List.map_cons, List.map_nil, List.nil_append, List.cons_append,
    cStr_eq h.componentId, cStr_eq h.upgradeAction, cStr_eq h.displayVersion, cStr_eq h.innerVersion, cStr_eq h.content,
    cStr_eq h.componentExtra, hmode, Value.object.injEq, List.cons.injEq, Prod.mk.injEq, Value.number.injEq, and_true, true_and]
  exact eq_comm

theorem errorObject_eq (m : ErrorMessage) : errorMessage m = ofJson m.value := by
  simp [errorMessage, ErrorMessage.value, setInt32, setString, ofJson_obj, ofJson]

/-- The properties of a task body whose messages and components make these values. -/
def taskBodyOf (template : UInt32) (t : TaskBody) (errorMessages versionComponents : List Value) : Properties :=
  (listed template VERSION_DIGEST_INFO "versionDigestInfo" t.versionDigestInfo.value ++
    listed template UPGRADE_STATUS "status" (.num t.status.toInt 0) ++
    listed template SUB_STATUS "subStatus" (.num t.subStatus.toInt 0) ++
    listed template PROGRESS "progress" (.num t.progress.toInt 0) ++
    listed template INSTALL_MODE "installMode" (.num t.installMode.toInt 0)).map (fun kv => (kv.1, ofJson kv.2)) ++
  ((if template &&& ERROR_MESSAGE ≠ 0 then if errorMessages.isEmpty then [] else [("errorMessages", .array errorMessages)] else []) ++
    if template &&& VERSION_COMPONENT ≠ 0 then
      if versionComponents.isEmpty then [] else [("versionComponents", .array versionComponents)] else [])

/-- The task body of a text, as it is read. -/
theorem ofJson_members (template : UInt32) (t : TaskBody) :
    (t.members VersionComponent.value template).map (fun kv => (kv.1, ofJson kv.2)) =
      taskBodyOf template t (t.errorMessages.map fun m => ofJson m.value) (t.versionComponents.map fun c => ofJson c.value) := by
  have harray (mask : UInt32) (k : String) (vs : List JsonText.Value) :
      (listedArray template mask k vs).map (fun kv => (kv.1, ofJson kv.2)) =
        if template &&& mask ≠ 0 then if (vs.map ofJson).isEmpty then [] else [(k, .array (vs.map ofJson))] else [] := by
    rw [listedArray, listed, List.isEmpty_map]
    split_ifs <;> simp [ofJson]
  rw [TaskBody.members, taskBodyOf, List.map_append, List.map_append, harray, harray, List.append_assoc]
  simp only [List.map_map, Function.comp_def]

/-- The task body of an object. -/
theorem buildEventTaskBody_eq {eventId : EventId} {template : UInt32} (h : taskBodyTemplateMap.lookup eventId = some template)
    (obj : Properties) (t : TaskBody) :
    buildEventTaskBody obj eventId t = some (obj ++ [("taskBody", .object (taskBodyOf template t
      ((t.errorMessages.filter isValidErrorMessage).map errorMessage)
      ((t.versionComponents.filter Ipc.ClientHelper.isValidData).map versionComponent)))]) := by
  have hset (c : Prop) [Decidable c] (l : Properties) (x : List (String × Value)) :
      (if c then l ++ x else l) = l ++ if c then x else [] := by
    split_ifs <;> simp
  have hlisted (mask : UInt32) (k : String) (v : JsonText.Value) :
      (listed template mask k v).map (fun kv => (kv.1, ofJson kv.2)) = if template &&& mask ≠ 0 then [(k, ofJson v)] else [] := by
    rw [listed]
    split_ifs <;> rfl
  have herrors (l : Properties) : buildErrorMessages l "errorMessages" t.errorMessages =
      l ++ if ((t.errorMessages.filter isValidErrorMessage).map errorMessage).isEmpty then []
        else [("errorMessages", .array ((t.errorMessages.filter isValidErrorMessage).map errorMessage))] := by
    rw [buildErrorMessages, List.isEmpty_map]
    split_ifs <;> simp [setNamedProperty]
  have hcomponents (l : Properties) : buildVersionComponents l t.versionComponents =
      l ++ if ((t.versionComponents.filter Ipc.ClientHelper.isValidData).map versionComponent).isEmpty then []
        else [("versionComponents", .array ((t.versionComponents.filter Ipc.ClientHelper.isValidData).map versionComponent))] := by
    rw [buildVersionComponents, List.isEmpty_map]
    split_ifs <;> simp [setNamedProperty]
  rw [buildEventTaskBody, h, Option.map_some]
  simp only [buildVersionDigestInfo, setInt32, setNamedProperty, herrors, hcomponents, hset, taskBodyOf, List.map_append, hlisted]
  simp [VersionDigestInfo.value, ofJson, setString]

/-- An array that is left out when it is empty. -/
theorem array_inj (c : Prop) [Decidable c] (k : String) (vs vs' : List Value) :
    (if c then if vs.isEmpty then [] else [(k, Value.array vs)] else []) =
      (if c then if vs'.isEmpty then [] else [(k, Value.array vs')] else []) ↔ (c → vs = vs') := by
  by_cases hc : c
  · cases vs <;> cases vs' <;> simp [hc]
  · simp [hc]

theorem taskBodyOf_inj (template : UInt32) (t : TaskBody) (es es' cs cs' : List Value) :
    taskBodyOf template t es cs = taskBodyOf template t es' cs' ↔
      (template &&& ERROR_MESSAGE ≠ 0 → es = es') ∧ (template &&& VERSION_COMPONENT ≠ 0 → cs = cs') := by
  have hkeys (c : Prop) [Decidable c] (k : String) (vs : List Value) :
      ∀ e ∈ (if c then if vs.isEmpty then [] else [(k, Value.array vs)] else []), e.1 = k := by
    split_ifs <;> simp
  rw [taskBodyOf, taskBodyOf, List.append_cancel_left_eq, append_eq_append_iff_of_keys (by decide) (hkeys _ "errorMessages" es)
    (hkeys _ "errorMessages" es') (hkeys _ "versionComponents" cs) (hkeys _ "versionComponents" cs'), array_inj, array_inj]

end RoutesAux

open RoutesAux
open Client.ClientHelper

/-- Where the text of an event says what the event says, or the event has no template: the object of a script is what a script reads from
the text exactly when the object carries the whole task body. -/
theorem routes_agree_iff {e : EventInfo}
    (h : ∀ template, taskBodyTemplateMap.lookup e.eventId = some template → e.taskBody.Writable template) :
    buildEventInfo e = (decode e.toJson).map ofJson ↔
      ∀ template, taskBodyTemplateMap.lookup e.eventId = some template → e.taskBody.Carried template := by
  cases hlookup : taskBodyTemplateMap.lookup e.eventId with
  | none =>
    have hobject : buildEventInfo e = none := by rw [buildEventInfo, buildEventTaskBody, hlookup, Option.map_none, Option.map_none]
    rw [hobject, EventsAux.decode_untemplated e hlookup]
    simp
  | some template =>
    have hwritable := h template hlookup
    have hvalue : ofJson e.value = .object ([("eventId", .number e.eventId.toInt)] ++ [("taskBody", .object (taskBodyOf template e.taskBody
        (e.taskBody.errorMessages.map fun m => ofJson m.value) (e.taskBody.versionComponents.map fun c => ofJson c.value)))]) := by
      rw [EventInfo.value, EventInfo.valueWith, hlookup, Option.getD_some, ofJson_obj, List.map_cons, List.map_cons, List.map_nil, ofJson_num,
        ofJson_obj, ofJson_members]
      rfl
    have hmessages : (e.taskBody.errorMessages.filter isValidErrorMessage).map errorMessage =
        e.taskBody.errorMessages.map (fun m => ofJson m.value) ↔ ∀ m ∈ e.taskBody.errorMessages, m.errorCode ≠ 0 := by
      rw [map_filter_eq_map_iff]
      refine forall₂_congr fun m _ => ?_
      simp [isValidErrorMessage, errorObject_eq]
    have hcomponents (hmask : template &&& VERSION_COMPONENT ≠ 0) :
        (e.taskBody.versionComponents.filter Ipc.ClientHelper.isValidData).map versionComponent =
          e.taskBody.versionComponents.map (fun c => ofJson c.value) ↔
            ∀ c ∈ e.taskBody.versionComponents, c.componentType ≠ Ipc.ClientHelper.INVALID ∧ c.size.toNat < 2 ^ 31 := by
      rw [map_filter_eq_map_iff]
      refine forall₂_congr fun c hc => ?_
      rw [componentObject_eq (hwritable.versionComponents hmask c hc), Ipc.ClientHelper.isValidData, decide_eq_true_eq]
    rw [buildEventInfo, buildEventTaskBody_eq hlookup, decode_of_writable hlookup hwritable, Option.map_some, Option.map_some, hvalue,
      Option.some.injEq, Value.object.injEq, NapiUtil.setInt32, List.nil_append, List.append_cancel_left_eq, List.cons.injEq, Prod.mk.injEq,
      Value.object.injEq, taskBodyOf_inj, hmessages]
    constructor
    · rintro ⟨⟨-, hes, hcs⟩, -⟩ _ ⟨⟩
      exact ⟨hes, fun hmask => (hcomponents hmask).mp (hcs hmask)⟩
    · intro hall
      obtain ⟨hes, hcs⟩ := hall template rfl
      exact ⟨⟨rfl, hes, fun hmask => (hcomponents hmask).mpr (hcs hmask)⟩, rfl⟩

/-- A failed download with its error, which goes the same on both routes. -/
def failedDownload : EventInfo :=
  { eventId := .EVENT_DOWNLOAD_FAIL, taskBody := { errorMessages := [{ errorCode := 13, errorMessage := "no answer" }] } }

theorem routes_agree_iff_failed : buildEventInfo failedDownload = (decode failedDownload.toJson).map ofJson := by
  have hlookup : taskBodyTemplateMap.lookup failedDownload.eventId = some (VERSION_DIGEST_INFO ||| INSTALL_MODE ||| ERROR_MESSAGE) := rfl
  refine (routes_agree_iff fun template h => ?_).mpr fun template h => ?_
  · cases hlookup.symm.trans h
    exact ⟨fun _ => by decide, fun _ => by simpa [failedDownload] using by decide, fun hmask => absurd hmask (by decide)⟩
  · cases hlookup.symm.trans h
    exact ⟨fun _ => by simp [failedDownload], fun hmask => absurd hmask (by decide)⟩

end Client

end UpdateEngine.Ipc
