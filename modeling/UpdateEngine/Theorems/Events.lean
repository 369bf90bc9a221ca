import Mathlib.Algebra.Group.Nat.Defs
import Mathlib.Algebra.Group.Int.Defs
import UpdateEngine.Engine.JsonBuilder
import UpdateEngine.JsonText

/-!
# Whether the text of an event is the event

The text of an event is one in JSON, and says what the event says, where the event has a template, no string that is written needs an escape
and no size leaves the type it is cast to. In every other case the text is read as something else, or not at all.
-/

namespace UpdateEngine

open JsonText

namespace Ipc

/-! ## What an event says -/

/-- The records as values. -/
def VersionDigestInfo.value (i : VersionDigestInfo) : Value := .obj [("versionDigest", .str i.versionDigest)]

def ErrorMessage.value (m : ErrorMessage) : Value :=
  .obj [("errorCode", .num m.errorCode.toInt 0), ("errorMessage", .str m.errorMessage)]

def DescriptionInfo.value (i : DescriptionInfo) : Value :=
  .obj [("descriptionType", .num i.descriptionType.toInt 0), ("content", .str i.content)]

/-- A component, with numbers that stand for its size and its effective mode. -/
def VersionComponent.valueWith (size effectiveMode : Int) (c : VersionComponent) : Value :=
  .obj [("componentId", .str c.componentId), ("componentType", .num c.componentType.toInt 0),
    ("upgradeAction", .str c.upgradeAction), ("displayVersion", .str c.displayVersion), ("innerVersion", .str c.innerVersion),
    ("size", .num size 0), ("effectiveMode", .num effectiveMode 0), ("descriptionInfo", c.descriptionInfo.value),
    ("componentExtra", .str c.componentExtra)]

def VersionComponent.value (c : VersionComponent) : Value := c.valueWith c.size.toNat c.effectiveMode.toNat

/-- A member of the task body, where the template lists it. -/
def listed (template mask : UInt32) (k : String) (v : Value) : List (String × Value) :=
  if template &&& mask ≠ 0 then [(k, v)] else []

/-- The same for an array, which is left out when it is empty. -/
def listedArray (template mask : UInt32) (k : String) (vs : List Value) : List (String × Value) :=
  if vs.isEmpty then [] else listed template mask k (.arr vs)

/-- The members of the task body, the components by their values. -/
def TaskBody.members (component : VersionComponent → Value) (template : UInt32) (t : TaskBody) : List (String × Value) :=
  listed template VERSION_DIGEST_INFO "versionDigestInfo" t.versionDigestInfo.value ++
    listed template UPGRADE_STATUS "status" (.num t.status.toInt 0) ++
    listed template SUB_STATUS "subStatus" (.num t.subStatus.toInt 0) ++
    listed template PROGRESS "progress" (.num t.progress.toInt 0) ++
    listed template INSTALL_MODE "installMode" (.num t.installMode.toInt 0) ++
    listedArray template ERROR_MESSAGE "errorMessages" (t.errorMessages.map (·.value)) ++
    listedArray template VERSION_COMPONENT "versionComponents" (t.versionComponents.map component)

/-- An event, the components by their values; without a template nothing is listed. -/
def EventInfo.valueWith (component : VersionComponent → Value) (e : EventInfo) : Value :=
  .obj [("eventId", .num e.eventId.toInt 0),
    ("taskBody", .obj (e.taskBody.members component ((taskBodyTemplateMap.lookup e.eventId).getD 0)))]

def EventInfo.value (e : EventInfo) : Value := e.valueWith VersionComponent.value

/-- The text of an event is read as the event. -/
def EventInfo.Faithful (e : EventInfo) : Prop := decode e.toJson = some e.value

/-! ## When it is -/

/-- A component that can be written: plain strings, and numbers in the ranges of what they are cast to. -/
structure VersionComponent.Writable (c : VersionComponent) : Prop where
  componentId : PlainText c.componentId
  upgradeAction : PlainText c.upgradeAction
  displayVersion : PlainText c.displayVersion
  innerVersion : PlainText c.innerVersion
  content : PlainText c.descriptionInfo.content
  componentExtra : PlainText c.componentExtra
  size : c.size.toNat < 2 ^ 63
  effectiveMode : c.effectiveMode.toNat < 2 ^ 31

/-- A task body that can be written: so can what the template lists. -/
structure TaskBody.Writable (template : UInt32) (t : TaskBody) : Prop where
  versionDigest : template &&& VERSION_DIGEST_INFO ≠ 0 → PlainText t.versionDigestInfo.versionDigest
  errorMessages : template &&& ERROR_MESSAGE ≠ 0 → ∀ m ∈ t.errorMessages, PlainText m.errorMessage
  versionComponents : template &&& VERSION_COMPONENT ≠ 0 → ∀ c ∈ t.versionComponents, c.Writable

/-- An event that can be written: it has a template, and its task body can be written. -/
def EventInfo.Writable (e : EventInfo) : Prop := ∃ template, taskBodyTemplateMap.lookup e.eventId = some template ∧ e.taskBody.Writable template

end Ipc

namespace EventsAux

open Ipc

/-! ## What a builder holds -/

/-- The members of an object, as a text. -/
def membersText (ms : List (String × Value)) : List Char := commas (ms.map fun kv => memberText kv.1 (render kv.2))

/-- A builder that has written the beginning of an object with these members. -/
structure Holds (b : JsonBuilder) (ms : List (String × Value)) : Prop where
  text : b.builder.toList = '\x7b' :: membersText ms
  first : b.isFirstItem = ms.isEmpty

theorem render_obj (ms : List (String × Value)) : render (.obj ms) = '\x7b' :: (membersText ms ++ ['\x7d']) := by
  rw [render, membersText]

theorem commas_snoc (ts : List (List Char)) (t : List Char) : commas (ts ++ [t]) = if ts.isEmpty then t else commas ts ++ ',' :: t := by
  induction ts with
  | nil => rfl
  | cons t' ts ih =>
    rw [List.cons_append, commas_cons _ (by simp), ih]
    cases ts with
    | nil => rfl
    | cons t'' ts => simp [commas]

theorem holds_open : Holds (({} : JsonBuilder).append "\x7b") [] := ⟨rfl, rfl⟩

variable {b : JsonBuilder} {ms : List (String × Value)}

theorem append_toList (b : JsonBuilder) (t : String) : (b.append t).builder.toList = b.builder.toList ++ t.toList :=
  String.toList_append

/-- A comma separates a member from those before it. -/
theorem Holds.appendComma (h : Holds b ms) :
    b.appendComma.isFirstItem = false ∧ ∀ t, b.appendComma.builder.toList ++ t =
      '\x7b' :: commas ((ms.map fun kv => memberText kv.1 (render kv.2)) ++ [t]) := by
  have hfirst := h.first
  have htext := h.text
  cases ms with
  | nil =>
    rw [JsonBuilder.appendComma, if_pos (show b.isFirstItem = true from hfirst)]
    refine ⟨rfl, fun t => ?_⟩
    rw [htext]
    rfl
  | cons kv ms =>
    have hnot : ¬ b.isFirstItem = true := by simp [hfirst]
    rw [JsonBuilder.appendComma, if_neg hnot]
    refine ⟨hfirst, fun t => ?_⟩
    rw [append_toList, htext, commas_snoc]
    simp [membersText]

/-- A member is written after those before it. -/
theorem Holds.snoc (h : Holds b ms) {b' : JsonBuilder} {k : String} {v : Value}
    (htext : b'.builder.toList = b.appendComma.builder.toList ++ memberText k (render v))
    (hfirst : b'.isFirstItem = b.appendComma.isFirstItem) : Holds b' (ms ++ [(k, v)]) := by
  obtain ⟨hcomma, hseparated⟩ := h.appendComma
  refine ⟨?_, ?_⟩
  · rw [htext, hseparated, membersText, List.map_append]
    rfl
  · rw [hfirst, hcomma]
    simp

theorem Holds.appendNum (h : Holds b ms) (k : String) (z : Int) : Holds (b.appendNum k (toString z)) (ms ++ [(k, .num z 0)]) := by
  refine h.snoc ?_ rfl
  simp [JsonBuilder.appendNum, append_toList, memberText, render, exponentText, decimal]

theorem Holds.appendString (h : Holds b ms) (k s : String) : Holds (b.appendString k s) (ms ++ [(k, .str s)]) := by
  refine h.snoc ?_ rfl
  simp [JsonBuilder.appendString, append_toList, memberText, render]

theorem Holds.appendBuilder (h : Holds b ms) (k : String) {b' : JsonBuilder} {v : Value} (hv : b'.toJson.toList = render v) :
    Holds (b.appendBuilder k b') (ms ++ [(k, v)]) := by
  refine h.snoc ?_ rfl
  simp [JsonBuilder.appendBuilder, append_toList, memberText, hv]

/-- The text of an object is complete with its last brace. -/
theorem Holds.close (h : Holds b ms) : (b.append "\x7d").toJson.toList = render (.obj ms) := by
  rw [JsonBuilder.toJson, append_toList, h.text, render_obj]
  rfl

section Elements

variable {α : Type} {builderOf : α → JsonBuilder} {valueOf : α → Value}

/-- The loop over the elements of an array. -/
theorem appendElements_toList {l : List α} (h : ∀ x ∈ l, (builderOf x).toJson.toList = render (valueOf x)) (b : JsonBuilder) :
    (b.appendElements (l.map builderOf)).builder.toList = b.builder.toList ++ commas ((l.map valueOf).map render) := by
  induction l generalizing b with
  | nil => simp [JsonBuilder.appendElements, commas]
  | cons x l ih =>
    have hx := h x (List.mem_cons_self ..)
    cases l with
    | nil => simp [JsonBuilder.appendElements, append_toList, hx, commas]
    | cons y l =>
      have hrest := ih (fun z hz => h z (List.mem_cons_of_mem _ hz)) ((b.append (builderOf x).toJson).append ",")
      rw [List.map_cons, List.map_cons, JsonBuilder.appendElements]
      rw [← List.map_cons, hrest]
      simp [append_toList, hx, commas]

theorem Holds.appendArray (h : Holds b ms) (k : String) (builderOf : α → JsonBuilder) (valueOf : α → Value) {l : List α}
    (hl : ∀ x ∈ l, (builderOf x).toJson.toList = render (valueOf x)) :
    Holds (b.appendArray k (l.map builderOf)) (ms ++ if (l.map valueOf).isEmpty then [] else [(k, .arr (l.map valueOf))]) := by
  cases l with
  | nil => simpa [JsonBuilder.appendArray] using h
  | cons x l =>
    refine h.appendBuilder k ?_
    rw [JsonBuilder.toJson, append_toList, appendElements_toList hl, render]
    rfl

end Elements

/-- A member that is written where the template lists it. -/
theorem Holds.listed (h : Holds b ms) (template mask : UInt32) {k : String} {v : Value} {b' : JsonBuilder}
    (h' : Holds b' (ms ++ [(k, v)])) : Holds (if template &&& mask ≠ 0 then b' else b) (ms ++ Ipc.listed template mask k v) := by
  rw [Ipc.listed]
  split
  · exact h'
  · rwa [List.append_nil]

theorem Holds.listedArray (h : Holds b ms) (template mask : UInt32) {k : String} {vs : List Value} {b' : JsonBuilder}
    (h' : Holds b' (ms ++ if vs.isEmpty then [] else [(k, .arr vs)])) :
    Holds (if template &&& mask ≠ 0 then b' else b) (ms ++ Ipc.listedArray template mask k vs) := by
  rw [Ipc.listedArray, Ipc.listed]
  by_cases hvs : vs.isEmpty
  · rw [if_pos hvs] at h' ⊢
    rw [List.append_nil] at h' ⊢
    split <;> assumption
  · rw [if_neg hvs] at h' ⊢
    split
    · exact h'
    · rwa [List.append_nil]

/-! ## The records -/

theorem versionDigestInfo_text (i : VersionDigestInfo) : i.getJsonBuilder.toJson.toList = render i.value :=
  (holds_open.appendString _ _).close

theorem errorMessage_text (m : ErrorMessage) : m.getJsonBuilder.toJson.toList = render m.value :=
  ((holds_open.appendNum _ _).appendString _ _).close

theorem descriptionInfo_text (i : DescriptionInfo) : i.getJsonBuilder.toJson.toList = render i.value :=
  ((holds_open.appendNum _ _).appendString _ _).close

/-- A component as it is written: its size as an `int64_t`, its effective mode as an `int32_t`. -/
def written (c : VersionComponent) : Value := c.valueWith c.size.toInt64.toInt c.effectiveMode.toUInt32.toInt32.toInt

theorem versionComponent_text (c : VersionComponent) : c.getJsonBuilder.toJson.toList = render (written c) :=
  (((((((((holds_open.appendString _ _).appendNum _ _).appendString _ _).appendString _ _).appendString _ _).appendNum _ _).appendNum _
    _).appendBuilder _ (descriptionInfo_text _)).appendString _ _).close

theorem taskBody_text (t : TaskBody) {eventId : EventId} {template : UInt32} (h : taskBodyTemplateMap.lookup eventId = some template) :
    (t.getJsonBuilder eventId).toJson.toList = render (.obj (t.members written template)) := by
  have h₀ := holds_open
  have h₁ := h₀.listed template VERSION_DIGEST_INFO (h₀.appendBuilder "versionDigestInfo" (versionDigestInfo_text t.versionDigestInfo))
  have h₂ := h₁.listed template UPGRADE_STATUS (h₁.appendNum "status" t.status.toInt)
  have h₃ := h₂.listed template SUB_STATUS (h₂.appendNum "subStatus" t.subStatus.toInt)
  have h₄ := h₃.listed template PROGRESS (h₃.appendNum "progress" t.progress.toInt)
  have h₅ := h₄.listed template INSTALL_MODE (h₄.appendNum "installMode" t.installMode.toInt)
  have h₆ := h₅.listedArray template ERROR_MESSAGE (h₅.appendArray "errorMessages" ErrorMessage.getJsonBuilder
    ErrorMessage.value (l := t.errorMessages) fun m _ => errorMessage_text m)
  have h₇ := h₆.listedArray template VERSION_COMPONENT (h₆.appendArray "versionComponents"
    VersionComponent.getJsonBuilder written (l := t.versionComponents) fun c _ => versionComponent_text c)
  rw [TaskBody.getJsonBuilder, h]
  exact h₇.close

/-- The text of an event with a template is the event as it is written. -/
theorem event_text (e : EventInfo) {template : UInt32} (h : taskBodyTemplateMap.lookup e.eventId = some template) :
    e.toJson.toList = render (e.valueWith written) := by
  rw [EventInfo.valueWith, h]
  exact ((holds_open.appendNum _ _).appendBuilder _ (taskBody_text _ h)).close

/-! ## What is read -/

theorem component_skeleton (c : VersionComponent) : (written c).skeleton = c.value.skeleton := by
  simp [written, VersionComponent.value, VersionComponent.valueWith, Value.skeleton]

theorem listedArray_skeleton (template mask : UInt32) (k : String) {vs vs' : List Value}
    (h : vs.map Value.skeleton = vs'.map Value.skeleton) :
    (listedArray template mask k vs).map (fun kv => (kv.1, kv.2.skeleton)) =
      (listedArray template mask k vs').map fun kv => (kv.1, kv.2.skeleton) := by
  have hempty : vs.isEmpty = vs'.isEmpty := by
    have := congrArg List.isEmpty h
    simpa using this
  rw [listedArray, listedArray, hempty, listed, listed]
  split
  · rfl
  · split
    · simp [Value.skeleton, h]
    · rfl

/-- An event is written with other numbers at most. -/
theorem event_skeleton (e : EventInfo) : e.value.skeleton = (e.valueWith written).skeleton := by
  have hcomponents : (e.taskBody.versionComponents.map VersionComponent.value).map Value.skeleton =
      (e.taskBody.versionComponents.map written).map Value.skeleton := by
    simp only [List.map_map]
    exact List.map_congr_left fun c _ => (component_skeleton c).symm
  simp only [EventInfo.value, EventInfo.valueWith, Value.skeleton, List.map_cons, TaskBody.members, List.map_append,
    listedArray_skeleton _ VERSION_COMPONENT "versionComponents" hcomponents]

/-! ## What is plain -/

instance (s : String) : Decidable (PlainText s) := List.decidableBAll (isPlain · = true) s.toList

theorem listed_plain {template mask : UInt32} {k : String} (hk : PlainText k) (v : Value) :
    (∀ kv ∈ listed template mask k v, PlainText kv.1 ∧ kv.2.Plain) ↔ (template &&& mask ≠ 0 → v.Plain) := by
  rw [listed]
  split
  · rename_i hmask
    simp [hmask, hk]
  · rename_i hmask
    simp [not_not.mp hmask]

theorem listedArray_plain {template mask : UInt32} {k : String} (hk : PlainText k) (vs : List Value) :
    (∀ kv ∈ listedArray template mask k vs, PlainText kv.1 ∧ kv.2.Plain) ↔ (template &&& mask ≠ 0 → ∀ v ∈ vs, v.Plain) := by
  rw [listedArray]
  split
  · rename_i hvs
    simp [List.isEmpty_iff.mp hvs]
  · rw [listed_plain hk, Value.Plain]

theorem names_plain : ∀ k ∈ ["eventId", "taskBody", "versionDigestInfo", "status", "subStatus", "progress", "installMode", "errorMessages",
    "versionComponents", "versionDigest", "errorCode", "errorMessage", "descriptionType", "content", "componentId", "componentType",
    "upgradeAction", "displayVersion", "innerVersion", "size", "effectiveMode", "descriptionInfo", "componentExtra"], PlainText k := by
  decide

theorem component_plain (c : VersionComponent) : (written c).Plain ↔ PlainText c.componentId ∧ PlainText c.upgradeAction ∧
    PlainText c.displayVersion ∧ PlainText c.innerVersion ∧ PlainText c.descriptionInfo.content ∧ PlainText c.componentExtra := by
  have hnames := names_plain
  simp only [List.forall_mem_cons] at hnames
  simp only [written, VersionComponent.valueWith, Value.Plain, DescriptionInfo.value]
  simp [hnames, Value.Plain]

/-! ## Which numbers are written as they are -/

theorem size_cast (n : UInt64) : (n.toNat : Int) = n.toInt64.toInt ↔ n.toNat < 2 ^ 63 := by
  have hn := n.toNat_lt
  have hcast : n.toInt64.toInt = (n.toNat : Int).bmod (2 ^ 64) := BitVec.toInt_eq_toNat_bmod n.toBitVec
  rw [hcast, Int.bmod_def]
  split <;> omega

theorem effectiveMode_cast (n : UInt64) : (n.toNat : Int) = n.toUInt32.toInt32.toInt ↔ n.toNat < 2 ^ 31 := by
  have hn := n.toNat_lt
  have hcast : n.toUInt32.toInt32.toInt = (n.toUInt32.toNat : Int).bmod (2 ^ 32) := BitVec.toInt_eq_toNat_bmod n.toUInt32.toBitVec
  rw [hcast, Int.bmod_def, UInt64.toNat_toUInt32]
  split <;> omega

theorem component_eq (c : VersionComponent) : c.value = written c ↔ c.size.toNat < 2 ^ 63 ∧ c.effectiveMode.toNat < 2 ^ 31 := by
  rw [← size_cast, ← effectiveMode_cast]
  simp [VersionComponent.value, written, VersionComponent.valueWith]

theorem listedArray_inj {template mask : UInt32} {k : String} {vs vs' : List Value} (h : vs.isEmpty = vs'.isEmpty) :
    listedArray template mask k vs = listedArray template mask k vs' ↔ (template &&& mask ≠ 0 → vs = vs') := by
  rw [listedArray, listedArray, listed, listed, ← h]
  by_cases hvs : vs.isEmpty
  · have hvs' : vs' = [] := List.isEmpty_iff.mp (h ▸ hvs)
    simp [List.isEmpty_iff.mp hvs, hvs']
  · rw [if_neg hvs, if_neg hvs]
    by_cases hmask : template &&& mask = 0
    · simp [hmask]
    · simp [hmask]

/-- An event is written with its own numbers where the components that are written are. -/
theorem event_eq (e : EventInfo) {template : UInt32} (h : taskBodyTemplateMap.lookup e.eventId = some template) :
    e.value = e.valueWith written ↔
      (template &&& VERSION_COMPONENT ≠ 0 → ∀ c ∈ e.taskBody.versionComponents, c.size.toNat < 2 ^ 63 ∧ c.effectiveMode.toNat < 2 ^ 31) := by
  have hcomponents : e.taskBody.versionComponents.map VersionComponent.value = e.taskBody.versionComponents.map written ↔
      ∀ c ∈ e.taskBody.versionComponents, c.size.toNat < 2 ^ 63 ∧ c.effectiveMode.toNat < 2 ^ 31 := by
    rw [List.map_inj_left]
    exact forall₂_congr fun c _ => component_eq c
  rw [← hcomponents, EventInfo.value, EventInfo.valueWith, EventInfo.valueWith, h]
  simp only [TaskBody.members, Value.obj.injEq, List.cons.injEq, Prod.mk.injEq, List.append_cancel_left_eq, Option.getD_some,
    and_true, true_and]
  exact listedArray_inj (by simp)

/-- Where an event is plain. -/
theorem event_plain (e : EventInfo) {template : UInt32} (h : taskBodyTemplateMap.lookup e.eventId = some template) :
    (e.valueWith written).Plain ↔ (template &&& VERSION_DIGEST_INFO ≠ 0 → PlainText e.taskBody.versionDigestInfo.versionDigest) ∧
      (template &&& ERROR_MESSAGE ≠ 0 → ∀ m ∈ e.taskBody.errorMessages, PlainText m.errorMessage) ∧
      (template &&& VERSION_COMPONENT ≠ 0 → ∀ c ∈ e.taskBody.versionComponents, (written c).Plain) := by
  have hnames := names_plain
  simp only [List.forall_mem_cons] at hnames
  simp only [EventInfo.valueWith, h, Option.getD_some, Value.Plain, TaskBody.members, List.forall_mem_cons, List.forall_mem_append,
    listed_plain (names_plain "versionDigestInfo" (by simp)), listed_plain (names_plain "status" (by simp)),
    listed_plain (names_plain "subStatus" (by simp)), listed_plain (names_plain "progress" (by simp)),
    listed_plain (names_plain "installMode" (by simp)), listedArray_plain (names_plain "errorMessages" (by simp)),
    listedArray_plain (names_plain "versionComponents" (by simp)), VersionDigestInfo.value]
  simp [hnames, ErrorMessage.value, Value.Plain, and_assoc]

/-! ## Events without a template -/

/-- The text of an event without a template. -/
theorem untemplated_text (e : EventInfo) (h : taskBodyTemplateMap.lookup e.eventId = none) :
    e.toJson.toList =
      '\x7b' :: (memberText "eventId" (decimal e.eventId.toInt) ++ ',' :: (memberText "taskBody" [] ++ ['\x7d'])) := by
  have hbody : e.taskBody.getJsonBuilder e.eventId = {} := by rw [TaskBody.getJsonBuilder, h]
  have hmember : Holds ((({} : JsonBuilder).append "\x7b").appendInt32 "eventId" e.eventId) [("eventId", .num e.eventId.toInt 0)] :=
    holds_open.appendNum "eventId" e.eventId.toInt
  rw [EventInfo.toJson, EventInfo.getJsonBuilder, hbody, JsonBuilder.toJson, append_toList, JsonBuilder.appendBuilder]
  simp only [append_toList, List.append_assoc]
  rw [hmember.appendComma.2]
  simp [commas, memberText, render, exponentText, JsonBuilder.toJson]

/-- It is no text in JSON. -/
theorem decode_untemplated (e : EventInfo) (h : taskBodyTemplateMap.lookup e.eventId = none) : decode e.toJson = none := by
  have hfirst (n : Nat) (l : List Char) : member (value (n + 1)) (memberText "eventId" (decimal e.eventId.toInt) ++ ',' :: l) =
      some (("eventId", .num e.eventId.toInt 0), ',' :: l) :=
    member_complete (names_plain "eventId" (by simp)) (value_num n e.eventId.toInt 0 (ends_comma l))
  have hsecond (n : Nat) : member (value n) (memberText "taskBody" [] ++ ['\x7d']) = none :=
    member_none (names_plain "taskBody" (by simp)) (value_brace n)
  have hitems (n : Nat) : anyItems (member (value (n + 1))) '\x7d'
      (memberText "eventId" (decimal e.eventId.toInt) ++ ',' :: (memberText "taskBody" [] ++ ['\x7d'])) = none :=
    (anyItems_of_head (c := '"') rfl (by decide) _).trans (items_none (hfirst n _) (hsecond _) _)
  rw [decode, untemplated_text e h, List.length_cons, value_obj]
  obtain ⟨n, hn⟩ : ∃ n, (memberText "eventId" (decimal e.eventId.toInt) ++ ',' :: (memberText "taskBody" [] ++ ['\x7d'])).length = n :=
    ⟨_, rfl⟩
  rw [hn, hitems n]
  rfl

end EventsAux

open EventsAux

namespace Ipc

/-- The text of an event is read as the event exactly when the event can be written. -/
theorem toJson_faithful_iff (e : EventInfo) : e.Faithful ↔ e.Writable := by
  cases h : taskBodyTemplateMap.lookup e.eventId with
  | none =>
    constructor
    · intro hfaithful
      rw [EventInfo.Faithful, decode_untemplated e h] at hfaithful
      cases hfaithful
    · rintro ⟨template, ht, -⟩
      rw [h] at ht
      cases ht
  | some template =>
    rw [EventInfo.Faithful, decode_render_iff e.toJson _ _ (event_text e h) (event_skeleton e), event_eq e h, event_plain e h]
    simp only [component_plain]
    constructor
    · rintro ⟨⟨hdigest, hmessages, hcomponents⟩, hnumbers⟩
      refine ⟨template, h, hdigest, hmessages, fun hmask c hc => ?_⟩
      obtain ⟨hid, haction, hdisplay, hinner, hcontent, hextra⟩ := hcomponents hmask c hc
      obtain ⟨hsize, hmode⟩ := hnumbers hmask c hc
      exact ⟨hid, haction, hdisplay, hinner, hcontent, hextra, hsize, hmode⟩
    · rintro ⟨template', ht, hbody⟩
      obtain rfl : template = template' := Option.some.inj (h.symm.trans ht)
      refine ⟨⟨hbody.versionDigest, hbody.errorMessages, fun hmask c hc => ?_⟩, fun hmask c hc => ?_⟩
      · have hc := hbody.versionComponents hmask c hc
        exact ⟨hc.componentId, hc.upgradeAction, hc.displayVersion, hc.innerVersion, hc.content, hc.componentExtra⟩
      · have hc := hbody.versionComponents hmask c hc
        exact ⟨hc.size, hc.effectiveMode⟩

/-- The start of a download, of a version whose digest holds a quotation mark. -/
def quotedStart : EventInfo :=
  { eventId := .EVENT_DOWNLOAD_START, taskBody := { versionDigestInfo := { versionDigest := "a\"b" } } }

theorem toJson_not_faithful : ¬ ∀ e : EventInfo, e.Faithful := by
  intro hall
  have hnone : (decode quotedStart.toJson).isNone = true := by decide
  have hfaithful : decode quotedStart.toJson = some quotedStart.value := hall quotedStart
  rw [hfaithful] at hnone
  cases hnone

end Ipc

end UpdateEngine
