import UpdateEngine.Ipc.Message
import UpdateEngine.Ipc.Utf16
import UpdateEngine.Lemmas.ParcelAux
import UpdateEngine.Loop

/-!
# The codec of the messages

What a reader of `MessageParcelHelper` makes of what the writer wrote, for each message as a whole: it comes back when its vectors
are within the cap of the readers and its sizes within the width written. A vector beyond the cap is lost without a word, and what
follows it is read from the wrong place.
-/

namespace UpdateEngine.Ipc

open Wire MessageParcelHelper

/-! ## Messages that come back -/

/-- The message is within the bounds of what is written and read for it. -/
def Message.Fits : (m : Message) → m.Value → Prop
  | .versionDescriptionInfo, v => VersionDescriptionInfo.Fits v
  | .businessError, v => BusinessError.Fits v
  | .checkResult, v => CheckResult.Fits v
  | .newVersionInfo, v => NewVersionInfo.Fits v
  | .currentVersionInfo, v => CurrentVersionInfo.Fits v
  | .taskInfo, v => TaskInfo.Fits v
  | .eventInfo, v => EventInfo.Fits v
  | _, _ => True

/-- The lengths and sizes of the message survive the way to the reader. -/
def Message.Kept : (m : Message) → m.Value → Prop
  | .versionDescriptionInfo, v => LengthKept (VersionDescriptionInfo.componentDescriptions v).length
  | .businessError, v => LengthKept (BusinessError.data v).length
  | .checkResult, v => ComponentsKept (CheckResult.newVersionInfo v).versionComponents
  | .newVersionInfo, v => ComponentsKept (NewVersionInfo.versionComponents v)
  | .currentVersionInfo, v => ComponentsKept (CurrentVersionInfo.versionComponents v)
  | .taskInfo, v => (TaskInfo.taskBody v).Kept
  | .eventInfo, v => (EventInfo.taskBody v).Kept
  | _, _ => True

/-- What is written is read back, and the parcel is left right after it; or the writer or the reader reports a failure. -/
def Message.Aligned (C : Conversion) (m : Message) (v : m.Value) (rest : Parcel) : Prop :=
  (m.write C v).2 ≠ 0 ∨ (m.read C m.fresh ((m.write C v).1 ++ rest)).1.2 ≠ 0 ∨
    m.read C m.fresh ((m.write C v).1 ++ rest) = ((v, 0), rest)

namespace CodecAux

open ParcelAux

variable {C : Conversion} (hC : C.Inverts)

include hC

/-- What a reader makes of a message, the result apart: the message, exactly when its lengths and sizes survive. -/
theorem read_eq_iff (m : Message) (v : m.Value) (rest : Parcel) :
    m.read C m.fresh ((m.write C v).1 ++ rest) = ((v, 0), rest) ↔ m.Kept v := by
  have hpair {α : Type} (a a' : α) (he : (a, (0 : Int32)) = (a', 0)) : a = a' := congrArg Prod.fst he
  have hresult {α : Type} (x : α × Parcel) (a : α) : ((x.1, (0 : Int32)), x.2) = ((a, 0), rest) ↔ x = (a, rest) :=
    field_eq_iff hpair x a rest
  cases m with
  | upgradeInfo => exact iff_of_true ((hresult _ v).mpr (reads_upgradeInfo hC v rest)) trivial
  | versionDescriptionInfo =>
    simp only [Message.read, Message.write, Message.fresh, bind_apply, pure_apply, hresult]
    exact versionDescriptionInfo_eq_iff hC v rest
  | businessError =>
    simp only [Message.read, Message.write, Message.fresh, bind_apply, pure_apply, hresult]
    exact businessError_eq_iff hC v rest
  | checkResult =>
    simp only [Message.read, Message.write, Message.fresh, bind_apply, pure_apply, hresult]
    exact checkResult_eq_iff hC v rest
  | newVersionInfo =>
    simp only [Message.read, Message.write, Message.fresh, bind_apply, pure_apply, hresult]
    exact newVersionInfo_eq_iff hC v rest
  | currentVersionInfo =>
    simp only [Message.read, Message.write, Message.fresh, bind_apply, pure_apply, hresult]
    exact currentVersionInfo_eq_iff hC v rest
  | taskInfo =>
    -- the reader is not unfolded: it is long
    simp only [Message.read, Message.write, Message.fresh, bind_apply, pure_apply, hresult]
    exact taskInfo_eq_iff hC v rest
  | upgradePolicy =>
    refine iff_of_true ?_ trivial
    have hread := reads_upgradePolicy v rest
    have hzero : (Message.upgradePolicyResult (writeUpgradePolicy v ++ rest)).1 = 0 := by
      simp [Message.upgradePolicyResult, writeUpgradePolicy, MAX_VECTOR_SIZE]
    simp only [Message.read, Message.write, Message.fresh]
    rw [hread, hzero]
  | eventInfo =>
    -- the reader is not unfolded: it is long
    simp only [Message.read, Message.write, Message.fresh, bind_apply, pure_apply, hresult]
    exact eventInfo_eq_iff hC v rest
  | versionDigestInfo => exact iff_of_true ((hresult _ v).mpr (reads_versionDigestInfo hC v rest)) trivial
  | descriptionOptions => exact iff_of_true ((hresult _ v).mpr (reads_descriptionOptions hC v rest)) trivial
  | downloadOptions => exact iff_of_true ((hresult _ v).mpr (reads_downloadOptions v rest)) trivial
  | pauseDownloadOptions => exact iff_of_true ((hresult _ v).mpr (reads_pauseDownloadOptions v rest)) trivial
  | resumeDownloadOptions => exact iff_of_true ((hresult _ v).mpr (reads_resumeDownloadOptions v rest)) trivial
  | upgradeOptions => exact iff_of_true ((hresult _ v).mpr (reads_upgradeOptions v rest)) trivial
  | clearOptions => exact iff_of_true ((hresult _ v).mpr (reads_clearOptions v rest)) trivial

omit hC in
/-- No writer reports a failure, and no reader does of what was written. -/
theorem results_zero (C : Conversion) (m : Message) (v : m.Value) (rest : Parcel) :
    (m.write C v).2 = 0 ∧ (m.read C m.fresh ((m.write C v).1 ++ rest)).1.2 = 0 := by
  cases m with
  | upgradePolicy =>
    refine ⟨rfl, ?_⟩
    simp [Message.read, Message.write, Message.upgradePolicyResult, writeUpgradePolicy, MAX_VECTOR_SIZE]
  | _ => exact ⟨rfl, rfl⟩

omit hC in
theorem kept_of_fits {m : Message} {v : m.Value} (h : m.Fits v) : m.Kept v := by
  cases m with
  | versionDescriptionInfo | businessError => exact .inl h
  | checkResult | newVersionInfo | currentVersionInfo => exact ⟨.inl h.1, h.2⟩
  | taskInfo | eventInfo => exact ⟨.inl h.1, .inl h.2.1, h.2.2⟩
  | _ => trivial

end CodecAux

open CodecAux

/-- Every message within the bounds of its codec is read back as it was written, whatever comes after it, and exactly that is left. -/
theorem messages_round_trip {C : Conversion} (hC : C.Inverts) (m : Message) (v : m.Value) (h : m.Fits v) (rest : Parcel) :
    m.read C m.fresh ((m.write C v).1 ++ rest) = ((v, 0), rest) :=
  (read_eq_iff hC m v rest).mpr (kept_of_fits h)

/-- What the phone is told of a version of one package. -/
def phoneVersion : NewVersionInfo := {
  versionDigestInfo := ⟨"digest"⟩
  versionComponents := [{ componentId := "package", componentType := 1, innerVersion := "2.0", size := 4000000000 }] }

theorem messages_round_trip_phone :
    Message.newVersionInfo.read utf16 {} ((Message.newVersionInfo.write utf16 phoneVersion).1 ++ [.bool true]) =
      ((phoneVersion, 0), [.bool true]) :=
  messages_round_trip utf16_inverts .newVersionInfo phoneVersion
    ⟨by decide, fun c hc => by cases List.mem_singleton.mp hc; exact ⟨by decide, by decide⟩⟩ [.bool true]

/-- A message comes back with the parcel right after it, or a failure is reported, exactly when its vectors are within the cap of the
readers and its sizes within the width that is written. -/
theorem messages_aligned_iff {C : Conversion} (hC : C.Inverts) (m : Message) (v : m.Value) (rest : Parcel) :
    m.Aligned C v rest ↔ m.Kept v := by
  obtain ⟨hwrite, hread⟩ := results_zero C m v rest
  constructor
  · rintro (h | h | h)
    · exact absurd hwrite h
    · exact absurd hread h
    · exact (read_eq_iff hC m v rest).mp h
  · intro h
    exact .inr (.inr ((read_eq_iff hC m v rest).mpr h))

theorem messages_aligned_iff_phone :
    Message.newVersionInfo.Aligned utf16 phoneVersion [] ↔ Message.newVersionInfo.Kept phoneVersion :=
  messages_aligned_iff utf16_inverts .newVersionInfo phoneVersion []

/-- A task with one message more than the readers take. -/
def crowdedTask : TaskInfo := { existTask := true, taskBody := { errorMessages := List.replicate 129 {} } }

/-- The crowded task is read without its messages, and what they leave in the parcel is read as the components. -/
theorem crowded_task_misread : ¬ Message.taskInfo.Aligned utf16 crowdedTask [] := by
  have hlength : crowdedTask.taskBody.errorMessages.length = 129 := List.length_replicate
  have hlost : ¬ Message.taskInfo.Kept crowdedTask := by
    rintro ⟨hkept, -⟩
    rw [hlength] at hkept
    exact absurd hkept (by decide)
  obtain ⟨hwrite, hread⟩ := results_zero utf16 .taskInfo crowdedTask []
  rintro (h | h | h)
  · exact h hwrite
  · exact h hread
  · exact hlost ((read_eq_iff utf16_inverts .taskInfo crowdedTask []).mp h)

end UpdateEngine.Ipc
