import UpdateEngine.Ipc.Utf16
import UpdateEngine.Loop

/-!
# The loops of the list readers

How often the loop of a list reader of `MessageParcelHelper` goes round, for whatever a parcel holds. The cap keeps the loop short
unless the size is negative: it passes the test as a signed number and is counted to as an unsigned one.
-/

namespace UpdateEngine.Ipc

open Wire MessageParcelHelper

/-! ## The loops -/

/-- The readers that read as many elements as the parcel says. -/
inductive ListReader where
  | errorMessages
  | componentDescriptions
  | versionComponents
  | upgradePolicy
  deriving DecidableEq, Repr

namespace ListReader

/-- What one round reads. -/
abbrev Element : ListReader → Type
  | .errorMessages => ErrorMessage
  | .componentDescriptions => ComponentDescription
  | .versionComponents => VersionComponent
  | .upgradePolicy => UpgradePeriod

/-- What is read before the loop; the last thing is the size. -/
def size : ListReader → Reader Int32
  | .upgradePolicy => do
    let _ ← readBool
    let _ ← readBool
    readInt32
  | _ => readInt32

/-- What the loop counts to: nothing when the test of the size fails. `ReadUpgradePolicy` casts the size before the test, and has
room for two periods. -/
def bound : ListReader → Int32 → Nat
  | .upgradePolicy, size => if (size.toInt % 2 ^ 64).toNat > MAX_VECTOR_SIZE then 0 else min (size.toInt % 2 ^ 64).toNat 2
  | _, size => if size.toInt > MAX_VECTOR_SIZE then 0 else (size.toInt % 2 ^ 64).toNat

/-- The state of a loop: the counter, what was read so far, and the rest of the parcel. -/
structure State (α : Type) where
  i : Nat := 0
  elements : List α := []
  parcel : Parcel

variable (C : Conversion)

/-- One element. -/
def element : (r : ListReader) → Reader r.Element
  | .errorMessages => readErrorMessage C
  | .componentDescriptions => readComponentDescription C
  | .versionComponents => readVersionComponent C
  | .upgradePolicy => readUpgradePeriod

/-- One round. -/
def round (r : ListReader) (bound : Nat) (s : State r.Element) : Option (State r.Element) :=
  if s.i < bound then
    let (a, parcel) := r.element C s.parcel
    some { i := s.i + 1, elements := s.elements ++ [a], parcel }
  else none

/-- The loop of the reader on a parcel is left within a number of rounds, in this state. -/
def LeavesWithin (r : ListReader) (p : Parcel) (rounds : Nat) (t : State r.Element) : Prop :=
  Loop.run (r.round C (r.bound (r.size p).1)) (rounds + 1) { parcel := (r.size p).2 } = some t

/-- How many elements the reader appends to its vector; the periods of a policy are an array. -/
def appended : ListReader → Parcel → Nat
  | .errorMessages, p => (readErrorMessages C [] p).1.length
  | .componentDescriptions, p => (readComponentDescriptions C [] p).1.length
  | .versionComponents, p => (readVersionComponents C [] p).1.length
  | .upgradePolicy, _ => 0

/-- The loop is left after at most so many rounds as the cap says, and no more elements were appended. -/
def Bounded (r : ListReader) (p : Parcel) : Prop :=
  (∃ t, r.LeavesWithin C p MAX_VECTOR_SIZE t) ∧ r.appended C p ≤ MAX_VECTOR_SIZE

/-! ## Their rounds -/

variable {C} {r : ListReader} {p : Parcel}

/-- The state after a number of rounds. -/
def after (C : Conversion) (r : ListReader) (p : Parcel) (i : Nat) : State r.Element :=
  ⟨i, (times (r.element C) i (r.size p).2).1, (times (r.element C) i (r.size p).2).2⟩

theorem round_after {bound i : Nat} (h : i < bound) : r.round C bound (after C r p i) = some (after C r p (i + 1)) := by
  unfold round after
  rw [if_pos h, times_succ]
  rfl

/-- A loop takes as many rounds as it counts to. -/
theorem leavesWithin_iff {n : Nat} {t : State r.Element} :
    r.LeavesWithin C p n t ↔ r.bound (r.size p).1 ≤ n ∧ t = after C r p (r.bound (r.size p).1) := by
  have hstart : ({ parcel := (r.size p).2 } : State r.Element) = after C r p 0 := rfl
  unfold LeavesWithin
  rw [hstart]
  generalize r.bound (r.size p).1 = bound
  by_cases h : bound ≤ n
  · obtain ⟨m, rfl⟩ := Nat.exists_eq_add_of_le h
    rw [Nat.add_assoc, Loop.run_of_states (after C r p) bound (m + 1) fun i hi => round_after hi, Loop.run]
    have hlast : r.round C bound (after C r p bound) = none := if_neg (Nat.lt_irrefl bound)
    rw [hlast]
    simp [h, eq_comm]
  · have hround : ∀ i < n + 1, r.round C bound (after C r p i) = some (after C r p (i + 1)) :=
      fun i hi => round_after (by omega)
    have hrun := Loop.run_of_states (after C r p) (n + 1) 0 hround
    rw [Nat.add_zero] at hrun
    rw [hrun, Loop.run]
    simp [h]

/-- The vectors hold what their loops read. -/
theorem readVector_eq {α : Type} (read : Reader α) (l : List α) (p : Parcel) :
    (readVector read l p).1 = l ++ (times read (if (readInt32 p).1.toInt > MAX_VECTOR_SIZE then 0
      else ((readInt32 p).1.toInt % 2 ^ 64).toNat) (readInt32 p).2).1 := by
  unfold readVector
  rw [bind_apply]
  split
  · simp [times]
  · rfl

/-- So many elements as rounds. -/
theorem appended_eq (h : r ≠ .upgradePolicy) : r.appended C p = r.bound (r.size p).1 := by
  cases r with
  | upgradePolicy => exact absurd rfl h
  | errorMessages | componentDescriptions | versionComponents =>
    refine (congrArg List.length (readVector_eq _ [] p)).trans ?_
    rw [List.nil_append, length_times]
    rfl

theorem bounded_iff : r.Bounded C p ↔ r.bound (r.size p).1 ≤ MAX_VECTOR_SIZE := by
  constructor
  · rintro ⟨⟨t, ht⟩, -⟩
    exact (leavesWithin_iff.mp ht).1
  · intro h
    refine ⟨⟨_, leavesWithin_iff.mpr ⟨h, rfl⟩⟩, ?_⟩
    by_cases hr : r = .upgradePolicy
    · subst hr
      exact Nat.zero_le _
    · rw [appended_eq hr]
      exact h

/-- A loop counts to no more than the cap exactly when its size is not negative, or when it was cast first. -/
theorem bound_le_iff (size : Int32) : r.bound size ≤ MAX_VECTOR_SIZE ↔ r = .upgradePolicy ∨ 0 ≤ size.toInt := by
  have hlow : -2147483648 ≤ size.toInt := size.le_toInt
  cases r with
  | upgradePolicy =>
    refine iff_of_true ?_ (.inl rfl)
    dsimp only [bound]
    unfold MAX_VECTOR_SIZE
    split <;> omega
  | errorMessages | componentDescriptions | versionComponents =>
    rw [or_iff_right (by decide)]
    dsimp only [bound]
    unfold MAX_VECTOR_SIZE
    split <;> omega

end ListReader

open ListReader

/-- A list reader, whatever the parcel holds, is done after as many rounds as the cap says, having appended no more elements, exactly
when the size it reads is not negative (or when it is the reader of a policy, which casts the size before it tests it). -/
theorem list_readers_bounded_iff (C : Conversion) (r : ListReader) (p : Parcel) :
    r.Bounded C p ↔ r = .upgradePolicy ∨ 0 ≤ (r.size p).1.toInt :=
  bounded_iff.trans (bound_le_iff _)

/-- A size of -1 keeps a reader busy for 2^64 - 1 rounds. -/
theorem negative_size_not_bounded : ¬ ListReader.errorMessages.Bounded utf16 [.int32 (-1)] := by
  rw [bounded_iff]
  exact (by decide : ¬ ListReader.errorMessages.bound (-1) ≤ MAX_VECTOR_SIZE)

end UpdateEngine.Ipc
