import Mathlib.Init

/-!
# Reading what was written

A message is a row of items, a writer gives the items it appends, and a reader takes items from the front. `Reads r w a` says that the
reader `r` makes `a` of what was written as `w`, and leaves exactly what comes after it, whatever that is. Readings follow each other
as the writings do.
-/

namespace Wire

variable {σ ι α β : Type}

/-- A reader takes items from the front of a row. -/
abbrev Reader (ι α : Type) := StateM (List ι) α

/-- The reader makes `a` of `w` and leaves what comes after. -/
def Reads (r : Reader ι α) (w : List ι) (a : α) : Prop := ∀ rest, r (w ++ rest) = (a, rest)

/-- The items one after the other that the reader takes for a row of `n` values. -/
def times (r : Reader ι α) : Nat → Reader ι (List α)
  | 0 => pure []
  | n + 1 => do
    let a ← r
    let l ← times r n
    return a :: l

@[simp] theorem pure_apply (a : α) (s : σ) : (pure a : StateM σ α) s = (a, s) := rfl

@[simp] theorem bind_apply (r : StateM σ α) (f : α → StateM σ β) (s : σ) : (r >>= f) s = f (r s).1 (r s).2 := rfl

@[simp] theorem map_apply (f : α → β) (r : StateM σ α) (s : σ) : (f <$> r) s = (f (r s).1, (r s).2) := rfl

@[simp] theorem get_apply (s : σ) : (get : StateM σ σ) s = (s, s) := rfl

@[simp] theorem modify_apply (f : σ → σ) (s : σ) : (modify f : StateM σ PUnit) s = (⟨⟩, f s) := rfl

theorem reads_pure (a : α) : Reads (pure a : Reader ι α) [] a := by
  intro rest
  simp

theorem Reads.bind {r : Reader ι α} {f : α → Reader ι β} {w w' : List ι} {a : α} {b : β} (h : Reads r w a)
    (hf : Reads (f a) w' b) : Reads (r >>= f) (w ++ w') b := by
  intro rest
  simp [List.append_assoc, h (w' ++ rest), hf rest]

/-- What is read when nothing comes after it. -/
theorem Reads.alone {r : Reader ι α} {w : List ι} {a : α} (h : Reads r w a) : r w = (a, []) := by
  rw [← h [], List.append_nil]

/-- A row of values is read value by value, whatever each is read as. -/
theorem Reads.times_map {r : Reader ι α} {w : α → List ι} {back : α → α} {l : List α} (h : ∀ a ∈ l, Reads r (w a) (back a)) :
    Reads (Wire.times r l.length) (l.flatMap w) (l.map back) := by
  induction l with
  | nil => exact reads_pure []
  | cons a l ih =>
    intro rest
    have hfirst := h a List.mem_cons_self (l.flatMap w ++ rest)
    have hrest := ih (fun b hb => h b (List.mem_cons_of_mem a hb)) rest
    simp [Wire.times, List.append_assoc, hfirst, hrest]

/-- As many values are read as were asked for, wherever they come from. -/
theorem length_times (r : Reader ι α) (n : Nat) (s : List ι) : (times r n s).1.length = n := by
  induction n generalizing s with
  | zero => rfl
  | succ n ih => simp [times, ih]

/-- One value more is read after the others. -/
theorem times_succ (r : Reader ι α) (n : Nat) (s : List ι) :
    times r (n + 1) s = ((times r n s).1 ++ [(r (times r n s).2).1], (r (times r n s).2).2) := by
  induction n generalizing s with
  | zero => rfl
  | succ n ih =>
    have hone : times r (n + 2) s = ((r s).1 :: (times r (n + 1) (r s).2).1, (times r (n + 1) (r s).2).2) := rfl
    rw [hone, ih (r s).2]
    rfl

end Wire
