import UpdateEngine.Lemmas.Kinds

/-!
# Plain operations

Most of what the texts of the threads ask for is no business of the outline: no role that may go on forbids it, and it leaves the
role as it is, unless a package is being tested.
-/

namespace UpdateEngine

open Concurrent

namespace PlainAux

/-- The kinds of operations that are no business of the outline, unless a package is being tested. -/
def plainKind : OpKind → Bool
  | .query | .option | .rows | .read | .judge | .prefer | .publish | .answer | .getFlow | .assign | .getNoNet | .setNoNet | .getCancel
  | .setCancel | .getNet | .setNet | .listen | .cache | .ask | .handOver | .mark | .terminate => true
  | _ => false

/-- Operations that are no business of the outline, unless a package is being tested. -/
def plain (o : Op) : Bool := plainKind o.kind

/-! ## What they mean for a role -/

/-- The roles that plain operations leave as they are. -/
def Steady : Role → Prop
  | .download w => w.free ∧ (∀ s, w.phase ≠ .called s) ∧ ∀ s l k v, w.phase ≠ .verifying s l k v
  | r => r.free

theorem Steady.free {r : Role} (hr : Steady r) : r.free := by
  cases r with
  | download w => exact hr.1
  | _ => exact hr

/-- A role that may go on allows a plain operation. -/
theorem allowed_of_plain (P : Platform) (n : Thread) {r : Role} (hr : r.free) {o : Op} (ho : plain o = true) :
    Outline.allowed P n r o := by
  cases o with
  | queryTasks c => cases c <;> first | exact hr | exact absurd ho Bool.false_ne_true
  | updateTasks c i u => cases u <;> first | exact hr | exact absurd ho Bool.false_ne_true
  | queryComponents c => cases c <;> first | exact hr | exact absurd ho Bool.false_ne_true
  | updateComponents c u => cases c <;> first | exact hr | exact absurd ho Bool.false_ne_true
  | setFlow u => cases u <;> first | exact hr | exact absurd ho Bool.false_ne_true
  | ask q => cases q <;> first | exact hr | exact absurd ho Bool.false_ne_true
  | enter m => cases m <;> first | exact hr | exact absurd ho Bool.false_ne_true
  | _ => first | exact hr | exact absurd ho Bool.false_ne_true

/-- A plain operation leaves a role as it is. -/
theorem nextRole_of_plain (r : Role) {o : Op} (ho : plain o = true) (x : o.Res) : Outline.nextRole r o x = r := by
  cases o with
  | queryTasks c => cases c <;> first | rfl | exact absurd ho Bool.false_ne_true
  | queryComponents c => cases c <;> first | rfl | exact absurd ho Bool.false_ne_true
  | updateTasks c i u =>
    cases u with
    | progress s p => exact absurd ho Bool.false_ne_true
    | _ => cases c <;> rfl
  | setFlow u => cases u <;> first | rfl | exact absurd ho Bool.false_ne_true
  | enter m => cases m <;> first | rfl | exact absurd ho Bool.false_ne_true
  | _ => first | rfl | exact absurd ho Bool.false_ne_true

/-- A plain operation leaves a worker as it is, unless a package is being tested. -/
theorem nextWorker_of_plain (n : Thread) {w : Worker} (hw : Steady (.download w)) {o : Op} (ho : plain o = true) (x : o.Res) :
    Outline.nextWorker n w o x = w := by
  obtain ⟨-, hc, hv⟩ := hw
  cases o with
  | queryTasks c => cases c <;> first | rfl | exact absurd ho Bool.false_ne_true
  | updateTasks c i u =>
    cases u with
    | progress s p => exact absurd ho Bool.false_ne_true
    | _ => cases c <;> rfl
  | queryComponents c => cases c <;> first | rfl | exact absurd ho Bool.false_ne_true
  | updateComponents c u => cases c <;> first | rfl | exact absurd ho Bool.false_ne_true
  | setFlow u => cases u <;> first | rfl | exact absurd ho Bool.false_ne_true
  | ask q => cases q <;> first | rfl | exact absurd ho Bool.false_ne_true
  | enter m => cases m <;> first | rfl | exact absurd ho Bool.false_ne_true
  | getFlow =>
    obtain ⟨l, k, c, b, ph⟩ := w
    cases ph <;> first | rfl | exact absurd rfl (hc _)
  | readFile p =>
    obtain ⟨l, k, c, b, ph⟩ := w
    cases ph <;> first | rfl | exact absurd rfl (hv _ _ _ _)
  | _ => first | rfl | exact absurd ho Bool.false_ne_true

/-- A steady role allows plain operations, and keeps through them. -/
theorem plain_steady (P : Platform) (n : Thread) {r : Role} (hr : Steady r) (o : Op) (ho : plain o = true) :
    (outline P).allowed n r o ∧ ∀ x, (outline P).next n r o x = r := by
  refine ⟨allowed_of_plain P n hr.free ho, fun x => ?_⟩
  cases r with
  | download w => exact congrArg Role.download (nextWorker_of_plain n hr ho x)
  | _ =>
    simp only [outline, Outline.next]
    exact nextRole_of_plain _ ho x

end PlainAux

open PlainAux in
/-- A part of a text that asks for plain operations only keeps a steady role. -/
theorem Kinds.spec {P : Platform} {n : Thread} {r : Role} {α : Type} {l : List OpKind} {p : Prog α} (hp : Kinds l p)
    (hl : l.all plainKind = true) (hr : Steady r) : (outline P).Spec n p r fun _ r' => r' = r :=
  Protocol.Spec.of_uses (fun o ho => plain_steady P n hr o (List.all_eq_true.mp hl o.kind (List.contains_iff_mem.mp ho))) hp

open PlainAux in
/-- The same before a continuation. -/
theorem Kinds.skip {P : Platform} {n : Thread} {r : Role} {α β : Type} {l : List OpKind} {p : Prog α} (hp : Kinds l p)
    (hl : l.all plainKind = true) (hr : Steady r) {f : α → Prog β} {Q : β → Role → Prop}
    (hf : ∀ a, (outline P).Spec n (f a) r Q) : (outline P).Spec n (p >>= f) r Q :=
  Protocol.Spec.skip (fun o ho => plain_steady P n hr o (List.all_eq_true.mp hl o.kind (List.contains_iff_mem.mp ho))) hp hf

end UpdateEngine
