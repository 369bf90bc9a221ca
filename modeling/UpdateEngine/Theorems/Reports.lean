import UpdateEngine.Concurrent.Trace
import UpdateEngine.Engine.DownloadThread

/-!
# What a download thread reports

The reports of an execution: percents that rise, and then its end, by the result of the library or by what `DealAbnormal` finds. The end
is missing when the thread is stopped, or when the thread has already reported a failure at 0 percent and this is one again.
-/

namespace UpdateEngine.ProgressThread.DownloadThread

open Concurrent
open UpdateEngine.DownloadThread (DOWNLOAD_FINISH_PERCENT DOWNLOAD_PERIOD_PERCENT CURLE_OK CURLE_ABORTED_BY_CALLBACK)

/-- Reports of a download that goes on: above `n` percent, below 100, and each above the ones before. -/
structure Rising (n : UInt32) (ds : List Progress) : Prop where
  status : ∀ r ∈ ds, r.status = .downloading
  above : ∀ r ∈ ds, n < r.percent
  below : ∀ r ∈ ds, r.percent < 100
  increasing : ds.Pairwise fun r r' => r.percent < r'.percent

/-- A report in front of reports that rise from it. -/
theorem Rising.cons {n : UInt32} {r : Progress} {ds : List Progress} (h : Rising r.percent ds) (hstatus : r.status = .downloading)
    (habove : n < r.percent) (hbelow : r.percent < 100) : Rising n (r :: ds) where
  status := List.forall_mem_cons.mpr ⟨hstatus, h.status⟩
  above := List.forall_mem_cons.mpr ⟨habove, fun r' hr' => UInt32.lt_trans habove (h.above r' hr')⟩
  below := List.forall_mem_cons.mpr ⟨hbelow, h.below⟩
  increasing := List.pairwise_cons.mpr ⟨h.above, h.increasing⟩

theorem Rising.nil (n : UInt32) : Rising n [] := ⟨by simp, by simp, by simp, .nil⟩

/-- The reports of an execution: those of a download that goes on, then at most one of its end. `full` says which reports may have 100
percent, and `silent` when the end may be missing. -/
structure Orderly (full : Progress → Prop) (silent : Prop) (l : Log) (ds : List Progress) (e : Option Progress) : Prop where
  split : reports l = ds ++ e.toList
  rising : Rising 0 ds
  terminal : ∀ r ∈ e, r.status ≠ .downloading
  full : ∀ r ∈ reports l, r.percent = 100 → full r
  ended : e = none → silent

/-- What is assumed of the library: percents up to 100, and an abort as the result only after a callback has asked for it. -/
structure Library (l : Log) : Prop where
  percents : ∀ percent status answer, (⟨.enters percent status, answer⟩ : Σ o : Op, o.Res) ∈ l → percent ≤ 100
  results : ∀ packageSize (t : Transfer), (⟨.curlEasyPerform packageSize, t⟩ : Σ o : Op, o.Res) ∈ l →
    t.res ≠ CURLE_ABORTED_BY_CALLBACK

/-- The executions of a thread so far, which were all told to keep it: what they have reported, and `downloadProgress_`. -/
inductive Life (percentOf : UInt64 → Nat → Nat → UInt32) : List Progress → Progress → Prop
  | fresh : Life percentOf [] {}
  | kept {before : List Progress} {p p' : Progress} {fileName : String} {l : Log} (h : Life percentOf before p)
      (ht : (processThreadExecute percentOf fileName p).Trace l (true, p')) : Life percentOf (before ++ reports l) p'

/-- The end that `DealAbnormal` reports. -/
def Abnormal (r : Progress) : Prop :=
  (r.status = .downloadFail ∨ r.status = .downloadCancel) ∧ (r.endReason = "11" ∨ r.endReason = "9")

/-- A download is complete, or was found abnormal by a call with this percentage. -/
def CompleteOrAbnormal (l : Log) (r : Progress) : Prop :=
  r.status = .downloadSuccess ∨ Abnormal r ∧ ∃ status, (⟨.enters r.percent status, false⟩ : Σ o : Op, o.Res) ∈ l

/-- The thread has reported a failure at 0 percent last. -/
def FailedBefore (before : List Progress) : Prop := ∃ r, before.getLast? = some r ∧ r.status = .downloadFail ∧ r.percent = 0

namespace ReportsAux

variable {percentOf : UInt64 → Nat → Nat → UInt32} {percent : UInt32} {status : UpgradeStatus} {error : String}
  {p p' : Progress} {l l' : Log} {b : Bool}

@[simp] theorem reports_nil : reports [] = [] := rfl

@[simp] theorem reports_append (l l' : Log) : reports (l ++ l') = reports l ++ reports l' := List.filterMap_append ..

@[simp] theorem reports_callback (r : Progress) (u : Unit) (l : Log) : reports (⟨.callback r, u⟩ :: l) = r :: reports l := rfl

/-- Any other operation reports nothing. -/
theorem reports_cons {o : Op} (x : o.Res) (l : Log) (h : ∀ r, o ≠ .callback r) : reports (⟨o, x⟩ :: l) = reports l := by
  cases o with
  | callback r => exact absurd rfl (h r)
  | _ => rfl

@[simp] theorem stopped_append : Stopped (l ++ l') ↔ Stopped l ∨ Stopped l' := by
  simp only [Stopped, List.mem_append, exists_or]

/-- When a call does not report. -/
def Drops (percent : UInt32) (status : UpgradeStatus) (p : Progress) : Prop :=
  (p.status = status ∧ p.percent = percent) ∨
    (status ≠ .downloadFail ∧ percent ≠ DOWNLOAD_FINISH_PERCENT ∧ percent < p.percent + DOWNLOAD_PERIOD_PERCENT) ∨
    (percent = DOWNLOAD_FINISH_PERCENT ∧ status = .downloading)

/-- What a call of `DownloadCallback` can do. -/
inductive Outcome (percent : UInt32) (status : UpgradeStatus) (error : String) (p : Progress) : Log → Bool × Progress → Prop
  | stopped {l : Log} (hr : reports l = []) (hs : Stopped l) : Outcome percent status error p l (true, p)
  | abnormal {l : Log} {p' : Progress} (hr : reports l = [p']) (ha : Abnormal p') (hp : p'.percent = percent)
      (he : (⟨.enters percent status, false⟩ : Σ o : Op, o.Res) ∈ l) : Outcome percent status error p l (true, p')
  | dropped {l : Log} (hr : reports l = []) (hd : Drops percent status p) : Outcome percent status error p l (false, p)
  | delivered {l : Log} (hr : reports l = [⟨percent, status, error⟩]) (hd : ¬ Drops percent status p) :
      Outcome percent status error p l (false, ⟨percent, status, error⟩)

theorem isAbnormal_reports (h : isAbnormal.Trace l b) : reports l = [] := by
  obtain ⟨noNet, l, rfl, h⟩ := h
  cases noNet with
  | true =>
    obtain ⟨rfl, -⟩ := h
    rfl
  | false =>
    obtain ⟨cancel, l, rfl, rfl, -⟩ := h
    rfl

/-- `DealAbnormal` reports an abnormal end, or nothing. -/
theorem dealAbnormal_cases (h : (dealAbnormal percent p).Trace l (b, p')) :
    (b = false ∧ p' = p ∧ reports l = []) ∨ (b = true ∧ reports l = [p'] ∧ Abnormal p' ∧ p'.percent = percent) := by
  replace h := Prog.trace_bind.mp h
  obtain ⟨abnormal, l₁, l₂, rfl, hd, h⟩ := h
  have hnone := isAbnormal_reports hd
  cases abnormal with
  | false =>
    obtain ⟨rfl, heq⟩ := h
    cases heq
    exact .inl ⟨rfl, rfl, by simpa using hnone⟩
  | true =>
    obtain ⟨noNet, l, rfl, noNet', l, rfl, cancel, l, rfl, h⟩ := h
    right
    have habnormal : Abnormal ⟨percent, if noNet' then .downloadFail else .downloadCancel, if noNet then "11" else "9"⟩ := by
      refine ⟨?_, ?_⟩
      · cases noNet' <;> simp
      · cases noNet <;> simp
    cases cancel with
    | true =>
      obtain ⟨_, l, rfl, _, l, rfl, rfl, heq⟩ := h
      cases heq
      exact ⟨rfl, by simp [reports_cons, hnone], habnormal, rfl⟩
    | false =>
      obtain ⟨_, l, rfl, rfl, heq⟩ := h
      cases heq
      exact ⟨rfl, by simp [reports_cons, hnone], habnormal, rfl⟩

/-- Operations that report nothing may come first. -/
theorem Outcome.prepend {r : Bool × Progress} (h : Outcome percent status error p l r) (l₀ : Log) (hnone : reports l₀ = []) :
    Outcome percent status error p (l₀ ++ l) r := by
  cases h with
  | stopped hr hs => exact .stopped (by simp [hnone, hr]) (stopped_append.mpr (.inr hs))
  | abnormal hr ha hp he => exact .abnormal (by simp [hnone, hr]) ha hp (List.mem_append_right _ he)
  | dropped hr hd => exact .dropped (by simp [hnone, hr]) hd
  | delivered hr hd => exact .delivered (by simp [hnone, hr]) hd

/-- The end of `DownloadCallback`, once the other tests have let the report through. -/
theorem deliver_cases {r : Bool × Progress} (hsame : ¬ (p.status = status ∧ p.percent = percent))
    (hlow : ¬ (status ≠ .downloadFail ∧ percent ≠ DOWNLOAD_FINISH_PERCENT ∧ percent < p.percent + DOWNLOAD_PERIOD_PERCENT))
    (h : Prog.Trace (if percent = DOWNLOAD_FINISH_PERCENT && status = .downloading then pure (false, p) else do
      call (.callback { percent := percent, status := status, endReason := error })
      pure (false, { percent := percent, status := status, endReason := error }) : Prog (Bool × Progress)) l r) :
    Outcome percent status error p l r := by
  split at h
  · rename_i hfull
    obtain ⟨rfl, rfl⟩ := h
    exact .dropped rfl (.inr (.inr (by simpa using hfull)))
  · rename_i hfull
    obtain ⟨_, l, rfl, rfl, rfl⟩ := h
    refine .delivered rfl ?_
    rintro (hd | hd | hd)
    · exact hsame hd
    · exact hlow hd
    · exact hfull (by simpa using hd)

/-- `DownloadCallback` does one of these. -/
theorem downloadCallback_cases {r : Bool × Progress} (h : (downloadCallback percent status error p).Trace l r) :
    Outcome percent status error p l r := by
  obtain ⟨stopped, l, rfl, h⟩ := h
  cases stopped with
  | true =>
    obtain ⟨rfl, rfl⟩ := h
    exact .stopped rfl ⟨percent, status, List.mem_singleton_self _⟩
  | false =>
    replace h := Prog.trace_bind.mp (show (dealAbnormal percent p >>= _).Trace l r from h)
    obtain ⟨⟨abnormal, p'⟩, l₁, l₂, rfl, hdeal, h⟩ := h
    rcases dealAbnormal_cases hdeal with ⟨rfl, rfl, hnone⟩ | ⟨rfl, hone, habnormal, hpercent⟩
    · -- what is read before reports nothing, and the tests decide
      suffices hrest : Outcome percent status error p' l₂ r from
        hrest.prepend (⟨.enters percent status, false⟩ :: l₁) (by simpa [reports_cons] using hnone)
      dsimp only at h
      rw [if_neg Bool.false_ne_true] at h
      split at h
      · rename_i hsame
        obtain ⟨rfl, rfl⟩ := h
        exact .dropped rfl (.inl (by simpa using hsame))
      · rename_i hsame
        rw [Bool.and_eq_true, decide_eq_true_eq, decide_eq_true_eq] at hsame
        split at h
        · rename_i hfail
          obtain ⟨exists_, l, rfl, h⟩ := h
          cases exists_ with
          | true =>
            obtain ⟨_, l, rfl, h⟩ := h
            exact (deliver_cases hsame (fun hlow => hlow.1 hfail) h).prepend [_, _] rfl
          | false => exact (deliver_cases hsame (fun hlow => hlow.1 hfail) h).prepend [_] rfl
        · rename_i hfail
          split at h
          · rename_i hlow
            obtain ⟨rfl, rfl⟩ := h
            exact .dropped rfl (.inr (.inl ⟨hfail, by simpa using hlow⟩))
          · rename_i hlow
            exact deliver_cases hsame (fun hd => hlow (by simpa using hd.2)) h
    · obtain ⟨rfl, rfl⟩ := h
      exact .abnormal (by simpa [reports_cons] using hone) habnormal hpercent (List.mem_cons_self ..)

/-- A call is on record with its arguments. -/
theorem entered_mem {r : Bool × Progress} (h : (downloadCallback percent status error p).Trace l r) :
    ∃ answer, (⟨.enters percent status, answer⟩ : Σ o : Op, o.Res) ∈ l := by
  obtain ⟨answer, l, rfl, -⟩ := h
  exact ⟨answer, List.mem_cons_self ..⟩

/-! ## The transfer -/

/-- A percentage that is not dropped is above the last one. -/
theorem lt_of_not_lt_succ {a b : UInt32} (hb : b < 100) (h : ¬ a < b + DOWNLOAD_PERIOD_PERCENT) : b < a := by
  simp only [UInt32.lt_iff_toNat_lt, DOWNLOAD_PERIOD_PERCENT, UInt32.toNat_add] at h hb ⊢
  have h100 : (100 : UInt32).toNat = 100 := rfl
  have h1 : (1 : UInt32).toNat = 1 := rfl
  omega

/-- What a transfer has reported when the library returns: rising percents, and an abnormal end when it was aborted for one. -/
inductive Transferred (p : Progress) : Log → Bool × Progress → Prop
  | finished {l : Log} {ds : List Progress} (hr : reports l = ds) (hd : Rising p.percent ds) :
      Transferred p l (false, (ds.getLast?).getD p)
  | stopped {l : Log} {ds : List Progress} {p' : Progress} (hr : reports l = ds) (hd : Rising p.percent ds) (hs : Stopped l) :
      Transferred p l (true, p')
  | abnormal {l : Log} {ds : List Progress} {p' e : Progress} (hr : reports l = ds ++ [e]) (hd : Rising p.percent ds)
      (ha : Abnormal e) (he : ∃ status, (⟨.enters e.percent status, false⟩ : Σ o : Op, o.Res) ∈ l) : Transferred p l (true, p')

/-- Operations that report nothing may come first. -/
theorem Transferred.prepend {r : Bool × Progress} (h : Transferred p l r) (l₀ : Log) (hnone : reports l₀ = []) :
    Transferred p (l₀ ++ l) r := by
  cases h with
  | finished hr hd => exact .finished (by simp [hnone, hr]) hd
  | stopped hr hd hs => exact .stopped (by simp [hnone, hr]) hd (stopped_append.mpr (.inr hs))
  | abnormal hr hd ha he =>
    obtain ⟨status, he⟩ := he
    exact .abnormal (by simp [hnone, hr]) hd ha ⟨status, List.mem_append_right _ he⟩

/-- A report that a transfer goes on comes first. -/
theorem Transferred.cons {r : Bool × Progress} {d : Progress} (h : Transferred d l r) (hstatus : d.status = .downloading)
    (habove : p.percent < d.percent) (hbelow : d.percent < 100) (l₀ : Log) (hone : reports l₀ = [d]) : Transferred p (l₀ ++ l) r := by
  cases h with
  | finished hr hd =>
    rename_i ds
    have hlast : (ds.getLast?).getD d = ((d :: ds).getLast?).getD p := by simp [List.getLast?_cons]
    rw [hlast]
    exact .finished (by simp [hone, hr]) (hd.cons hstatus habove hbelow)
  | stopped hr hd hs => exact .stopped (by simp [hone, hr]) (hd.cons hstatus habove hbelow) (stopped_append.mpr (.inr hs))
  | abnormal hr hd ha he =>
    obtain ⟨status, he⟩ := he
    exact .abnormal (by simp [hone, hr]) (hd.cons hstatus habove hbelow) ha ⟨status, List.mem_append_right _ he⟩

/-- The percentage of a report that is not dropped. -/
theorem percent_of_not_drops (h : ¬ Drops percent .downloading p) (hp : p.percent < 100) (hpercent : percent ≤ 100) :
    p.percent < percent ∧ percent < 100 := by
  simp only [Drops, not_or, not_and] at h
  have hne : percent ≠ DOWNLOAD_FINISH_PERCENT := fun hfull => h.2.2 hfull trivial
  have hlow := h.2.1 (by simp) hne
  refine ⟨lt_of_not_lt_succ hp hlow, ?_⟩
  exact UInt32.lt_of_le_of_ne hpercent hne

/-- The transfer: the induction is on what the library does. -/
theorem transfer_cases {events : List TransferEvent} {r : Bool × Progress} (h : (transfer percentOf events p).Trace l r)
    (hp : p.percent < 100)
    (hpercents : ∀ percent status answer, (⟨.enters percent status, answer⟩ : Σ o : Op, o.Res) ∈ l → percent ≤ 100) :
    Transferred p l r := by
  induction events generalizing p l with
  | nil =>
    obtain ⟨rfl, rfl⟩ := h
    exact .finished rfl (.nil _)
  | cons event events ih =>
    cases event with
    | data bytes =>
      obtain ⟨_, l, rfl, h⟩ := h
      refine (ih h hp ?_).prepend [_] rfl
      intro percent status answer hmem
      exact hpercents percent status answer (List.mem_cons_of_mem _ hmem)
    | progress dlTotal dlNow =>
      replace h := Prog.trace_bind.mp h
      obtain ⟨⟨aborted, p'⟩, l₁, l₂, rfl, hprogress, h⟩ := h
      have hrest := fun percent status answer hmem => hpercents percent status answer (List.mem_append_right l₁ hmem)
      unfold onDownloadProgress at hprogress
      split at hprogress
      · obtain ⟨rfl, heq⟩ := hprogress
        cases heq
        exact ih h hp hrest
      · obtain ⟨curr, l₁, rfl, hprogress⟩ := hprogress
        have hentered := fun percent status answer hmem =>
          hpercents percent status answer (List.mem_append_left l₂ (List.mem_cons_of_mem _ hmem))
        rw [List.cons_append, ← List.singleton_append]
        refine Transferred.prepend ?_ [⟨.getLocalFileLength, curr⟩] rfl
        cases downloadCallback_cases hprogress with
        | stopped hr hs =>
          obtain ⟨rfl, rfl⟩ := h
          exact .stopped (by simp [hr]) (.nil _) (stopped_append.mpr (.inl hs))
        | abnormal hr ha hpercent he =>
          obtain ⟨rfl, rfl⟩ := h
          refine .abnormal (by simp [hr]) (.nil _) ha ⟨.downloading, List.mem_append_left _ ?_⟩
          rwa [hpercent]
        | dropped hr hd => exact (ih h hp hrest).prepend l₁ hr
        | delivered hr hd =>
          obtain ⟨answer, hmem⟩ := entered_mem hprogress
          obtain ⟨habove, hbelow⟩ := percent_of_not_drops hd hp (hentered _ _ _ hmem)
          exact (ih h hbelow hrest).cons rfl habove hbelow l₁ hr

/-! ## An execution -/

/-- A call of `DownloadCallback` whose answer is not looked at. -/
theorem last_call {keep : Bool} {r : Bool × Progress}
    (h : (downloadCallback percent status error p >>= fun x => Prog.ret (keep, x.2)).Trace l r) :
    ∃ b, Outcome percent status error p l (b, r.2) ∧ r.1 = keep := by
  obtain ⟨⟨b, p'⟩, l₁, l₂, rfl, hcall, rfl, rfl⟩ := Prog.trace_bind.mp h
  rw [List.append_nil]
  exact ⟨b, downloadCallback_cases hcall, rfl⟩

/-- The result of the library decides about the last call of `DownloadCallback`, unless the transfer was aborted. -/
theorem finish_cases {res : Nat} {r : Bool × Progress} (h : (finish res p).Trace l r) :
    r.1 = false ∧ (res = CURLE_ABORTED_BY_CALLBACK ∧ reports l = [] ∨ res ≠ CURLE_ABORTED_BY_CALLBACK ∧
      ∃ percent status error b, (percent = 0 ∧ status = .downloadFail ∨ percent = 100 ∧ status = .downloadSuccess) ∧
        Outcome percent status error p l (b, r.2)) := by
  obtain ⟨_, l, rfl, h⟩ := h
  by_cases hres : res = CURLE_OK
  · subst hres
    obtain ⟨b, hcall, hkeep⟩ :=
      last_call (show (downloadCallback DOWNLOAD_FINISH_PERCENT .downloadSuccess "" p >>= fun x => Prog.ret (false, x.2)).Trace l r
        from h)
    exact ⟨hkeep, .inr ⟨by decide, _, _, _, b, .inr ⟨rfl, rfl⟩, hcall.prepend [_] rfl⟩⟩
  · by_cases haborted : res = CURLE_ABORTED_BY_CALLBACK
    · subst haborted
      obtain ⟨rfl, rfl⟩ := (show (Prog.ret (false, p) : Prog (Bool × Progress)).Trace l r from h)
      exact ⟨rfl, .inl ⟨rfl, rfl⟩⟩
    · dsimp only at h
      rw [if_pos hres, if_pos haborted] at h
      obtain ⟨b, hcall, hkeep⟩ :=
        last_call (show (downloadCallback 0 .downloadFail "13" p >>= fun x => Prog.ret (false, x.2)).Trace l r from h)
      exact ⟨hkeep, .inr ⟨haborted, _, _, _, b, .inl ⟨rfl, rfl⟩, hcall.prepend [_] rfl⟩⟩

/-- An execution that fails before there is a transfer reports a failure at 0 percent, and keeps the thread. -/
theorem failed_start (l₀ : Log) (hnone : reports l₀ = []) {r : Bool × Progress}
    (h : (downloadCallback 0 .downloadFail error p >>= fun x => Prog.ret (true, x.2)).Trace l r) :
    r.1 = true ∧ ∃ error b, Outcome 0 .downloadFail error p (l₀ ++ l) (b, r.2) := by
  obtain ⟨b, hcall, hkeep⟩ := last_call h
  exact ⟨hkeep, error, b, hcall.prepend l₀ hnone⟩

/-- An execution fails before there is a transfer, and the thread is kept; or there is a transfer, and its end. -/
theorem execute_cases {fileName : String} {r : Bool × Progress} (h : (processThreadExecute percentOf fileName p).Trace l r) :
    (r.1 = true ∧ ∃ error b, Outcome 0 .downloadFail error p l (b, r.2)) ∨
      (r.1 = false ∧ ∃ packageSize t l₀ l₁ l₂ aborted p₁, l = l₀ ++ (l₁ ++ l₂) ∧ reports l₀ = [] ∧
        (⟨.curlEasyPerform packageSize, t⟩ : Σ o : Op, o.Res) ∈ l₀ ∧
        (transfer percentOf t.events p).Trace l₁ (aborted, p₁) ∧
        (finish (if aborted then CURLE_ABORTED_BY_CALLBACK else t.res) p₁).Trace l₂ r) := by
  obtain ⟨packageSize, l, rfl, h⟩ := h
  by_cases hdot : hasDot fileName = true
  · change (if _ then _ else _ : Prog (Bool × Progress)).Trace l r at h
    rw [if_pos hdot] at h
    exact .inl (failed_start [_] rfl h)
  · change (if _ then _ else _ : Prog (Bool × Progress)).Trace l r at h
    rw [if_neg hdot] at h
    obtain ⟨opened, l, rfl, h⟩ := h
    cases opened with
    | false =>
      exact .inl (failed_start [_, _] rfl h)
    | true =>
      obtain ⟨inited, l, rfl, h⟩ := h
      cases inited with
      | false =>
        obtain ⟨_, l, rfl, h⟩ := h
        exact .inl (failed_start [_, _, _, _] rfl h)
      | true =>
        obtain ⟨t, l, rfl, h⟩ := h
        replace h := Prog.trace_bind.mp (show (transfer percentOf t.events p >>= _).Trace l r from h)
        obtain ⟨⟨aborted, p₁⟩, l₁, l₂, rfl, htransfer, h⟩ := h
        refine .inr ⟨(finish_cases h).1, packageSize, t, [_, _, _, ⟨.curlEasyPerform packageSize, t⟩], l₁, l₂, aborted, p₁, rfl, rfl,
          by simp, htransfer, h⟩

/-- A thread that was kept has nothing but its last report, at 0 percent. -/
theorem life_last {before : List Progress} (h : Life percentOf before p) :
    p.percent = 0 ∧ (before = [] ∧ p = {} ∨ before.getLast? = some p) := by
  induction h with
  | fresh => exact ⟨rfl, .inl ⟨rfl, rfl⟩⟩
  | kept _ ht ih =>
    rcases execute_cases ht with ⟨-, error, b, hcall⟩ | ⟨hkeep, -⟩
    · cases hcall with
      | stopped hr | dropped hr => simpa [hr] using ih
      | abnormal hr ha hpercent => exact ⟨hpercent, .inr (by simp [hr])⟩
      | delivered hr => exact ⟨rfl, .inr (by simp [hr])⟩
    · cases hkeep

/-- Only the end can have 100 percent. -/
theorem orderly_of {full : Progress → Prop} {silent : Prop} {ds : List Progress} {e : Option Progress}
    (hsplit : reports l = ds ++ e.toList) (hrising : Rising 0 ds) (hend : ∀ r ∈ e, r.status ≠ .downloading ∧ (r.percent = 100 → full r))
    (hsilent : e = none → silent) : Orderly full silent l ds e := by
  refine ⟨hsplit, hrising, fun r hr => (hend r hr).1, ?_, hsilent⟩
  intro r hr h100
  rw [hsplit, List.mem_append] at hr
  rcases hr with hr | hr
  · have hbelow := hrising.below r hr
    rw [h100] at hbelow
    exact absurd hbelow (by decide)
  · exact (hend r (Option.mem_toList.mp hr)).2 h100

/-- An abnormal end, after what rises. -/
theorem orderly_abnormal {silent : Prop} {ds : List Progress} {e : Progress} (hr : reports l = ds ++ [e]) (hd : Rising 0 ds)
    (ha : Abnormal e) (he : ∃ status, (⟨.enters e.percent status, false⟩ : Σ o : Op, o.Res) ∈ l) :
    Orderly (CompleteOrAbnormal l) silent l ds (some e) := by
  refine orderly_of (by simpa using hr) hd ?_ (by simp)
  intro r hmem
  obtain rfl := Option.mem_some_iff.mp hmem
  refine ⟨?_, fun _ => .inr ⟨ha, he⟩⟩
  rcases ha.1 with hs | hs <;> simp [hs]

/-- The last call of an execution: its report comes after what rises, unless the call is dropped. -/
theorem orderly_end (l₁ : Log) {l₂ : Log} {silent : Prop} {r : Bool × Progress} (hd : Rising 0 (reports l₁))
    (hcall : Outcome percent status error p l₂ r) (hstatus : status ≠ .downloading)
    (hfull : percent = 100 → status = .downloadSuccess) (hstopped : Stopped l₂ → silent)
    (hdropped : Drops percent status p → reports l₂ = [] → silent) :
    ∃ ds e, Orderly (CompleteOrAbnormal (l₁ ++ l₂)) silent (l₁ ++ l₂) ds e := by
  cases hcall with
  | stopped hr hs => exact ⟨reports l₁, none, orderly_of (by simp [hr]) hd (by simp) fun _ => hstopped hs⟩
  | abnormal hr ha hpercent he =>
    refine ⟨reports l₁, _, orderly_abnormal (by rw [reports_append, hr]) hd ha ⟨status, List.mem_append_right _ ?_⟩⟩
    rwa [hpercent]
  | dropped hr hdrop => exact ⟨reports l₁, none, orderly_of (by simp [hr]) hd (by simp) fun _ => hdropped hdrop hr⟩
  | delivered hr =>
    refine ⟨reports l₁, some ⟨percent, status, error⟩, orderly_of (by rw [reports_append, hr]; rfl) hd ?_ (by simp)⟩
    intro r hmem
    obtain rfl := Option.mem_some_iff.mp hmem
    exact ⟨hstatus, fun h100 => .inl (hfull h100)⟩

/-- Where `downloadProgress_` stands after rising reports. -/
theorem last_of_rising {ds : List Progress} (hd : Rising p.percent ds) :
    (ds = [] ∧ (ds.getLast?).getD p = p) ∨
      (((ds.getLast?).getD p).status = .downloading ∧ ((ds.getLast?).getD p).percent < 100) := by
  cases hlast : ds.getLast? with
  | none => exact .inl ⟨List.getLast?_eq_none_iff.mp hlast, rfl⟩
  | some d =>
    have hmem := List.mem_of_getLast? hlast
    exact .inr ⟨hd.status d hmem, hd.below d hmem⟩

/-- The last call is dropped only as a failure after a failure. -/
theorem status_of_drops (hcalled : percent = 0 ∧ status = .downloadFail ∨ percent = 100 ∧ status = .downloadSuccess)
    (hp : p.percent < 100) (hdrop : Drops percent status p) : p.status = .downloadFail := by
  rcases hcalled with ⟨rfl, rfl⟩ | ⟨rfl, rfl⟩
  · rcases hdrop with ⟨hstatus, -⟩ | ⟨hne, -⟩ | ⟨-, hstatus⟩
    · exact hstatus
    · exact absurd rfl hne
    · cases hstatus
  · rcases hdrop with ⟨-, hpercent⟩ | ⟨-, hne, -⟩ | ⟨-, hstatus⟩
    · rw [hpercent] at hp
      exact absurd hp (by decide)
    · exact absurd rfl hne
    · cases hstatus

end ReportsAux

open ReportsAux

/-- The reports of an execution: rising percents between 1 and 99, then one end; 100 percent only with a complete download or the abnormal
end of a call with 100 percent; and no end only when the thread is stopped, or fails again at 0 percent after it has reported that last. -/
theorem reports_orderly {percentOf : UInt64 → Nat → Nat → UInt32} {fileName : String} {before : List Progress} {p : Progress} {l : Log}
    {r : Bool × Progress} (hlife : Life percentOf before p) (h : (processThreadExecute percentOf fileName p).Trace l r)
    (hlibrary : Library l) :
    ∃ ds e, Orderly (CompleteOrAbnormal l) (Stopped l ∨ reports l = [] ∧ FailedBefore before) l ds e := by
  obtain ⟨hzero, hlast⟩ := life_last hlife
  have hfailed (hstatus : p.status = .downloadFail) : FailedBefore before := by
    rcases hlast with ⟨-, rfl⟩ | hlast
    · cases hstatus
    · exact ⟨p, hlast, hstatus, hzero⟩
  rcases execute_cases h with ⟨-, error, b, hcall⟩ | ⟨-, packageSize, t, l₀, l₁, l₂, aborted, p₁, rfl, hnone, ht, htransfer, hfinish⟩
  · -- no transfer
    refine orderly_end [] (.nil 0) hcall (by simp) (by simp) .inl ?_
    rintro (⟨hstatus, -⟩ | ⟨hstatus, -⟩ | ⟨-, hstatus⟩) hr
    · exact .inr ⟨hr, hfailed hstatus⟩
    · exact absurd rfl hstatus
    · cases hstatus
  · -- a transfer, whose end the library or a callback decides
    have hres := hlibrary.results packageSize t (List.mem_append_left _ ht)
    have hpercents := fun percent status answer hmem =>
      hlibrary.percents percent status answer (List.mem_append_right l₀ (List.mem_append_left l₂ hmem))
    have hrising {ds : List Progress} (hd : Rising p.percent ds) : Rising 0 ds := by rwa [hzero] at hd
    have hcase := transfer_cases htransfer (by rw [hzero]; decide) hpercents
    obtain ⟨-, hend⟩ := finish_cases hfinish
    rw [← List.append_assoc]
    cases hcase with
    | finished hr hd =>
      rename_i ds
      rcases hend with ⟨haborted, -⟩ | ⟨-, percent, status, error, b, hcalled, hcall⟩
      · exact absurd haborted hres
      · refine orderly_end (l₀ ++ l₁) (by simpa [hnone, hr] using hrising hd) hcall ?_ ?_ ?_ ?_
        · rcases hcalled with ⟨-, rfl⟩ | ⟨-, rfl⟩ <;> simp
        · rcases hcalled with ⟨rfl, -⟩ | ⟨-, rfl⟩ <;> simp
        · intro hs
          exact .inl (stopped_append.mpr (.inr hs))
        · intro hdrop hr₂
          rcases last_of_rising hd with ⟨rfl, hq⟩ | ⟨hstatus, hbelow⟩
          · rw [hq] at hdrop
            refine .inr ⟨by simp [hnone, hr, hr₂], hfailed ?_⟩
            exact status_of_drops hcalled (by rw [hzero]; decide) hdrop
          · rw [status_of_drops hcalled hbelow hdrop] at hstatus
            cases hstatus
    | stopped hr hd hs =>
      rename_i ds
      rcases hend with ⟨-, hr₂⟩ | ⟨hne, -⟩
      · exact ⟨ds, none, orderly_of (by simp [hnone, hr, hr₂]) (hrising hd) (by simp) fun _ =>
          .inl (stopped_append.mpr (.inl (stopped_append.mpr (.inr hs))))⟩
      · exact absurd rfl hne
    | abnormal hr hd ha he =>
      obtain ⟨status, he⟩ := he
      rcases hend with ⟨-, hr₂⟩ | ⟨hne, -⟩
      · exact ⟨_, _, orderly_abnormal (by simp [hnone, hr, hr₂]) (hrising hd) ha
          ⟨status, List.mem_append_left _ (List.mem_append_right _ he)⟩⟩
      · exact absurd rfl hne

/-- A download with one report on its way. -/
def completeLog : Log :=
  [⟨.getLocalFileLength, (0 : UInt64)⟩, ⟨.fopen, true⟩, ⟨.curlEasyInit, true⟩,
    ⟨.curlEasyPerform 0, ({ events := [.progress 10 5] } : Transfer)⟩, ⟨.getLocalFileLength, (0 : UInt64)⟩,
    ⟨.enters 50 .downloading, false⟩, ⟨.getIsNoNet, false⟩, ⟨.getIsCancel, false⟩,
    ⟨.callback { percent := 50, status := .downloading }, ()⟩, ⟨.processThreadExit, ()⟩,
    ⟨.enters 100 .downloadSuccess, false⟩, ⟨.getIsNoNet, false⟩, ⟨.getIsCancel, false⟩,
    ⟨.callback { percent := 100, status := .downloadSuccess }, ()⟩]

theorem reports_orderly_complete :
    reports completeLog = [{ percent := 50, status := .downloading }, { percent := 100, status := .downloadSuccess }] ∧
      ∃ ds e, Orderly (CompleteOrAbnormal completeLog) (Stopped completeLog ∨ reports completeLog = [] ∧ FailedBefore []) completeLog
        ds e := by
  have htrace : (processThreadExecute (fun _ _ _ => 50) "a" {}).Trace completeLog
      (false, { percent := 100, status := .downloadSuccess }) := Prog.trace_of_follows (by decide)
  refine ⟨rfl, reports_orderly .fresh htrace ⟨?_, ?_⟩⟩
  · intro percent status answer hmem
    simp only [completeLog, List.mem_cons, Sigma.mk.injEq, reduceCtorEq, false_and, false_or, List.not_mem_nil, or_false,
      Op.enters.injEq] at hmem
    rcases hmem with ⟨⟨rfl, -⟩, -⟩ | ⟨⟨rfl, -⟩, -⟩ <;> decide
  · simp [completeLog, CURLE_ABORTED_BY_CALLBACK]

/-- A download that is complete when there is no network. -/
def abnormalLog : Log :=
  [⟨.getLocalFileLength, (0 : UInt64)⟩, ⟨.fopen, true⟩, ⟨.curlEasyInit, true⟩, ⟨.curlEasyPerform 0, ({} : Transfer)⟩,
    ⟨.processThreadExit, ()⟩, ⟨.enters 100 .downloadSuccess, false⟩, ⟨.getIsNoNet, true⟩, ⟨.getIsNoNet, true⟩, ⟨.getIsNoNet, true⟩,
    ⟨.getIsCancel, false⟩, ⟨.callback { percent := 100, status := .downloadFail, endReason := "11" }, ()⟩]

/-- A file that cannot be opened; and, once it can, a server that cannot be reached. -/
def unopenedLog : Log :=
  [⟨.getLocalFileLength, (0 : UInt64)⟩, ⟨.fopen, false⟩, ⟨.enters 0 .downloadFail, false⟩, ⟨.getIsNoNet, false⟩,
    ⟨.getIsCancel, false⟩, ⟨.access, false⟩,
    ⟨.callback { percent := 0, status := .downloadFail, endReason := "Failed ot open file" }, ()⟩]

def unreachedLog : Log :=
  [⟨.getLocalFileLength, (0 : UInt64)⟩, ⟨.fopen, true⟩, ⟨.curlEasyInit, true⟩, ⟨.curlEasyPerform 0, ({ res := 7 } : Transfer)⟩,
    ⟨.processThreadExit, ()⟩, ⟨.enters 0 .downloadFail, false⟩, ⟨.getIsNoNet, false⟩, ⟨.getIsCancel, false⟩]

/-- An end with 100 percent is not always that of a complete download; and, when it is not, the end may be missing besides. -/
theorem reports_not_orderly :
    (¬ ∀ (percentOf : UInt64 → Nat → Nat → UInt32) (fileName : String) (before : List Progress) (p : Progress) (l : Log)
      (r : Bool × Progress), Life percentOf before p → (processThreadExecute percentOf fileName p).Trace l r → Library l →
      ∃ ds e, Orderly (fun r => r.status = .downloadSuccess) (Stopped l) l ds e) ∧
    ¬ ∀ (percentOf : UInt64 → Nat → Nat → UInt32) (fileName : String) (before : List Progress) (p : Progress) (l : Log)
      (r : Bool × Progress), Life percentOf before p → (processThreadExecute percentOf fileName p).Trace l r → Library l →
      ∃ ds e, Orderly (CompleteOrAbnormal l) (Stopped l) l ds e := by
  constructor
  · intro hall
    have htrace : (processThreadExecute (fun _ _ _ => 50) "a" {}).Trace abnormalLog
        (false, { percent := 100, status := .downloadFail, endReason := "11" }) := Prog.trace_of_follows (by decide)
    obtain ⟨ds, e, h⟩ := hall _ _ _ _ _ _ .fresh htrace ⟨by simp [abnormalLog], by simp [abnormalLog, CURLE_ABORTED_BY_CALLBACK]⟩
    have hfull := h.full { percent := 100, status := .downloadFail, endReason := "11" } (List.mem_singleton_self _) rfl
    cases hfull
  · intro hall
    have hunopened : (processThreadExecute (fun _ _ _ => 50) "a" {}).Trace unopenedLog
        (true, { percent := 0, status := .downloadFail, endReason := "Failed ot open file" }) :=
      Prog.trace_of_follows (by decide)
    have hunreached : (processThreadExecute (fun _ _ _ => 50) "a"
        { percent := 0, status := .downloadFail, endReason := "Failed ot open file" }).Trace unreachedLog
        (false, { percent := 0, status := .downloadFail, endReason := "Failed ot open file" }) :=
      Prog.trace_of_follows (by decide)
    obtain ⟨ds, e, h⟩ := hall _ _ _ _ _ _ (.kept .fresh hunopened) hunreached
      ⟨by simp [unreachedLog], by simp [unreachedLog, CURLE_ABORTED_BY_CALLBACK]⟩
    have hnone : e = none := by
      have hsplit : [] = ds ++ e.toList := h.split
      simpa using (List.append_eq_nil_iff.mp hsplit.symm).2
    obtain ⟨percent, status, hstopped⟩ := h.ended hnone
    simp [unreachedLog] at hstopped

/-! ## The flows of the firmware -/

section Flows

variable (P : Platform) (f : Nat) (o : DownloadOptions) (fileName serverUrl : String)

namespace ReportsAux

/-- A choice in a program stays one. -/
theorem interp_ite {c : Prop} [Decidable c] {α : Type} (p q : Prog α) :
    (if c then p else q).interp (onFlow P f o fileName serverUrl) =
      if c then p.interp (onFlow P f o fileName serverUrl) else q.interp (onFlow P f o fileName serverUrl) := apply_ite ..

/-- One operation is replaced by its program. -/
theorem interp_perform (q : Op) : (call q).interp (onFlow P f o fileName serverUrl) = onFlow P f o fileName serverUrl q :=
  Prog.bind_ret _

theorem dealAbnormal_onFlow (percent : UInt32) (p : Progress) :
    (dealAbnormal percent p).interp (onFlow P f o fileName serverUrl) =
      UpdateEngine.DownloadThread.dealAbnormal P f o fileName serverUrl percent p := by
  simp only [dealAbnormal, UpdateEngine.DownloadThread.dealAbnormal, isAbnormal, UpdateEngine.DownloadThread.isAbnormal,
    Prog.interp_bind, Prog.interp_op, Prog.interp_ret, onFlow, interp_ite, Prog.op_bind, Prog.ret_bind, Prog.pure_eq, Prog.perform]

/-- The mark of a complete download comes before the last call. -/
theorem downloadCallback_onFlow (percent : UInt32) (status : UpgradeStatus) (error : String) (p : Progress) :
    (downloadCallback percent status error p).interp (onFlow P f o fileName serverUrl) = (do
      if status = .downloadSuccess then UpdateEngine.call (.enter (.complete fileName))
      UpdateEngine.DownloadThread.downloadCallback P f o fileName serverUrl percent status error p) := by
  simp only [downloadCallback, UpdateEngine.DownloadThread.downloadCallback,
    Prog.interp_bind, Prog.interp_op, Prog.interp_ret, onFlow, interp_ite, Prog.op_bind, Prog.ret_bind, Prog.pure_eq, Prog.perform]
  rw [dealAbnormal_onFlow]
  split <;> simp only [Prog.op_bind, Prog.ret_bind, if_false, Bool.false_eq_true]

theorem transfer_onFlow (events : List TransferEvent) (p : Progress) :
    (transfer P.percent events p).interp (onFlow P f o fileName serverUrl) =
      UpdateEngine.DownloadThread.transfer P f o fileName serverUrl events p := by
  induction events generalizing p with
  | nil => rfl
  | cons event events ih =>
    cases event with
    | data bytes =>
      change (onFlow P f o fileName serverUrl (.fwrite bytes) >>= fun _ => (transfer P.percent events p).interp _) = _
      rw [ih]
      rfl
    | progress dlTotal dlNow =>
      have hprogress : (onDownloadProgress P.percent dlTotal dlNow p).interp (onFlow P f o fileName serverUrl) =
          UpdateEngine.DownloadThread.onDownloadProgress P f o fileName serverUrl dlTotal dlNow p := by
        rw [onDownloadProgress, UpdateEngine.DownloadThread.onDownloadProgress, interp_ite]
        split
        · rfl
        · simp only [Prog.interp_bind, downloadCallback_onFlow, reduceCtorEq, if_false]
          congr 1
          exact interp_perform ..
      rw [transfer, UpdateEngine.DownloadThread.transfer, Prog.interp_bind, hprogress]
      congr 1
      funext x
      rw [interp_ite, ih]
      rfl

end ReportsAux

/-- The executions of the flows are those of any owner, with the callback of the executor. -/
theorem processThreadExecute_onFlow (p : Progress) :
    (processThreadExecute P.percent fileName p).interp (onFlow P f o fileName serverUrl) =
      UpdateEngine.DownloadThread.processThreadExecute P f o fileName serverUrl p := by
  simp only [processThreadExecute, finish, UpdateEngine.DownloadThread.processThreadExecute, Prog.interp_bind, interp_ite,
    downloadCallback_onFlow, transfer_onFlow, reduceCtorEq, if_false, if_true]
  congr 1
  exact interp_perform ..

end Flows

end UpdateEngine.ProgressThread.DownloadThread
