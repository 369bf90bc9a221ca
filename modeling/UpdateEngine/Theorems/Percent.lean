import Mathlib
import UpdateEngine.Concurrent.Trace
import UpdateEngine.Firmware.Lives

/-!
# The percentage of a download

`DownloadProgress` adds what a transfer has received to the length of the file. It reads that length anew each time, and the file grows by
what is received: what has reached the file is counted twice.
-/

namespace UpdateEngine

open Concurrent DownloadThread

/-- The percentage as `DownloadProgress` computes it, where its divisions are exact. -/
def exactPercent (curr : UInt64) (dlTotal dlNow : Nat) : UInt32 :=
  UInt32.ofNat ⌊((dlNow : ℚ) + curr.toNat) / (curr.toNat + dlTotal) * 100⌋₊

/-- A platform with exact divisions. -/
def Platform.exact (P : Platform) : Platform := { P with percent := exactPercent }

/-- A call of `DownloadCallback` by `DownloadProgress`: the length that was read, the amounts of the transfer, and what is passed on. -/
structure ProgressCall where
  curr : UInt64
  dlTotal : Nat
  dlNow : Nat
  percent : UInt32
  deriving DecidableEq, Repr

/-- The amounts a transfer reports, in their order. -/
def TransferEvent.amounts (events : List TransferEvent) : List (Nat × Nat) :=
  events.filterMap fun
    | .data _ => none
    | .progress dlTotal dlNow => some (dlTotal, dlNow)

/-- A transfer with the calls of `DownloadCallback` it makes, as the trace of its text goes on. -/
inductive TransferRun (P : Platform) (f : Nat) (o : DownloadOptions) (fileName serverUrl : String) :
    List TransferEvent → Progress → List (Σ o : Op, o.Res) → List ProgressCall → Bool × Progress → Prop
  | done (p : Progress) : TransferRun P f o fileName serverUrl [] p [] [] (false, p)
  | data (bytes : Bytes) {events : List TransferEvent} {p : Progress} {l : List (Σ o : Op, o.Res)} {cs : List ProgressCall}
      {r : Bool × Progress} (h : TransferRun P f o fileName serverUrl events p l cs r) :
      TransferRun P f o fileName serverUrl (.data bytes :: events) p (⟨.appendFile fileName bytes, ()⟩ :: l) cs r
  -- a progress without a total is not passed on
  | skipped (dlNow : Nat) {events : List TransferEvent} {p : Progress} {l : List (Σ o : Op, o.Res)} {cs : List ProgressCall}
      {r : Bool × Progress} (h : TransferRun P f o fileName serverUrl events p l cs r) :
      TransferRun P f o fileName serverUrl (.progress 0 dlNow :: events) p l cs r
  | passed {dlTotal : Nat} (dlNow : Nat) {events : List TransferEvent} {p p' : Progress} {curr : UInt64}
      {l₁ l₂ l₃ : List (Σ o : Op, o.Res)} {cs : List ProgressCall} {r : Bool × Progress} (ht : dlTotal ≠ 0)
      (hl : (getLocalFileLength fileName).Trace l₁ curr)
      (hc : (downloadCallback P f o fileName serverUrl (P.percent curr dlTotal dlNow) .downloading "" p).Trace l₂ (false, p'))
      (h : TransferRun P f o fileName serverUrl events p' l₃ cs r) :
      TransferRun P f o fileName serverUrl (.progress dlTotal dlNow :: events) p (l₁ ++ l₂ ++ l₃)
        (⟨curr, dlTotal, dlNow, P.percent curr dlTotal dlNow⟩ :: cs) r
  -- the transfer is stopped by an error of the callback
  | stopped {dlTotal : Nat} (dlNow : Nat) {events : List TransferEvent} {p p' : Progress} {curr : UInt64}
      {l₁ l₂ : List (Σ o : Op, o.Res)} (ht : dlTotal ≠ 0)
      (hl : (getLocalFileLength fileName).Trace l₁ curr)
      (hc : (downloadCallback P f o fileName serverUrl (P.percent curr dlTotal dlNow) .downloading "" p).Trace l₂ (true, p')) :
      TransferRun P f o fileName serverUrl (.progress dlTotal dlNow :: events) p (l₁ ++ l₂)
        [⟨curr, dlTotal, dlNow, P.percent curr dlTotal dlNow⟩] (true, p')

/-- Every trace of a transfer is such a run. -/
theorem TransferRun.of_trace {P : Platform} {f : Nat} {o : DownloadOptions} {fileName serverUrl : String}
    {events : List TransferEvent} {p : Progress} {l : List (Σ o : Op, o.Res)} {r : Bool × Progress}
    (h : (transfer P f o fileName serverUrl events p).Trace l r) :
    ∃ cs, TransferRun P f o fileName serverUrl events p l cs r := by
  induction events generalizing p l with
  | nil =>
    obtain ⟨rfl, rfl⟩ := h
    exact ⟨[], .done p⟩
  | cons event events ih =>
    cases event with
    | data bytes =>
      obtain ⟨_, l, rfl, h⟩ := h
      obtain ⟨cs, h⟩ := ih h
      exact ⟨cs, .data bytes h⟩
    | progress dlTotal dlNow =>
      obtain ⟨⟨error, p'⟩, l₁, l₂, rfl, hprogress, h⟩ := Prog.trace_bind.mp h
      by_cases ht : dlTotal = 0
      · subst ht
        obtain ⟨rfl, heq⟩ := hprogress
        cases heq
        obtain ⟨cs, h⟩ := ih h
        exact ⟨cs, .skipped dlNow h⟩
      · unfold onDownloadProgress at hprogress
        rw [if_neg ht] at hprogress
        obtain ⟨curr, l₁, l₂', rfl, hl, hc⟩ := Prog.trace_bind.mp hprogress
        cases error with
        | true =>
          obtain ⟨rfl, rfl⟩ := h
          rw [List.append_nil]
          exact ⟨_, .stopped dlNow ht hl hc⟩
        | false =>
          obtain ⟨cs, h⟩ := ih h
          exact ⟨_, .passed dlNow ht hl hc h⟩

/-- The percentage of a whole package that a call stands for, when `start` bytes were there at the start. -/
def trueQuotient (start dlTotal dlNow : Nat) : ℚ := 100 * ((start : ℚ) + dlNow) / (start + dlTotal)

/-- The calls pass on the percentage of the package: with the length at the start, never less than before, and all of it only at the
end. -/
structure ExactPercents (start total : Nat) (cs : List ProgressCall) : Prop where
  exact : ∀ c ∈ cs, c.percent.toNat = ⌊trueQuotient start total c.dlNow⌋₊
  monotone : cs.Pairwise fun c c' => c.percent ≤ c'.percent
  complete : ∀ c ∈ cs, c.percent = 100 → c.dlNow = total

/-- The file has grown by less than what makes another percent: with `p` percent, the bytes it has grown by count `99 - p` times. -/
def GrownLittle (start total : Nat) (c : ProgressCall) : Prop :=
  ((c.curr.toNat : ℤ) - start) * (99 - ⌊trueQuotient start total c.dlNow⌋) <
    (⌊trueQuotient start total c.dlNow⌋ + 1) * (start + total) - 100 * (start + c.dlNow)

namespace PercentAux

variable {P : Platform} {f : Nat} {o : DownloadOptions} {fileName serverUrl : String} {events : List TransferEvent} {p : Progress}
  {l : List (Σ o : Op, o.Res)} {cs : List ProgressCall} {r : Bool × Progress}

/-- What is passed on is the percentage of the platform. -/
theorem percent_of_run (h : TransferRun P f o fileName serverUrl events p l cs r) :
    ∀ c ∈ cs, c.percent = P.percent c.curr c.dlTotal c.dlNow := by
  induction h with
  | done p =>
    intro c hc
    cases hc
  | data bytes h ih | skipped dlNow h ih => exact ih
  | passed dlNow ht hl hc h ih =>
    intro c hc
    rcases List.mem_cons.mp hc with rfl | hc
    · rfl
    · exact ih c hc
  | stopped dlNow ht hl hc =>
    intro c hc
    rw [List.mem_singleton.mp hc]

/-- The amounts are passed on in their order. -/
theorem amounts_of_run (h : TransferRun P f o fileName serverUrl events p l cs r) :
    (cs.map fun c => (c.dlTotal, c.dlNow)).Sublist (TransferEvent.amounts events) := by
  unfold TransferEvent.amounts
  induction h with
  | done p => exact List.Sublist.refl _
  | data bytes h ih => exact ih
  | skipped dlNow h ih => exact ih.cons _
  | passed dlNow ht hl hc h ih => exact ih.cons_cons _
  | stopped dlNow ht hl hc => exact (List.nil_sublist _).cons_cons _

/-! ## Floors -/

section Floors

variable {start total curr now n t : Nat}

theorem floor_trueQuotient (start total now : Nat) : ⌊trueQuotient start total now⌋₊ = 100 * (start + now) / (start + total) := by
  have h := Nat.floor_div_eq_div (K := ℚ) (100 * (start + now)) (start + total)
  unfold trueQuotient
  rw [← h]
  push_cast
  rfl

theorem intFloor_trueQuotient (start total now : Nat) :
    ⌊trueQuotient start total now⌋ = ((100 * (start + now) / (start + total) : Nat) : ℤ) := by
  have hpos : 0 ≤ trueQuotient start total now := by
    unfold trueQuotient
    positivity
  rw [← floor_trueQuotient, Int.natCast_floor_eq_floor hpos]

/-- A part is at most all of it. -/
theorem percent_le (hn : n ≤ t) : 100 * (curr + n) / (curr + t) ≤ 100 :=
  Nat.div_le_of_le_mul (by nlinarith)

theorem toNat_exactPercent {c : UInt64} (hn : n ≤ t) :
    (exactPercent c t n).toNat = 100 * (c.toNat + n) / (c.toNat + t) := by
  have hfloor : ⌊((n : ℚ) + c.toNat) / (c.toNat + t) * 100⌋₊ = 100 * (c.toNat + n) / (c.toNat + t) := by
    rw [← floor_trueQuotient, trueQuotient]
    congr 1
    ring
  have hle := @percent_le c.toNat n t hn
  unfold exactPercent
  rw [hfloor]
  exact UInt32.toNat_ofNat_of_lt' (Nat.lt_of_le_of_lt hle (by decide))

/-- A longer file makes the same percentage as long as it is longer by little. -/
theorem percent_eq_iff (ht : 0 < total) (hn : now ≤ total) (hs : start ≤ curr) :
    100 * (curr + now) / (curr + total) = 100 * (start + now) / (start + total) ↔
      ((curr : ℤ) - start) * (99 - (100 * (start + now) / (start + total) : Nat)) <
        ((100 * (start + now) / (start + total) : Nat) + 1) * (start + total) - 100 * (start + now) := by
  obtain ⟨grown, rfl⟩ := Nat.exists_eq_add_of_le hs
  have hle := @percent_le start now total hn
  have hbelow := Nat.div_mul_le_self (100 * (start + now)) (start + total)
  generalize 100 * (start + now) / (start + total) = p at hle hbelow
  have hgrown : grown * p ≤ grown * 100 := Nat.mul_le_mul_left grown hle
  have hlower : p * (start + grown + total) ≤ 100 * (start + grown + now) := by nlinarith
  have hupper : 100 * (start + grown + now) / (start + grown + total) = p ↔
      100 * (start + grown + now) < (p + 1) * (start + grown + total) := by
    constructor
    · intro heq
      exact (Nat.div_lt_iff_lt_mul (by omega)).mp (by omega)
    · intro hlt
      exact Nat.div_eq_of_lt_le hlower hlt
  rw [hupper]
  zify
  constructor
  · intro h
    linarith
  · intro h
    linarith

end Floors

/-- Every operation can be answered. -/
theorem nonempty_res (o : Op) : Nonempty o.Res := by
  cases o with
  | getFlow => exact ⟨({} : Flow)⟩
  | getNextStep => exact ⟨FirmwareStep.init⟩
  | getNetType => exact ⟨NetType.noNet⟩
  | ask q => cases q with
    | curlPerform url resumeFrom => exact ⟨({} : Transfer)⟩
    | getUpdateStatus => exact ⟨SysUpdateStatus.stateInit⟩
    | _ => exact ⟨default⟩
  | _ => exact ⟨default⟩

/-- A transfer that passes on one percentage, whatever comes of it. -/
theorem exists_run {fileName : String} {curr : UInt64} {dlTotal : Nat} (dlNow : Nat) (ht : dlTotal ≠ 0)
    {l₁ : List (Σ o : Op, o.Res)} (hl : (getLocalFileLength fileName).Trace l₁ curr) (p : Progress) :
    ∃ l r, TransferRun P f o fileName serverUrl [.progress dlTotal dlNow] p l [⟨curr, dlTotal, dlNow, P.percent curr dlTotal dlNow⟩] r := by
  obtain ⟨l₂, ⟨error, p'⟩, hc⟩ := Prog.exists_trace nonempty_res
    (downloadCallback P f o fileName serverUrl (P.percent curr dlTotal dlNow) .downloading "" p)
  cases error with
  | true => exact ⟨_, _, .stopped dlNow ht hl hc⟩
  | false => exact ⟨_, _, .passed dlNow ht hl hc (.done p')⟩

end PercentAux

open PercentAux in
/-- The percentage is that of the package where the file has grown by little at each call. -/
theorem percents_exact_iff {P : Platform} {f : Nat} {o : DownloadOptions} {fileName serverUrl : String} {events : List TransferEvent}
    {p : Progress} {l : List (Σ o : Op, o.Res)} {cs : List ProgressCall} {r : Bool × Progress}
    (h : TransferRun P.exact f o fileName serverUrl events p l cs r) {start total : Nat} (ht : 0 < total)
    (hfixed : ∀ a ∈ TransferEvent.amounts events, a.1 = total ∧ a.2 ≤ total)
    (hnow : (TransferEvent.amounts events).Pairwise fun a a' => a.2 ≤ a'.2) (hgrows : ∀ c ∈ cs, start ≤ c.curr.toNat) :
    ExactPercents start total cs ↔ ∀ c ∈ cs, GrownLittle start total c := by
  have hamounts := amounts_of_run h
  have hall (c : ProgressCall) (hc : c ∈ cs) : c.dlTotal = total ∧ c.dlNow ≤ total :=
    hfixed (c.dlTotal, c.dlNow) (hamounts.subset (List.mem_map_of_mem hc))
  have hpercent (c : ProgressCall) (hc : c ∈ cs) :
      c.percent.toNat = 100 * (c.curr.toNat + c.dlNow) / (c.curr.toNat + total) := by
    obtain ⟨htotal, hle⟩ := hall c hc
    rw [percent_of_run h c hc, ← htotal]
    exact toNat_exactPercent (htotal ▸ hle)
  have hiff (c : ProgressCall) (hc : c ∈ cs) :
      c.percent.toNat = ⌊trueQuotient start total c.dlNow⌋₊ ↔ GrownLittle start total c := by
    rw [hpercent c hc, floor_trueQuotient, GrownLittle, intFloor_trueQuotient]
    exact percent_eq_iff ht (hall c hc).2 (hgrows c hc)
  constructor
  · intro hexact c hc
    exact (hiff c hc).mp (hexact.exact c hc)
  · intro hlittle
    have hexact (c : ProgressCall) (hc : c ∈ cs) : c.percent.toNat = 100 * (start + c.dlNow) / (start + total) := by
      rw [(hiff c hc).mpr (hlittle c hc), floor_trueQuotient]
    refine ⟨fun c hc => (hiff c hc).mpr (hlittle c hc), ?_, ?_⟩
    · have hordered := hnow.sublist hamounts
      rw [List.pairwise_map] at hordered
      refine hordered.imp_of_mem fun {c c'} hc hc' hle => ?_
      rw [UInt32.le_iff_toNat_le, hexact c hc, hexact c' hc']
      exact Nat.div_le_div_right (by omega)
    · intro c hc hfull
      have hle := (hall c hc).2
      have hquotient := hexact c hc
      rw [hfull] at hquotient
      have hwhole : (100 : UInt32).toNat * (start + total) ≤ 100 * (start + c.dlNow) := by
        rw [hquotient]
        exact Nat.div_mul_le_self _ _
      have hhundred : (100 : UInt32).toNat = 100 := rfl
      rw [hhundred] at hwhole
      omega

namespace PercentAux

/-- The length of a file with one byte in it. -/
theorem oneByte_trace : (getLocalFileLength "package").Trace [⟨.readFile "package", some [0]⟩] 1 :=
  ⟨some [0], [], rfl, rfl, rfl⟩

theorem exactPercent_oneByte : exactPercent 1 2 1 = 66 := by
  rw [← UInt32.toNat_inj, toNat_exactPercent (by decide)]
  rfl

end PercentAux

open PercentAux in
/-- A phone that had one of three bytes is told of the second before it is written. -/
theorem percents_exact_iff_phone : ∃ l r,
    TransferRun Platform.phone.exact 2 {} "package" "server/package" [.progress 2 1] {} l [⟨1, 2, 1, 66⟩] r ∧
      (ExactPercents 1 2 [⟨1, 2, 1, 66⟩] ↔ ∀ c ∈ [(⟨1, 2, 1, 66⟩ : ProgressCall)], GrownLittle 1 2 c) := by
  obtain ⟨l, r, h⟩ := @exists_run Platform.phone.exact 2 {} "server/package" "package" 1 2 1 (by decide) _ oneByte_trace {}
  have hpercent : Platform.phone.exact.percent 1 2 1 = 66 := exactPercent_oneByte
  rw [hpercent] at h
  exact ⟨l, r, h, percents_exact_iff h (by decide) (by decide) (by decide) (by decide)⟩

open PercentAux in
/-- A phone that has received one of two bytes, and written it, reports two thirds. -/
theorem growth_counted_twice : ∃ l r,
    TransferRun Platform.phone.exact 2 {} "package" "server/package" [.data [0], .progress 2 1] {} l [⟨1, 2, 1, 66⟩] r ∧
      ¬ ExactPercents 0 2 [⟨1, 2, 1, 66⟩] := by
  obtain ⟨l, r, h⟩ := @exists_run Platform.phone.exact 2 {} "server/package" "package" 1 2 1 (by decide) _ oneByte_trace {}
  have hpercent : Platform.phone.exact.percent 1 2 1 = 66 := exactPercent_oneByte
  rw [hpercent] at h
  refine ⟨_, r, .data [0] h, fun hexact => ?_⟩
  have hhalf := hexact.exact _ List.mem_cons_self
  rw [floor_trueQuotient] at hhalf
  exact absurd hhalf (by decide)

end UpdateEngine
