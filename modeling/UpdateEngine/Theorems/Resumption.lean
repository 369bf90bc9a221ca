import UpdateEngine.Concurrent.Along
import UpdateEngine.Engine.DownloadThread

/-!
# Downloads that are broken off and resumed

A download appends to the file it finds, and asks the server for what comes after it. However often it is broken off (by a failure, a
cancel, a lost network or the end of the process) and taken up again, the file is a beginning of the package, and it is the package when
an execution reports success.
-/

namespace UpdateEngine.ProgressThread.DownloadThread

open Concurrent Concurrent.Prog
open UpdateEngine.DownloadThread (DOWNLOAD_FINISH_PERCENT DOWNLOAD_PERIOD_PERCENT CURLE_OK CURLE_ABORTED_BY_CALLBACK)

/-- The file of a download: its bytes, those in the buffer of the stream included, if there is an entry in the directory; whether the
stream is open; and whether a report of the execution has had the file removed. -/
structure Disk where
  file : Option Bytes := none
  isOpen : Bool := false
  removed : Bool := false
  deriving DecidableEq, Repr

/-- The bytes, none without a file. -/
def Disk.content (d : Disk) : Bytes := d.file.getD []

/-- What a transfer receives. -/
def received : List TransferEvent → Bytes
  | [] => []
  | .data bytes :: events => bytes ++ received events
  | .progress _ _ :: events => received events

/-- The library has a server that offers the package: with an offset it receives what comes from there on, and all of it when it
succeeds. -/
structure Serves (package : Bytes) (packageSize : UInt64) (t : Transfer) : Prop where
  part : received t.events <+: package.drop packageSize.toNat
  whole : t.res = CURLE_OK → received t.events = package.drop packageSize.toNat

/-- How an operation is answered, and what becomes of the file. The length of the file is exact unless the stream holds a part of it; what
is written after the file was removed is lost; a report may have the file removed; the other operations are answered in any way. -/
def Disk.Answers (package : Bytes) (fileName : String) (d : Disk) : (o : Op) → o.Res → Disk → Prop
  | .getLocalFileLength, length, d' =>
    d' = d ∧ (d.isOpen = false → UInt64.toNat length = if hasDot fileName then 0 else d.content.length)
  | .fopen, opened, d' => d' = if opened then { d with file := some d.content, isOpen := true } else d
  | .fwrite bytes, _, d' => d' = { d with file := d.file.map fun content => content ++ bytes }
  | .access, found, d' => d' = d ∧ found = d.file.isSome
  | .unlink, _, d' => d' = d ∨ d' = { d with file := none }
  | .curlEasyPerform packageSize, t, d' => d' = d ∧ Serves package packageSize t
  | .callback _, _, d' => d' = d ∨ d' = { d with file := none, removed := true }
  | .processThreadExit, _, d' => d' = { d with isOpen := false }
  | _, _, d' => d' = d

/-- What the file can be after executions for one package that were broken off anywhere, or came to their end: none (also because
somebody removed it), or what has been written to it; a part of what an open stream was given may be lost with the process. -/
inductive Stored (percentOf : UInt64 → Nat → Nat → UInt32) (package : Bytes) (fileName : String) : Option Bytes → Prop
  | absent : Stored percentOf package fileName none
  | leaves {file : Option Bytes} {p : Progress} {l l' : Log} {r : Bool × Progress} {d : Disk} {content written : Bytes}
      (h : Stored percentOf package fileName file) (ht : (processThreadExecute percentOf fileName p).Trace (l ++ l') r)
      (hl : Along (Disk.Answers package fileName) { file } l d) (hfile : d.file = some content) (hwritten : written <+: content)
      (hclosed : d.isOpen = false → written = content) : Stored percentOf package fileName (some written)

namespace ResumptionAux

variable {percentOf : UInt64 → Nat → Nat → UInt32} {package content before : Bytes} {fileName : String} {d : Disk} {p : Progress}
  {percent : UInt32} {status : UpgradeStatus} {error : String}

/-- The file holds what it held before and goes on with a beginning of the package. -/
def Within (package before : Bytes) (d : Disk) : Prop := ∀ content ∈ d.file, before <+: content ∧ content <+: package

/-- The file holds these bytes, unless it was removed by a report. -/
def Holds (content : Bytes) (d : Disk) : Prop := d.file = some content ∨ d.file = none ∧ d.removed = true

/-- What is claimed of each operation: success is reported with the package in the file. -/
def Claim (package before : Bytes) (d : Disk) (o : Op) : Prop :=
  Within package before d ∧
    ∀ r, o = .callback r → r.status = .downloadSuccess → d.file = some package ∨ d.removed = true

theorem within_of_holds (h : Holds content d) (hbefore : before <+: content) (hpackage : content <+: package) :
    Within package before d := by
  intro c hc
  rcases h with hfile | ⟨hfile, -⟩ <;> rw [hfile] at hc
  · cases hc
    exact ⟨hbefore, hpackage⟩
  · cases hc

theorem within_none (h : d.file = none) : Within package before d := by
  intro c hc
  rw [h] at hc
  cases hc

/-- An operation that is no report claims nothing besides. -/
theorem claim_of_within {o : Op} (h : Within package before d) (ho : ∀ r, o ≠ .callback r) : Claim package before d o :=
  ⟨h, fun r hr => absurd hr (ho r)⟩

/-- What a call of `DownloadCallback` keeps: it allows for a removal by a report, and a removal by the call itself when it reports a
failure; success is reported of the package only. -/
structure Kept (package before : Bytes) (status : UpgradeStatus) (J : Disk → Prop) : Prop where
  within : ∀ d, J d → Within package before d
  removed : ∀ d, J d → J { d with file := none, removed := true }
  unlinked : status = .downloadFail → ∀ d, J d → J { d with file := none }
  full : status = .downloadSuccess → ∀ d, J d → d.file = some package ∨ d.removed = true

variable {J : Disk → Prop}

theorem Kept.claim (hJ : Kept package before status J) (hd : J d) {o : Op}
    (ho : ∀ r, o = .callback r → r.status = .downloadSuccess → status = .downloadSuccess) : Claim package before d o :=
  ⟨hJ.within d hd, fun r hr hsuccess => hJ.full (ho r hr hsuccess) d hd⟩

theorem isAbnormal_sound (hJ : Kept package before status J) (hd : J d) :
    isAbnormal.Sound (Disk.Answers package fileName) (Claim package before) d fun _ => J := by
  refine ⟨hJ.claim hd (by simp), ?_⟩
  rintro noNet d' rfl
  cases noNet with
  | true => exact hd
  | false =>
    refine ⟨hJ.claim hd (by simp), ?_⟩
    rintro cancel d' rfl
    exact hd

/-- A report, and what follows it. -/
theorem callback_sound (hJ : Kept package before status J) (hd : J d) {r : Progress}
    (hr : r.status = .downloadSuccess → status = .downloadSuccess) {x : Bool × Progress} :
    Sound (Disk.Answers package fileName) (Claim package before) (call (.callback r) >>= fun _ => (pure x : Prog (Bool × Progress))) d
      fun _ => J := by
  refine ⟨hJ.claim hd fun r' hr' => ?_, ?_⟩
  · cases hr'
    exact hr
  · rintro _ d' (rfl | rfl)
    · exact hd
    · exact hJ.removed d hd

theorem dealAbnormal_sound (hJ : Kept package before status J) (hd : J d) :
    (dealAbnormal percent p).Sound (Disk.Answers package fileName) (Claim package before) d fun _ => J := by
  refine (isAbnormal_sound hJ hd).seq ?_
  intro abnormal d hd
  cases abnormal with
  | false => exact hd
  | true =>
    refine ⟨hJ.claim hd (by simp), ?_⟩
    rintro noNet d' rfl
    refine ⟨hJ.claim hd (by simp), ?_⟩
    rintro noNet' d' rfl
    refine ⟨hJ.claim hd (by simp), ?_⟩
    -- neither of the two ends is a success
    have hend : (if noNet' then UpgradeStatus.downloadFail else .downloadCancel) ≠ .downloadSuccess := by cases noNet' <;> simp
    rintro cancel d' rfl
    cases cancel with
    | false => exact callback_sound hJ hd fun h => absurd h hend
    | true =>
      refine ⟨hJ.claim hd (by simp), ?_⟩
      rintro _ d' rfl
      exact callback_sound hJ hd fun h => absurd h hend

/-- A call of `DownloadCallback`. -/
theorem downloadCallback_sound (hJ : Kept package before status J) (hd : J d) :
    (downloadCallback percent status error p).Sound (Disk.Answers package fileName) (Claim package before) d fun _ => J := by
  refine ⟨hJ.claim hd (by simp), ?_⟩
  rintro stopped d' rfl
  cases stopped with
  | true => exact hd
  | false =>
    refine (dealAbnormal_sound hJ hd).seq ?_
    rintro ⟨abnormal, p⟩ d hd
    dsimp only
    -- the end of the call, once the tests have let the report through
    have hlast {d : Disk} (hd : J d) : Sound (Disk.Answers package fileName) (Claim package before)
        (if percent = DOWNLOAD_FINISH_PERCENT && status = .downloading then pure (false, p) else do
          call (.callback { percent := percent, status := status, endReason := error })
          pure (false, { percent := percent, status := status, endReason := error }) : Prog (Bool × Progress)) d fun _ => J := by
      split
      · exact hd
      · exact callback_sound hJ hd fun h => h
    split
    · exact hd
    split
    · exact hd
    split
    · rename_i hfail
      refine ⟨hJ.claim hd (by simp), ?_⟩
      rintro found d' ⟨rfl, -⟩
      cases found with
      | false => exact hlast hd
      | true =>
        refine ⟨hJ.claim hd (by simp), ?_⟩
        rintro _ d' (rfl | rfl)
        · exact hlast hd
        · exact hlast (hJ.unlinked hfail _ hd)
    split
    · exact hd
    · exact hlast hd

/-! ## The transfer -/

theorem kept_holds (hbefore : before <+: content) (hpackage : content <+: package) (hfail : status ≠ .downloadFail)
    (hfull : status = .downloadSuccess → content = package) : Kept package before status (Holds content) where
  within _ hd := within_of_holds hd hbefore hpackage
  removed _ _ := .inr ⟨rfl, rfl⟩
  unlinked h := absurd h hfail
  full h d hd := by
    rw [← hfull h]
    exact hd.imp_right And.right

theorem kept_within (h : status ≠ .downloadSuccess) : Kept package before status (Within package before) where
  within _ hd := hd
  removed _ _ := within_none rfl
  unlinked _ _ _ := within_none rfl
  full hsuccess := absurd hsuccess h

/-- What is written comes after what is there. -/
theorem Holds.append (h : Holds content d) (bytes : Bytes) :
    Holds (content ++ bytes) { d with file := d.file.map fun content => content ++ bytes } := by
  rcases h with hfile | ⟨hfile, hremoved⟩
  · exact .inl (by simp [hfile])
  · exact .inr ⟨by simp [hfile], hremoved⟩

/-- A transfer, by induction on what the library does: it leaves all that was received, unless it is aborted. -/
theorem transfer_sound {events : List TransferEvent} (hd : Holds content d) (hbefore : before <+: content)
    (hpackage : content ++ received events <+: package) :
    (transfer percentOf events p).Sound (Disk.Answers package fileName) (Claim package before) d fun x d' =>
      Within package before d' ∧ (x.1 = false → Holds (content ++ received events) d') := by
  have hcontent : content <+: package := (List.prefix_append _ _).trans hpackage
  have hwithin : Within package before d := within_of_holds hd hbefore hcontent
  induction events generalizing content d p with
  | nil =>
    refine ⟨hwithin, fun _ => ?_⟩
    rwa [received, List.append_nil]
  | cons event events ih =>
    cases event with
    | data bytes =>
      refine ⟨claim_of_within hwithin (by simp), ?_⟩
      rintro _ d' rfl
      rw [received, ← List.append_assoc] at hpackage ⊢
      have hbytes : content ++ bytes <+: package := (List.prefix_append _ _).trans hpackage
      have hd' := hd.append bytes
      have hbefore' : before <+: content ++ bytes := hbefore.trans (List.prefix_append _ _)
      exact ih hd' hbefore' hpackage hbytes (within_of_holds hd' hbefore' hbytes)
    | progress dlTotal dlNow =>
      rw [received] at hpackage ⊢
      have hkept : Kept package before .downloading (Holds content) := kept_holds hbefore hcontent (by simp) (by simp)
      have hprogress : (onDownloadProgress percentOf dlTotal dlNow p).Sound (Disk.Answers package fileName) (Claim package before) d
          fun _ => Holds content := by
        unfold onDownloadProgress
        split
        · exact hd
        · refine ⟨claim_of_within hwithin (by simp), ?_⟩
          rintro length d' ⟨rfl, -⟩
          exact downloadCallback_sound hkept hd
      refine hprogress.seq ?_
      rintro ⟨aborted, p⟩ d hd
      cases aborted with
      | true => exact ⟨within_of_holds hd hbefore hcontent, by simp⟩
      | false => exact ih hd hbefore hpackage hcontent (within_of_holds hd hbefore hcontent)

/-! ## An execution -/

/-- A call of `DownloadCallback` that reports a failure, before the execution returns. -/
theorem fail_sound (hd : Within package before d) (keep : Bool) :
    Sound (Disk.Answers package fileName) (Claim package before)
      (downloadCallback percent .downloadFail error p >>= fun x => (pure (keep, x.2) : Prog (Bool × Progress))) d
      fun _ => Within package before :=
  (downloadCallback_sound (kept_within (by simp)) hd).seq fun _ _ hd => hd

theorem finish_sound {res : Nat} (hd : Within package before d) (hbefore : before <+: package)
    (hfull : res = CURLE_OK → Holds package d) :
    (finish res p).Sound (Disk.Answers package fileName) (Claim package before) d fun _ => Within package before := by
  refine ⟨claim_of_within hd (by simp), ?_⟩
  rintro _ d' rfl
  dsimp only
  split
  · split
    · have hclosed : Within package before { d with isOpen := false } := hd
      exact fail_sound hclosed false
    · exact hd
  · rename_i hok
    have hfull' : Holds package { d with isOpen := false } := hfull (not_not.mp hok)
    refine (downloadCallback_sound (kept_holds hbefore List.prefix_rfl (by simp) fun _ => rfl) hfull').seq ?_
    intro _ d' hd'
    exact within_of_holds hd' hbefore List.prefix_rfl

/-- An execution, on a file that is a beginning of the package. -/
theorem processThreadExecute_sound {file : Option Bytes} (hfile : ∀ content ∈ file, content <+: package) :
    (processThreadExecute percentOf fileName p).Sound (Disk.Answers package fileName) (Claim package (file.getD [])) { file }
      fun _ => Within package (file.getD []) := by
  have hwithin : Within package (file.getD []) { file } := by
    intro content (hcontent : file = some content)
    subst hcontent
    exact ⟨List.prefix_rfl, hfile content rfl⟩
  have hbefore : file.getD [] <+: package := by
    cases file with
    | none => exact List.nil_prefix
    | some content => exact hfile content rfl
  refine ⟨claim_of_within hwithin (by simp), ?_⟩
  rintro packageSize d' ⟨rfl, hsize⟩
  replace hsize := hsize rfl
  dsimp only
  split
  · exact fail_sound hwithin true
  rename_i hdot
  rw [if_neg hdot] at hsize
  refine ⟨claim_of_within hwithin (by simp), ?_⟩
  rintro opened d' rfl
  cases opened with
  | false => exact fail_sound hwithin true
  | true =>
    have hopened : Holds (file.getD []) { file := some (file.getD []), isOpen := true } := .inl rfl
    have hwithin : Within package (file.getD []) { file := some (file.getD []), isOpen := true } :=
      within_of_holds hopened List.prefix_rfl hbefore
    refine ⟨claim_of_within hwithin (by simp), ?_⟩
    rintro inited d' rfl
    cases inited with
    | false =>
      refine ⟨claim_of_within hwithin (by simp), ?_⟩
      rintro _ d' rfl
      exact fail_sound (d := { file := some (file.getD []), isOpen := false }) hwithin true
    | true =>
      refine ⟨claim_of_within hwithin (by simp), ?_⟩
      rintro t d' ⟨rfl, hserves⟩
      -- the server goes on where the file ends
      have hsplit : file.getD [] ++ package.drop packageSize.toNat = package := by
        rw [show packageSize.toNat = (file.getD []).length from hsize]
        obtain ⟨rest, hrest⟩ := hbefore
        rw [← hrest, List.drop_left]
      have hreceived : file.getD [] ++ received t.events <+: package := by
        rw [← hsplit]
        exact (List.prefix_append_right_inj _).mpr (by simpa using hserves.part)
      refine (transfer_sound hopened List.prefix_rfl hreceived).seq ?_
      rintro ⟨aborted, p⟩ d ⟨hd, hreached⟩
      refine finish_sound hd hbefore ?_
      intro hok
      cases aborted with
      | true => cases hok
      | false =>
        have hall := hreached rfl
        rwa [hserves.whole hok, hsplit] at hall

/-- What is stored is a beginning of the package. -/
theorem prefix_of_stored {file : Option Bytes} (h : Stored percentOf package fileName file) : ∀ content ∈ file, content <+: package := by
  induction h with
  | absent => simp
  | @leaves file p l l' r d content written _ ht hl hfile hwritten _ ih =>
    rintro _ ⟨⟩
    have hwithin : Within package (file.getD []) d := by
      rcases (processThreadExecute_sound ih).along ht hl with ⟨-, hd⟩ | ⟨o, x, l'', -, hclaim⟩
      · exact hd
      · exact hclaim.1
    exact hwritten.trans (hwithin _ hfile).2

end ResumptionAux

open ResumptionAux

/-- However often a download was broken off and taken up again, its file is a beginning of the package; at every moment of the next
execution it still holds what it held before, unless it is gone; and success is reported only with the whole package in the file, or after
a report had it removed. -/
theorem download_resumes {percentOf : UInt64 → Nat → Nat → UInt32} {package : Bytes} {fileName : String} {file : Option Bytes}
    (h : Stored percentOf package fileName file) :
    (∀ content ∈ file, content <+: package) ∧
      ∀ (p : Progress) (l l' : Log) (r : Bool × Progress) (d : Disk), (processThreadExecute percentOf fileName p).Trace (l ++ l') r →
        Along (Disk.Answers package fileName) { file } l d →
        (∀ content ∈ d.file, file.getD [] <+: content ∧ content <+: package) ∧
          ∀ report, l'.head? = some ⟨.callback report, ()⟩ → report.status = .downloadSuccess →
            d.file = some package ∨ d.removed = true := by
  refine ⟨prefix_of_stored h, ?_⟩
  intro p l l' r d ht hl
  rcases (processThreadExecute_sound (prefix_of_stored h)).along ht hl with ⟨rfl, hd⟩ | ⟨o, x, l'', rfl, hwithin, hreport⟩
  · exact ⟨hd, by simp⟩
  · refine ⟨hwithin, ?_⟩
    intro report hhead hsuccess
    cases hhead
    exact hreport report rfl hsuccess

/-- A download that ends with the process after its first byte. -/
def brokenOff : Log :=
  [⟨.getLocalFileLength, (0 : UInt64)⟩, ⟨.fopen, true⟩, ⟨.curlEasyInit, true⟩,
    ⟨.curlEasyPerform 0, ({ events := [.data [1], .data [2, 3]] } : Transfer)⟩, ⟨.fwrite [1], ()⟩]

/-- The next one, up to its report. -/
def resumed : Log :=
  [⟨.getLocalFileLength, (1 : UInt64)⟩, ⟨.fopen, true⟩, ⟨.curlEasyInit, true⟩,
    ⟨.curlEasyPerform 1, ({ events := [.data [2, 3]] } : Transfer)⟩, ⟨.fwrite [2, 3], ()⟩, ⟨.processThreadExit, ()⟩,
    ⟨.enters 100 .downloadSuccess, false⟩, ⟨.getIsNoNet, false⟩, ⟨.getIsCancel, false⟩]

theorem download_resumes_three :
    Stored (fun _ _ _ => 50) [1, 2, 3] "a" (some [1]) ∧
      ∃ d, Along (Disk.Answers [1, 2, 3] "a") { file := some [1] } resumed d ∧ (d.file = some [1, 2, 3] ∨ d.removed = true) := by
  have hserves : Serves [1, 2, 3] 0 { events := [.data [1], .data [2, 3]] } := ⟨by decide, fun _ => rfl⟩
  have hserves' : Serves [1, 2, 3] 1 { events := [.data [2, 3]] } := ⟨by decide, fun _ => rfl⟩
  have htrace : (processThreadExecute (fun _ _ _ => 50) "a" {}).Trace
      (brokenOff ++ [⟨.fwrite [2, 3], ()⟩, ⟨.processThreadExit, ()⟩, ⟨.enters 100 .downloadSuccess, true⟩]) (false, {}) :=
    Prog.trace_of_follows (by decide)
  have htrace' : (processThreadExecute (fun _ _ _ => 50) "a" {}).Trace
      (resumed ++ [⟨.callback { percent := 100, status := .downloadSuccess }, ()⟩])
      (false, { percent := 100, status := .downloadSuccess }) := Prog.trace_of_follows (by decide)
  have hstored : Stored (fun _ _ _ => 50) [1, 2, 3] "a" (some [1]) := by
    refine .leaves (d := { file := some [1], isOpen := true }) .absent htrace ?_ rfl List.prefix_rfl fun _ => rfl
    exact .cons ⟨rfl, fun _ => rfl⟩ (.cons rfl (.cons rfl (.cons ⟨rfl, hserves⟩ (.cons rfl (.nil _)))))
  have halong : Along (Disk.Answers [1, 2, 3] "a") { file := some [1] } resumed { file := some [1, 2, 3] } :=
    .cons ⟨rfl, fun _ => rfl⟩ (.cons rfl (.cons rfl (.cons ⟨rfl, hserves'⟩ (.cons rfl (.cons rfl (.cons rfl (.cons rfl
      (.cons rfl (.nil _)))))))))
  exact ⟨hstored, _, halong, ((download_resumes hstored).2 _ _ _ _ _ htrace' halong).2 _ rfl rfl⟩

end UpdateEngine.ProgressThread.DownloadThread
