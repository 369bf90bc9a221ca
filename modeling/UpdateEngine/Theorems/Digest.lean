import Mathlib.Data.Nat.Find
import Mathlib.Data.List.TakeWhile
import UpdateEngine.Utils.Sha256
import UpdateEngine.Lemmas.AloneAux

/-!
# The digest of a file

How far the read loop of `GetDigestFromFile` gets, and what the result of `CheckFileSha256String` is worth. The loop asks for as
many bytes as the lower 32 bits of what is left allow, so a file of 2^32 bytes or more brings it to a multiple of 2^32 that is not
zero, where it asks for nothing for ever. A file that cannot be opened and a read that fails are not reported: the digest is then
the zeros the array was filled with, or that of the part read so far.
-/

namespace UpdateEngine.Buffered

open Buffered.Sha256Utils

/-! ## The rounds of the loop -/

/-- What is left before the `i`-th read, as long as every read delivers what it is asked for. -/
def remaining (length : Nat) : Nat → Nat
  | 0 => length
  | i + 1 => remaining length i - readCount (remaining length i)

namespace File

/-- How many bytes the `i`-th read is asked for, as long as the reads before it delivered what they were asked for. -/
def asks (f : File) (i : Nat) : Nat := readCount (remaining f.content.length i)

/-- Every read of the loop delivers what it is asked for. -/
def Served (f : File) : Prop := ∀ i, f.asks i ≤ f.fread i

/-- The file can be opened, its length is told (or it is empty), and every read delivers what it is asked for. -/
def Complete (f : File) : Prop :=
  f.realpath = true ∧ f.fopen = true ∧ (f.ftell = true ∨ f.content = []) ∧ f.Served

end File

namespace DigestAux

/-- The loop after `i` rounds. -/
def at' (f : File) (i : Nat) : Reading where
  fLen := remaining f.content.length i
  position := f.content.length - remaining f.content.length i
  reads := i
  context := f.content.take (f.content.length - remaining f.content.length i)

theorem readCount_le (n : Nat) : readCount n ≤ n := by
  unfold readCount MAX_BUFFER_LENGTH
  split <;> omega

theorem readCount_pos {n : Nat} (h : 0 < n) (hn : n < 2 ^ 32) : 0 < readCount n := by
  unfold readCount MAX_BUFFER_LENGTH
  split <;> omega

/-- Above 2^32, the loop never asks for the last 2^32 bytes. -/
theorem le_sub_readCount {n : Nat} (h : 2 ^ 32 ≤ n) : 2 ^ 32 ≤ n - readCount n := by
  unfold readCount MAX_BUFFER_LENGTH
  split <;> omega

theorem remaining_le (length i : Nat) : remaining length i ≤ length := by
  induction i with
  | zero => exact Nat.le_refl length
  | succ i ih =>
    simp only [remaining]
    omega

/-- Below 2^32, every round leaves less, so there are no more rounds than bytes. -/
theorem remaining_le_sub {length : Nat} (h : length < 2 ^ 32) (i : Nat) : remaining length i ≤ length - i := by
  induction i with
  | zero => exact Nat.le_refl length
  | succ i ih =>
    simp only [remaining]
    by_cases hz : remaining length i = 0
    · omega
    · have hpos := readCount_pos (Nat.pos_of_ne_zero hz) (by omega)
      omega

theorem le_remaining {length : Nat} (h : 2 ^ 32 ≤ length) (i : Nat) : 2 ^ 32 ≤ remaining length i := by
  induction i with
  | zero => exact h
  | succ i ih =>
    simp only [remaining]
    exact le_sub_readCount ih

/-- A round that is entered. -/
theorem round_of_pos {f : File} {s : Reading} (heof : s.eof = false) (hpos : 0 < s.fLen) :
    Sha256Utils.round f s = if (fread f s (readCount s.fLen)).length ≠ readCount s.fLen then none
      else some (s.feed f (fread f s (readCount s.fLen))) := by
  simp [Sha256Utils.round, heof, hpos]

/-- What the `i`-th read delivers. -/
theorem fread_at (f : File) (i : Nat) : fread f (at' f i) (readCount (at' f i).fLen) =
    (f.content.drop (f.content.length - remaining f.content.length i)).take (min (f.fread i) (f.asks i)) := by
  simp only [fread, at', File.asks, List.take_take]

theorem length_fread_at (f : File) (i : Nat) :
    (fread f (at' f i) (readCount (at' f i).fLen)).length = min (f.fread i) (f.asks i) := by
  have hle := readCount_le (remaining f.content.length i)
  have hlt := remaining_le f.content.length i
  rw [fread_at, List.length_take, List.length_drop]
  simp only [File.asks]
  omega

/-- A round whose read delivers what it is asked for. -/
theorem round_at {f : File} {i : Nat} (hpos : 0 < remaining f.content.length i) (hserved : f.asks i ≤ f.fread i) :
    Sha256Utils.round f (at' f i) = some (at' f (i + 1)) := by
  have hle := readCount_le (remaining f.content.length i)
  have hlt := remaining_le f.content.length i
  have hasks : readCount (at' f i).fLen = f.asks i := rfl
  have hlen := length_fread_at f i
  rw [Nat.min_eq_right hserved] at hlen
  have hnext : f.content.length - remaining f.content.length (i + 1) =
      f.content.length - remaining f.content.length i + f.asks i := by
    simp only [remaining, File.asks]
    omega
  have hbuffer : fread f (at' f i) (f.asks i) =
      (f.content.drop (f.content.length - remaining f.content.length i)).take (f.asks i) := by
    rw [← hasks, fread_at, Nat.min_eq_right hserved, hasks]
  rw [hasks, hbuffer] at hlen
  have hfeed : (at' f i).feed f ((f.content.drop (f.content.length - remaining f.content.length i)).take (f.asks i)) =
      at' f (i + 1) := by
    have hend : ¬ f.content.length < f.content.length - remaining f.content.length i + f.asks i := by
      simp only [File.asks]
      omega
    have hcount : (remaining f.content.length i : Int) - f.asks i = remaining f.content.length (i + 1) := by
      simp only [remaining, File.asks]
      omega
    unfold Reading.feed
    rw [hlen, hasks]
    simp only [at', hnext, List.take_add, hend, hcount, decide_false]
  rw [round_of_pos rfl (Int.natCast_pos.mpr hpos : 0 < (at' f i).fLen), hasks, hbuffer, hlen, hfeed]
  simp

theorem round_of_nonpos {f : File} {s : Reading} (h : s.fLen ≤ 0) : Sha256Utils.round f s = none := by
  unfold Sha256Utils.round
  rw [if_neg]
  simp only [Bool.and_eq_true, decide_eq_true_eq, not_and]
  omega

theorem start_at {f : File} (h : f.ftell = true) : start f = at' f 0 := by
  simp [start, at', remaining, h]

/-- A loop whose reads deliver what they are asked for comes to its `i`-th round, unless nothing is left before. -/
theorem ends_iff_at {f : File} (h : f.ftell = true) {i : Nat} (hserved : ∀ j < i, f.asks j ≤ f.fread j)
    (hpos : ∀ j < i, 0 < remaining f.content.length j) {t : Reading} :
    Loop.Ends (Sha256Utils.round f) (start f) t ↔ Loop.Ends (Sha256Utils.round f) (at' f i) t := by
  rw [start_at h]
  exact Loop.ends_iff_of_states (at' f) i fun j hj => round_at (hpos j hj) (hserved j hj)

/-- Below 2^32 the loop is left, whatever the reads deliver. -/
theorem exists_ends {f : File} (h : f.content.length < 2 ^ 32) : ∃ t, Loop.Ends (Sha256Utils.round f) (start f) t := by
  refine Loop.exists_ends_of_measure (I := fun s => s.fLen < 2 ^ 32) (fun s => s.fLen.toNat) ?_ ?_
  · intro s s' hs hround
    unfold Sha256Utils.round at hround
    split at hround
    · rename_i hentered
      simp only [Bool.and_eq_true, decide_eq_true_eq] at hentered
      split at hround
      · exact absurd hround (by simp)
      · rename_i hlen
        have hpos : 0 < readCount s.fLen := by
          have := readCount_pos (n := s.fLen.toNat) (by omega) (by omega)
          rwa [Int.toNat_of_nonneg (by omega)] at this
        rw [ne_eq, not_not] at hlen
        rw [Option.some.injEq] at hround
        subst hround
        simp only [Reading.feed, hlen]
        omega
    · exact absurd hround (by simp)
  · simp only [start]
    split <;> omega

/-- Below 2^32, a loop whose reads deliver what they are asked for has read the whole file. -/
theorem ends_of_served {f : File} (h : f.content.length < 2 ^ 32) (htell : f.ftell = true) (hserved : f.Served) :
    ∃ t, Loop.Ends (Sha256Utils.round f) (start f) t ∧ t.context = f.content := by
  have hzero : ∃ i, remaining f.content.length i = 0 := by
    refine ⟨f.content.length, ?_⟩
    have := remaining_le_sub h f.content.length
    omega
  have hleft : ∀ j < Nat.find hzero, 0 < remaining f.content.length j := by
    intro j hj
    exact Nat.pos_of_ne_zero (Nat.find_min hzero hj)
  have hend := Nat.find_spec hzero
  refine ⟨at' f (Nat.find hzero), ?_, ?_⟩
  · rw [ends_iff_at htell (fun j _ => hserved j) hleft]
    refine Loop.ends_of_none (round_of_nonpos ?_)
    simp only [at', hend]
    omega
  · simp only [at', hend, Nat.sub_zero, List.take_length]

/-- From 2^32 on, a loop whose reads deliver what they are asked for is never left. -/
theorem not_ends_of_served {f : File} (h : 2 ^ 32 ≤ f.content.length) (htell : f.ftell = true) (hserved : f.Served)
    {t : Reading} : ¬ Loop.Ends (Sha256Utils.round f) (start f) t := by
  refine Loop.not_ends_of_closed (I := fun s => ∃ i, s = at' f i) ?_ ⟨0, start_at htell⟩
  rintro s ⟨i, rfl⟩
  have hleft := le_remaining h i
  exact ⟨at' f (i + 1), round_at (by omega) (hserved i), i + 1, rfl⟩

variable {hash : Bytes → Digest} {f : File}

/-- A file that cannot be opened has no digest. -/
theorem digest_of_unopened (h : f.realpath = false ∨ f.fopen = false) : Returns (getDigestFromFile hash f) none := by
  refine ⟨0, ?_⟩
  unfold getDigestFromFile
  cases hr : f.realpath with
  | false => rfl
  | true =>
    have ho : f.fopen = false := h.resolve_left (by simp [hr])
    simp [ho]

/-- The digest of a file that was opened is that of what the loop has read when it is left. -/
theorem digest_of_opened (hrealpath : f.realpath = true) (hfopen : f.fopen = true) {d : Option Digest} :
    Returns (getDigestFromFile hash f) d ↔ ∃ t, Loop.Ends (Sha256Utils.round f) (start f) t ∧ d = some (hash t.context) := by
  simp only [Returns, getDigestFromFile, hrealpath, hfopen, Bool.not_true, Bool.false_eq_true, if_false,
    Option.map_eq_some_iff, Loop.Ends]
  constructor
  · rintro ⟨fuel, t, ht, rfl⟩
    exact ⟨t, ⟨fuel, ht⟩, rfl⟩
  · rintro ⟨t, ⟨fuel, ht⟩, rfl⟩
    exact ⟨fuel, t, ht, rfl⟩

/-- Below 2^32 the function returns. -/
theorem digest_exists (h : f.content.length < 2 ^ 32) : ∃ d, Returns (getDigestFromFile hash f) d := by
  cases hrealpath : f.realpath with
  | false => exact ⟨none, digest_of_unopened (.inl hrealpath)⟩
  | true =>
    cases hfopen : f.fopen with
    | false => exact ⟨none, digest_of_unopened (.inr hfopen)⟩
    | true =>
      obtain ⟨t, ht⟩ := exists_ends h
      exact ⟨_, (digest_of_opened hrealpath hfopen).mpr ⟨t, ht, rfl⟩⟩

/-- A file whose calls never fail. -/
def healthy (content : Bytes) (hfits : content.length < 2 ^ 63) : File where
  content := content
  fread := fun _ => MAX_BUFFER_LENGTH
  fits := hfits

theorem healthy_served (content : Bytes) (hfits : content.length < 2 ^ 63) : (healthy content hfits).Served := by
  intro i
  unfold File.asks readCount
  split
  · simp only [healthy, MAX_BUFFER_LENGTH] at *
    omega
  · exact Nat.le_refl _

end DigestAux

open DigestAux

/-- `GetDigestFromFile` comes to an end whatever the reads deliver, and hands every byte of the file to the hash once and in order
when the length is told and every read delivers what it is asked for: exactly for contents below 2^32 bytes. -/
theorem digest_reads_all_iff (content : Bytes) (hfits : content.length < 2 ^ 63) :
    ((∀ f : File, f.content = content → ∀ hash, ∃ d, Returns (getDigestFromFile hash f) d) ∧
      (∀ f : File, f.content = content → f.ftell = true → f.Served →
        ∃ t, Loop.Ends (Sha256Utils.round f) (start f) t ∧ t.context = content)) ↔
      content.length < 2 ^ 32 := by
  constructor
  · rintro ⟨-, hreads⟩
    obtain ⟨t, ht, -⟩ := hreads (healthy content hfits) rfl rfl (healthy_served content hfits)
    rcases Nat.lt_or_ge content.length (2 ^ 32) with hshort | hlong
    · exact hshort
    · exact absurd ht (not_ends_of_served (f := healthy content hfits) hlong rfl (healthy_served content hfits))
  · intro hshort
    constructor
    · rintro f rfl hash
      exact digest_exists hshort
    · rintro f rfl htell hserved
      exact ends_of_served hshort htell hserved

/-- The same for a file of one byte. -/
theorem digest_reads_all_iff_byte :
    ((∀ f : File, f.content = [97] → ∀ hash, ∃ d, Returns (getDigestFromFile hash f) d) ∧
      (∀ f : File, f.content = [97] → f.ftell = true → f.Served →
        ∃ t, Loop.Ends (Sha256Utils.round f) (start f) t ∧ t.context = [97])) ↔
      ([97] : Bytes).length < 2 ^ 32 :=
  digest_reads_all_iff [97] (by decide)

/-- A file of 2^32 bytes: already the first read asks for nothing, and so does every one after it. -/
theorem long_file_has_no_digest :
    ∃ f : File, f.content.length = 2 ^ 32 ∧ f.ftell = true ∧ f.Served ∧ ∀ hash d, ¬ Returns (getDigestFromFile hash f) d := by
  have hlen : (List.replicate (2 ^ 32) (0 : UInt8)).length = 2 ^ 32 := List.length_replicate
  have hfits : (List.replicate (2 ^ 32) (0 : UInt8)).length < 2 ^ 63 := by omega
  refine ⟨healthy _ hfits, hlen, rfl, healthy_served _ hfits, ?_⟩
  intro hash d hd
  obtain ⟨t, ht, -⟩ := (digest_of_opened rfl rfl).mp hd
  exact not_ends_of_served (Nat.le_of_eq hlen.symm) rfl (healthy_served _ hfits) ht

/-! ## The text of a digest -/

namespace DigestAux

/-- The text of the bytes from the `i`-th on fits the buffer when two digits a byte and the zero after them do. -/
theorem transDigest_eq {len i : Nat} {l : List UInt8} (h : (i + l.length) * SHA256_TO_STRING_STEP < len) :
    transDigest len i l = some (l.flatMap hexDigits) := by
  induction l generalizing i with
  | nil => rfl
  | cons b l ih =>
    rw [List.length_cons] at h
    unfold SHA256_TO_STRING_STEP at h ih
    unfold transDigest sprintfByte SHA256_TO_STRING_STEP
    rw [ih (by omega)]
    dsimp only
    rw [if_neg (by omega), if_pos (by omega)]
    rfl

theorem transDigestToSha256Result_eq (d : Digest) : transDigestToSha256Result SHA256_STRING_LEN d = some (hexText d) := by
  unfold transDigestToSha256Result hexText
  rw [transDigest_eq (by simp [SHA256_TO_STRING_STEP, SHA256_STRING_LEN])]
  rfl

/-! ## What the functions return -/

variable {hash : Bytes → Digest} {f : File}

/-- What `CheckFileSha256String` returns for a file that is found: the comparison with the digest it was given, if any. -/
theorem check_returns_iff (hfound : f.isFileExist = true) {sha256String : String} {b : Bool} :
    Returns (checkFileSha256String hash f sha256String) b ↔
      ∃ d, Returns (getDigestFromFile hash f) d ∧ b = strcasecmp (hexText (d.getD noDigest)) (cStr sha256String) := by
  simp only [Returns, checkFileSha256String, hfound, getFileSha256Str, transDigestToSha256Result_eq, Option.map_map,
    Bool.not_true, Bool.false_eq_true, if_false, Option.map_eq_some_iff, Function.comp_apply]
  constructor
  · rintro ⟨fuel, d, hd, rfl⟩
    exact ⟨d, ⟨fuel, hd⟩, rfl⟩
  · rintro ⟨d, ⟨fuel, hd⟩, rfl⟩
    exact ⟨fuel, d, hd, rfl⟩

/-- A loop whose length could not be told reads nothing. -/
theorem ends_of_untold (h : f.ftell = false) : Loop.Ends (Sha256Utils.round f) (start f) (start f) ∧ (start f).context = [] := by
  refine ⟨Loop.ends_of_none (round_of_nonpos ?_), rfl⟩
  simp [start, h]

/-- The digest of a file that can be opened and read. -/
theorem digest_of_complete (h : f.Complete) {d : Option Digest} (hd : Returns (getDigestFromFile hash f) d) :
    d = some (hash f.content) := by
  obtain ⟨hrealpath, hfopen, htell, hserved⟩ := h
  obtain ⟨t, ht, rfl⟩ := (digest_of_opened hrealpath hfopen).mp hd
  cases htold : f.ftell with
  | true =>
    rcases Nat.lt_or_ge f.content.length (2 ^ 32) with hshort | hlong
    · obtain ⟨t', ht', hcontext⟩ := ends_of_served hshort htold hserved
      rw [ht.unique ht', hcontext]
    · exact absurd ht (not_ends_of_served hlong htold hserved)
  | false =>
    have hempty : f.content = [] := htell.resolve_left (by simp [htold])
    rw [ht.unique (ends_of_untold htold).1, (ends_of_untold htold).2, hempty]

end DigestAux

/-- What the flows take the check for (`UpdateEngine.Sha256Utils`) is what it does with a file below 2^32 bytes that is found, can be
opened and whose reads deliver what they are asked for. -/
theorem check_of_flows {P : Platform} {n : Thread} {a : Answer} {s : State} {path sha256String : String} {hash : Bytes → Digest}
    {f : File} (hs : s.stopped = false) (hfile : s.files path = some f.content) (hfound : f.isFileExist = true)
    (hcomplete : f.Complete) (hshort : f.content.length < 2 ^ 32) (hhash : P.sha256 f.content = hexText (hash f.content))
    (htext : cStr sha256String = sha256String) :
    (UpdateEngine.Sha256Utils.checkFileSha256String P path sha256String).Ends (n.alone a) s fun b _ =>
      Returns (checkFileSha256String hash f sha256String) b := by
  have hreturns : Returns (checkFileSha256String hash f sha256String) (strcasecmp (P.sha256 f.content) sha256String) := by
    have hexists : ∃ d, Returns (getDigestFromFile hash f) d := digest_exists hshort
    obtain ⟨d, hd⟩ := hexists
    refine (check_returns_iff hfound).mpr ⟨d, hd, ?_⟩
    rw [digest_of_complete hcomplete hd, hhash, htext]
    rfl
  simp only [UpdateEngine.Sha256Utils.checkFileSha256String, FileUtils.isFileExist, UpdateEngine.Sha256Utils.getFileSha256Str,
    Concurrent.Prog.perform_bind, Concurrent.Prog.op_bind, Concurrent.Prog.pure_eq, Concurrent.Prog.ret_bind]
  refine AloneAux.ends_op hs rfl ?_
  rw [hfile]
  refine AloneAux.ends_op hs rfl ?_
  have hagain : (Op.after n s (.readFile path) (some f.content)).files path = some f.content := hfile
  rw [hagain]
  simp only [Concurrent.Prog.ret_bind]
  cases hsame : strcasecmp (P.sha256 f.content) sha256String with
  | false =>
    rw [hsame] at hreturns
    simp only [Bool.not_false, if_true]
    exact hreturns
  | true =>
    rw [hsame] at hreturns
    simp only [Bool.not_true, Bool.false_eq_true, if_false]
    exact AloneAux.ends_op hs rfl hreturns

end UpdateEngine.Buffered
