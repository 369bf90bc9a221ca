import UpdateEngine.Utils.CombineVersion

/-!
# The parts of a combined version

No part is cut from behind the end of a version, whatever its separators are, and what stands between the last parentheses is divided
into the two parts of the base version.
-/

namespace UpdateEngine.CombinePackageVersionUtils

open StdString

namespace CombineAux

variable {s : StdString}

/-! ## Positions -/

theorem position_some {i : Nat} (h : i < 2 ^ 64 - 1) : (position (some i)).toNat = i := by
  rw [position, UInt64.toNat_ofNat', Nat.mod_eq_of_lt (by omega)]

/-- A position that was found is in front of the end of the text. -/
theorem findLastOf_lt {chars : Bytes} (h : s.findLastOf chars ≠ npos) : (s.findLastOf chars).toNat < s.data.length := by
  unfold findLastOf at h ⊢
  cases hf : Scan.findLastElem (fun c => decide (c ∈ chars)) s.data with
  | none => exact absurd (by rw [hf]; rfl) h
  | some i =>
    have hi := (Scan.findLastElem_eq_some_iff.mp hf).1
    rwa [position_some (Nat.lt_trans hi s.short)]

theorem find_le {sub : Bytes} (h : s.find sub ≠ npos) : (s.find sub).toNat ≤ s.data.length := by
  unfold find at h ⊢
  cases hf : Scan.findPattern sub s.data 0 with
  | none => exact absurd (by rw [hf]; rfl) h
  | some i =>
    have hi := (Scan.findPattern_eq_some_iff.mp hf).2.1
    rwa [position_some (Nat.lt_of_le_of_lt hi s.short)]

/-- The position behind one that was found. -/
theorem succ_toNat {pos : UInt64} (h : pos.toNat < s.data.length) : (pos + 1).toNat = pos.toNat + 1 := by
  have := s.short
  rw [UInt64.toNat_add, UInt64.toNat_one, Nat.mod_eq_of_lt (by omega)]

theorem sub_toNat {a b : UInt64} (h : a.toNat ≤ b.toNat) : (b - a).toNat = b.toNat - a.toNat :=
  UInt64.toNat_sub_of_le _ _ (UInt64.le_iff_toNat_le.mpr h)

theorem substr_of_le {pos : UInt64} (h : pos.toNat ≤ s.data.length) (n : UInt64) :
    s.substr pos n = some ((s.data.drop pos.toNat).take n.toNat) :=
  if_neg (Nat.not_lt.mpr h)

/-! ## The loop -/

/-- The loop ends inside the text: where it began, when that is not in front of the end, and otherwise not behind the end. -/
def EndsInside (endPos mid : UInt64) (result : Option (UInt64 × Bool)) : Prop :=
  ∃ mid' isNumbers, result = some (mid', isNumbers) ∧ mid.toNat ≤ mid'.toNat ∧
    (mid.toNat ≤ endPos.toNat → mid'.toNat ≤ endPos.toNat) ∧ (endPos.toNat ≤ mid.toNat → mid' = mid)

variable {endPos mid : UInt64}

theorem endsInside_self (mid : UInt64) (isNumbers : Bool) : EndsInside endPos mid (some (mid, isNumbers)) :=
  ⟨mid, isNumbers, rfl, Nat.le_refl _, id, fun _ => rfl⟩

/-- One more round in front of the end. -/
theorem EndsInside.of_next {result : Option (UInt64 × Bool)} (hlt : mid < endPos) (hend : endPos.toNat < s.data.length)
    (h : EndsInside endPos (mid + 1) result) : EndsInside endPos mid result := by
  have hmid := UInt64.lt_iff_toNat_lt.mp hlt
  have hnext := succ_toNat (Nat.lt_trans hmid hend)
  obtain ⟨mid', isNumbers, heq, hfrom, hto, -⟩ := h
  exact ⟨mid', isNumbers, heq, by omega, fun _ => hto (by omega), fun _ => by omega⟩

theorem skipNumbers_endsInside (hend : endPos.toNat < s.data.length) (mid : UInt64) (isNumbers : Bool) :
    EndsInside endPos mid (skipNumbers s endPos mid isNumbers) := by
  fun_induction skipNumbers s endPos mid isNumbers with
  | case1 mid isNumbers hlt hget =>
    -- the next position is inside the text
    have hmid := UInt64.lt_iff_toNat_lt.mp hlt
    rw [StdString.get, succ_toNat (Nat.lt_trans hmid hend), List.getElem?_eq_none_iff] at hget
    omega
  | case2 mid isNumbers hlt c _ _ ih => exact ih.of_next hlt hend
  | case3 mid hlt => exact (endsInside_self (mid + 1) true).of_next hlt hend
  | case4 mid isNumbers hlt c _ _ _ ih => exact ih.of_next hlt hend
  | case5 mid isNumbers hge => exact endsInside_self mid isNumbers

/-! ## The parts of the base version -/

/-- Two cuts of a text that follow each other. -/
theorem cut_append_cut (l : Bytes) {a b c : Nat} (hab : a ≤ b) (hbc : b ≤ c) :
    (l.drop a).take (b - a) ++ (l.drop b).take (c - b) = (l.drop a).take (c - a) := by
  have hdrop : l.drop b = (l.drop a).drop (b - a) := by rw [List.drop_drop, Nat.add_sub_cancel' hab]
  rw [hdrop, ← List.take_add, Nat.add_comm, Nat.sub_add_sub_cancel hbc hab]

/-- The parts that are cut out behind the last parenthesis that opens, and what they are together when one that closes follows. -/
theorem handleBaseVersionLog_spec (hstart : s.findLastOf ['('.toUInt8] ≠ npos) (hend : s.findLastOf [')'.toUInt8] ≠ npos)
    (base log : Bytes) : ∃ base' log', handleBaseVersionLog s base log = some (base', log') ∧
      ((s.findLastOf ['('.toUInt8]).toNat < (s.findLastOf [')'.toUInt8]).toNat →
        base' ++ log' = (s.data.drop ((s.findLastOf ['('.toUInt8]).toNat + 1)).take
          ((s.findLastOf [')'.toUInt8]).toNat - ((s.findLastOf ['('.toUInt8]).toNat + 1))) := by
  have hlt := findLastOf_lt hstart
  have hlt' := findLastOf_lt hend
  have hnext := succ_toNat hlt
  obtain ⟨mid, isNumbers, hskip, hfrom, hto, hback⟩ := skipNumbers_endsInside hlt' (s.findLastOf ['('.toUInt8] + 1) false
  unfold handleBaseVersionLog
  dsimp only
  rw [if_neg (not_or.mpr ⟨hstart, hend⟩), hskip, Option.bind_eq_bind, Option.bind_some]
  dsimp only
  rw [substr_of_le (by omega)]
  split_ifs with hall
  · obtain ⟨rfl, -⟩ := hall
    refine ⟨_, _, rfl, fun horder => ?_⟩
    rw [List.nil_append, sub_toNat hfrom, hnext]
  · have hmid : mid.toNat ≤ s.data.length := by
      rcases Nat.le_total (s.findLastOf ['('.toUInt8] + 1).toNat (s.findLastOf [')'.toUInt8]).toNat with hle | hge
      · have := hto hle
        omega
      · rw [hback hge]
        omega
    rw [substr_of_le hmid]
    refine ⟨_, _, rfl, fun horder => ?_⟩
    rw [sub_toNat hfrom, sub_toNat (hto (by omega)), cut_append_cut s.data hfrom (hto (by omega)), hnext]

/-! ## No part is out of range -/

theorem handleBaseVersion_isSome (s : StdString) : (handleBaseVersion s).isSome = true := by
  unfold handleBaseVersion
  dsimp only
  split_ifs with hstart hend
  · rfl
  · rw [substr_of_le (find_le hstart)]
    rfl
  · rw [substr_of_le (find_le hstart)]
    rfl

theorem handleBaseVersionLog_isSome (s : StdString) (base log : Bytes) : (handleBaseVersionLog s base log).isSome = true := by
  by_cases h : s.findLastOf ['('.toUInt8] = npos ∨ s.findLastOf [')'.toUInt8] = npos
  · unfold handleBaseVersionLog
    dsimp only
    rw [if_pos h]
    rfl
  · obtain ⟨hstart, hend⟩ := not_or.mp h
    obtain ⟨base', log', heq, -⟩ := handleBaseVersionLog_spec hstart hend base log
    rw [heq]
    rfl

theorem handleCustVersion_isSome (s : StdString) : (handleCustVersion s).isSome = true := by
  unfold handleCustVersion
  dsimp only
  split_ifs with h
  · rfl
  · obtain ⟨hstart, hmid, -⟩ : _ ∧ _ ∧ _ := by simpa only [not_or] using h
    have hstart' := findLastOf_lt hstart
    have hmid' := findLastOf_lt hmid
    rw [substr_of_le (by rw [succ_toNat hmid']; omega), substr_of_le (by rw [succ_toNat hstart']; omega)]
    rfl

theorem handlePreloadVersion_isSome (s : StdString) : (handlePreloadVersion s).isSome = true := by
  unfold handlePreloadVersion
  dsimp only
  by_cases h : s.findLastOf ['R'.toUInt8] = npos ∨ s.findLastOf [')'.toUInt8] = npos
  · rw [if_pos h]
    rfl
  · obtain ⟨hstart, -⟩ := not_or.mp h
    rw [if_neg h, substr_of_le (Nat.le_of_lt (findLastOf_lt hstart)), Option.bind_eq_bind, Option.bind_some]
    split_ifs with h'
    · rfl
    · obtain ⟨hdot, -⟩ := not_or.mp h'
      have hdot' := findLastOf_lt hdot
      rw [substr_of_le (by rw [succ_toNat hdot']; omega)]
      rfl

/-- The combined version is always there. -/
theorem getPackageVersion_isSome (deviceName : Bytes) (baseVersion custVersion preloadVersion : StdString) :
    (getPackageVersion deviceName baseVersion custVersion preloadVersion).isSome = true := by
  obtain ⟨base, hbase⟩ := Option.isSome_iff_exists.mp (handleBaseVersion_isSome baseVersion)
  obtain ⟨⟨baseLog, log⟩, hlog⟩ := Option.isSome_iff_exists.mp (handleBaseVersionLog_isSome baseVersion [] [])
  obtain ⟨cust, hcust⟩ := Option.isSome_iff_exists.mp (handleCustVersion_isSome custVersion)
  obtain ⟨preload, hpreload⟩ := Option.isSome_iff_exists.mp (handlePreloadVersion_isSome preloadVersion)
  simp [getPackageVersion, hbase, hlog, hcust, hpreload]

/-- Where the last of some bytes is. -/
theorem findLastOf_eq {c : UInt8} {l l' : Bytes} (hs : s.data = l ++ c :: l') (hc : c ∉ l') :
    s.findLastOf [c] ≠ npos ∧ (s.findLastOf [c]).toNat = l.length := by
  have hlen : l.length < 2 ^ 64 - 1 := by
    have hshort := s.short
    rw [hs, List.length_append, List.length_cons] at hshort
    omega
  have hfind : s.findLastOf [c] = position (some l.length) := by
    rw [findLastOf, hs, Scan.findLastElem_append_cons (by simp)]
    intro b hb
    simp only [List.mem_singleton, decide_eq_false_iff_not]
    rintro rfl
    exact hc hb
  have hpos := position_some hlen
  rw [hfind]
  refine ⟨fun hnpos => ?_, hpos⟩
  rw [hnpos] at hpos
  have : npos.toNat = 2 ^ 64 - 1 := rfl
  omega

end CombineAux

/-- No index and no cut of the helpers is out of range, for all versions; and where the last `(` stands in front of the last `)`, the
parts that `HandleBaseVersionLog` leaves are together what stands between them. -/
theorem parts_in_range :
    (∀ s, (handleBaseVersion s).isSome = true) ∧ (∀ s base log, (handleBaseVersionLog s base log).isSome = true) ∧
      (∀ s, (handleCustVersion s).isSome = true) ∧ (∀ s, (handlePreloadVersion s).isSome = true) ∧
      ∀ (s : StdString) (a b c base log : Bytes), s.data = a ++ '('.toUInt8 :: (b ++ ')'.toUInt8 :: c) →
        '('.toUInt8 ∉ b → '('.toUInt8 ∉ c → ')'.toUInt8 ∉ c →
        ∃ base' log', handleBaseVersionLog s base log = some (base', log') ∧ base' ++ log' = b := by
  refine ⟨CombineAux.handleBaseVersion_isSome, CombineAux.handleBaseVersionLog_isSome, CombineAux.handleCustVersion_isSome,
    CombineAux.handlePreloadVersion_isSome, ?_⟩
  intro s a b c base log hs hb hc hc'
  obtain ⟨hstart, hstart'⟩ := CombineAux.findLastOf_eq hs (by simp [hb, hc, show '('.toUInt8 ≠ ')'.toUInt8 by decide])
  have hs' : s.data = (a ++ '('.toUInt8 :: b) ++ ')'.toUInt8 :: c := by simp [hs]
  obtain ⟨hend, hend'⟩ := CombineAux.findLastOf_eq hs' hc'
  obtain ⟨base', log', heq, htogether⟩ := CombineAux.handleBaseVersionLog_spec hstart hend base log
  refine ⟨base', log', heq, ?_⟩
  have hlen : (a ++ '('.toUInt8 :: b).length = a.length + 1 + b.length := by simp; omega
  rw [htogether (by omega), hstart', hend', hlen, hs]
  have hdrop : (a ++ '('.toUInt8 :: (b ++ ')'.toUInt8 :: c)).drop (a.length + 1) = b ++ ')'.toUInt8 :: c := by
    rw [← List.drop_drop, List.drop_left, List.drop_one, List.tail_cons]
  rw [hdrop, Nat.add_sub_cancel_left, List.take_left]

end UpdateEngine.CombinePackageVersionUtils
