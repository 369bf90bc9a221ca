import Mathlib.Data.List.Basic

/-!
# Texts in JSON

The values of JSON and a reader of its texts; and a writer that puts strings into a text as they are, without escapes. What such a writer
writes is read back exactly where no string needs an escape: a quotation mark, a backslash or a control character is never read as
itself, whatever comes after it.
-/

namespace JsonText

/-- A value. A number is `mantissa * 10 ^ exponent`; the members of an object keep the order of the text. -/
inductive Value where
  | null
  | bool (b : Bool)
  | num (mantissa exponent : Int)
  | str (s : String)
  | arr (l : List Value)
  | obj (l : List (String × Value))

/-- What reads something at the front of a text: what it has read, and what is left. -/
abbrev Reader (α : Type) := List Char → Option (α × List Char)

/-! ## Strings -/

/-- The characters that may stand between the tokens. -/
def isBlank (c : Char) : Bool := c = ' ' || c = '\t' || c = '\n' || c = '\r'

def skipBlanks (l : List Char) : List Char := l.dropWhile isBlank

/-- The escapes of one character. -/
def escapes : List (Char × Char) :=
  [('"', '"'), ('\\', '\\'), ('/', '/'), ('b', '\x08'), ('f', '\x0c'), ('n', '\n'), ('r', '\r'), ('t', '\t')]

def hexDigit (c : Char) : Option Nat :=
  if '0' ≤ c ∧ c ≤ '9' then some (c.toNat - '0'.toNat)
  else if 'a' ≤ c ∧ c ≤ 'f' then some (c.toNat - 'a'.toNat + 10)
  else if 'A' ≤ c ∧ c ≤ 'F' then some (c.toNat - 'A'.toNat + 10)
  else none

/-- Four hexadecimal digits. -/
def hex4 : Reader Nat
  | a :: b :: c :: d :: l => do return ((((← hexDigit a) * 16 + (← hexDigit b)) * 16 + (← hexDigit c)) * 16 + (← hexDigit d), l)
  | _ => none

/-- What follows `\u`: a code point, or a high surrogate and the low one after it. -/
def unicode : Reader Char := fun l => do
  let (n, l) ← hex4 l
  if n < 0xD800 ∨ 0xE000 ≤ n then return (.ofNat n, l)
  match l with
  | '\\' :: 'u' :: l => do
    let (m, l) ← hex4 l
    if n < 0xDC00 ∧ 0xDC00 ≤ m ∧ m < 0xE000 then return (.ofNat (0x10000 + (n - 0xD800) * 0x400 + (m - 0xDC00)), l) else none
  | _ => none

/-- What follows a backslash. -/
def escape : Reader Char
  | [] => none
  | c :: l => if c = 'u' then unicode l else (escapes.lookup c).map fun x => (x, l)

/-- The characters a string holds as they are. -/
def isPlain (c : Char) : Bool := c ≠ '"' && c ≠ '\\' && ' ' ≤ c

/-- A string after its opening quotation mark. -/
def string : Nat → Reader (List Char)
  | 0, _ => none
  | _ + 1, [] => none
  | n + 1, c :: l =>
    if c = '"' then some ([], l)
    else if c = '\\' then do
      let (x, l) ← escape l
      let (w, l) ← string n l
      return (x :: w, l)
    else if ' ' ≤ c then do
      let (w, l) ← string n l
      return (c :: w, l)
    else none

/-! ## Numbers -/

/-- The digits in front, at least one. -/
def digits : Reader (List Char) := fun l =>
  let ds := l.takeWhile (·.isDigit)
  if ds.isEmpty then none else some (ds, l.dropWhile (·.isDigit))

/-- The whole part: no zero in front of other digits. -/
def natural : Reader Nat := fun l => do
  let (ds, l) ← digits l
  if ds.head? = some '0' ∧ ds.length ≠ 1 then none else return (Nat.ofDigitChars 10 ds 0, l)

/-- The fraction after the whole part `m`: both as one number, and how many digits the fraction has. -/
def fraction (m : Nat) : Reader (Nat × Nat)
  | '.' :: l => do
    let (ds, l) ← digits l
    return ((Nat.ofDigitChars 10 ds m, ds.length), l)
  | l => some ((m, 0), l)

/-- A number of the exponent, with its sign. -/
def signed : Reader Int
  | '-' :: l => do
    let (ds, l) ← digits l
    return (-(Nat.ofDigitChars 10 ds 0 : Int), l)
  | '+' :: l => do
    let (ds, l) ← digits l
    return ((Nat.ofDigitChars 10 ds 0 : Int), l)
  | l => do
    let (ds, l) ← digits l
    return ((Nat.ofDigitChars 10 ds 0 : Int), l)

def exponent : Reader Int
  | [] => some (0, [])
  | c :: l => if c = 'e' ∨ c = 'E' then signed l else some (0, c :: l)

/-- A number without its sign. -/
def unsigned : Reader (Nat × Int) := fun l => do
  let (m, l) ← natural l
  let ((m, k), l) ← fraction m l
  let (e, l) ← exponent l
  return ((m, e - k), l)

def number : Reader Value
  | '-' :: l => (unsigned l).map fun x => (.num (-(x.1.1 : Int)) x.1.2, x.2)
  | l => (unsigned l).map fun x => (.num x.1.1 x.1.2, x.2)

/-! ## Values -/

/-- The rest of a word that stands for a value. -/
def word (w : List Char) (v : Value) : Reader Value := fun l =>
  if w.isPrefixOf l then some (v, l.drop w.length) else none

section Items

variable {α : Type} (p : Reader α) (close : Char)

/-- What follows an item: a comma and what `more` reads after it, or the closing character. -/
def goesOn (more : Reader (List α)) : Reader (List α) := fun l =>
  match skipBlanks l with
  | [] => none
  | c :: l => if c = ',' then more l else if c = close then some ([], l) else none

/-- Items with commas between them, up to the closing character: at least one. -/
def items : Nat → Reader (List α)
  | 0, _ => none
  | n + 1, l => do
    let (x, l) ← p l
    let (xs, l) ← goesOn close (items n) l
    return (x :: xs, l)

/-- The same, where there may be none. -/
def anyItems : Reader (List α) := fun l =>
  match skipBlanks l with
  | [] => none
  | c :: l' => if c = close then some ([], l') else items p close (l.length + 1) l

end Items

/-- A member of an object. -/
def member (p : Reader Value) : Reader (String × Value) := fun l =>
  match skipBlanks l with
  | '"' :: l => do
    let (w, l) ← string (l.length + 1) l
    match skipBlanks l with
    | ':' :: l => do
      let (v, l) ← p l
      return ((.ofList w, v), l)
    | _ => none
  | _ => none

/-- A value, of nested values at most as many as the number says. -/
def value : Nat → Reader Value
  | 0, _ => none
  | n + 1, l =>
    match skipBlanks l with
    | [] => none
    | c :: l =>
      if c = '"' then (string (l.length + 1) l).map fun x => (.str (.ofList x.1), x.2)
      else if c = '[' then (anyItems (value n) ']' l).map fun x => (.arr x.1, x.2)
      else if c = '\x7b' then (anyItems (member (value n)) '\x7d' l).map fun x => (.obj x.1, x.2)
      else if c = 't' then word ['r', 'u', 'e'] (.bool true) l
      else if c = 'f' then word ['a', 'l', 's', 'e'] (.bool false) l
      else if c = 'n' then word ['u', 'l', 'l'] .null l
      else number (c :: l)

/-- The value of a text, which holds nothing else. -/
def decode (text : String) : Option Value := do
  let (v, l) ← value (text.toList.length + 1) text.toList
  if skipBlanks l = [] then some v else none

/-! ## Writing without escapes -/

/-- Texts with commas between them. -/
def commas : List (List Char) → List Char
  | [] => []
  | [t] => t
  | t :: t' :: ts => t ++ ',' :: commas (t' :: ts)

/-- A whole number in decimal digits. -/
def decimal (z : Int) : List Char := (toString z).toList

/-- The exponent as it is written: nothing for zero. -/
def exponentText (e : Int) : List Char := if e = 0 then [] else 'e' :: decimal e

/-- The value of a member is smaller than the object. -/
theorem sizeOf_snd_lt {kv : String × Value} {l : List (String × Value)} (h : kv ∈ l) : sizeOf kv.2 < sizeOf (Value.obj l) := by
  have hmem := List.sizeOf_lt_of_mem h
  obtain ⟨k, v⟩ := kv
  simp only [Prod.mk.sizeOf_spec, Value.obj.sizeOf_spec] at hmem ⊢
  omega

/-- A member, by its name and the text of its value. -/
def memberText (k : String) (t : List Char) : List Char := '"' :: (k.toList ++ '"' :: ':' :: t)

/-- The text of a value, its strings as they are. -/
def render : Value → List Char
  | .null => ['n', 'u', 'l', 'l']
  | .bool true => ['t', 'r', 'u', 'e']
  | .bool false => ['f', 'a', 'l', 's', 'e']
  | .num m e => decimal m ++ exponentText e
  | .str s => '"' :: (s.toList ++ ['"'])
  | .arr l => '[' :: (commas (l.map render) ++ [']'])
  | .obj l => '\x7b' :: (commas (l.map fun kv => memberText kv.1 (render kv.2)) ++ ['\x7d'])
decreasing_by
  · decreasing_tactic
  · exact sizeOf_snd_lt ‹_›

/-! ## Strings that are read -/

theorem hexDigit_quote : hexDigit '"' = none := by decide

/-- A digit is no quotation mark. -/
theorem count_hexDigit {c : Char} {n : Nat} (h : hexDigit c = some n) (l : List Char) : (c :: l).count '"' = l.count '"' := by
  refine List.count_cons_of_ne ?_
  rintro rfl
  rw [hexDigit_quote] at h
  cases h

theorem hex4_spec {l r : List Char} {n : Nat} (h : hex4 l = some (n, r)) : ∃ u, l = u ++ r ∧ u.count '"' = 0 := by
  match l with
  | a :: b :: c :: d :: l =>
    simp only [hex4, Option.bind_eq_bind, Option.bind_eq_some_iff, Option.pure_def, Option.some.injEq, Prod.mk.injEq] at h
    obtain ⟨_, ha, _, hb, _, hc, _, hd, -, rfl⟩ := h
    refine ⟨[a, b, c, d], rfl, ?_⟩
    rw [count_hexDigit ha, count_hexDigit hb, count_hexDigit hc, count_hexDigit hd]
    rfl
  | [] | [_] | [_, _] | [_, _, _] => cases h

theorem unicode_spec {l r : List Char} {x : Char} (h : unicode l = some (x, r)) : ∃ u, l = u ++ r ∧ u.count '"' = 0 := by
  simp only [unicode, Option.bind_eq_bind, Option.bind_eq_some_iff] at h
  obtain ⟨⟨n, l'⟩, hn, h⟩ := h
  obtain ⟨u, rfl, hu⟩ := hex4_spec hn
  split at h
  · simp only [Option.pure_def, Option.some.injEq, Prod.mk.injEq] at h
    obtain ⟨-, rfl⟩ := h
    exact ⟨u, rfl, hu⟩
  · split at h
    · rename_i l₀ heq
      obtain rfl : l' = _ := heq
      simp only [Option.bind_eq_some_iff] at h
      obtain ⟨⟨m, l₁⟩, hm, h⟩ := h
      obtain ⟨u', rfl, hu'⟩ := hex4_spec hm
      split at h
      · simp only [Option.pure_def, Option.some.injEq, Prod.mk.injEq] at h
        obtain ⟨-, rfl⟩ := h
        refine ⟨u ++ '\\' :: 'u' :: u', by simp, ?_⟩
        simp [hu, hu']
      · cases h
    · cases h

/-- An escape that stands for no quotation mark holds none. -/
theorem escape_spec {l r : List Char} {x : Char} (h : escape l = some (x, r)) :
    ∃ u, l = u ++ r ∧ u ≠ [] ∧ u.count '"' ≤ [x].count '"' := by
  match l with
  | [] => cases h
  | c :: l =>
    rw [escape] at h
    split at h
    · rename_i hu
      obtain ⟨u, rfl, hcount⟩ := unicode_spec h
      refine ⟨c :: u, rfl, List.cons_ne_nil _ _, ?_⟩
      simp [hu, hcount]
    · obtain ⟨y, hy, heq⟩ := Option.map_eq_some_iff.mp h
      cases heq
      refine ⟨[c], rfl, List.cons_ne_nil _ _, ?_⟩
      by_cases hc : c = '"'
      · subst hc
        cases hy
        exact Nat.le_refl _
      · simp [List.count_singleton, hc]

/-- What a string is read from: at least as long as the string, with no more quotation marks; and of the same length only when every
character stands for itself. -/
theorem string_spec {n : Nat} {l w r : List Char} (h : string n l = some (w, r)) :
    ∃ u, l = u ++ '"' :: r ∧ u.count '"' ≤ w.count '"' ∧ w.length ≤ u.length ∧
      (w.length = u.length → u = w ∧ ∀ c ∈ w, isPlain c = true) := by
  induction n generalizing l w with
  | zero => cases h
  | succ n ih =>
    match l with
    | [] => cases h
    | c :: l =>
      rw [string] at h
      split at h
      · rename_i hc
        cases h
        exact ⟨[], by simp [hc], Nat.le_refl _, Nat.le_refl _, fun _ => ⟨rfl, by simp⟩⟩
      · rename_i hquote
        split at h
        · simp only [Option.bind_eq_bind, Option.bind_eq_some_iff, Option.pure_def, Option.some.injEq, Prod.mk.injEq] at h
          obtain ⟨⟨x, l'⟩, hx, ⟨w', r'⟩, hw, rfl, rfl⟩ := h
          obtain ⟨u, rfl, hne, hcount⟩ := escape_spec hx
          obtain ⟨u', rfl, hcount', hlength, -⟩ := ih hw
          have hu := List.length_pos_of_ne_nil hne
          refine ⟨c :: (u ++ u'), by simp, ?_, ?_, ?_⟩
          · rw [List.count_singleton] at hcount
            simp only [List.count_cons_of_ne hquote, List.count_append, List.count_cons] at hcount' ⊢
            omega
          · simp only [List.length_cons, List.length_append]
            omega
          · intro hsame
            simp only [List.length_cons, List.length_append] at hsame
            omega
        · rename_i hbackslash
          split at h
          · rename_i hcontrol
            simp only [Option.bind_eq_bind, Option.bind_eq_some_iff, Option.pure_def, Option.some.injEq, Prod.mk.injEq] at h
            obtain ⟨⟨w', r'⟩, hw, rfl, rfl⟩ := h
            obtain ⟨u, rfl, hcount, hlength, hplain⟩ := ih hw
            refine ⟨c :: u, rfl, ?_, ?_, ?_⟩
            · simpa [List.count_cons] using hcount
            · simpa using hlength
            · intro hsame
              obtain ⟨rfl, hall⟩ := hplain (by simpa using hsame)
              refine ⟨rfl, ?_⟩
              simpa [isPlain, hquote, hbackslash, hcontrol] using hall
          · cases h

/-- A string that is read as it stands in the text holds no character that needs an escape, and ends where it should: otherwise the reader
would have passed a quotation mark that the string read does not hold. -/
theorem string_sound {n : Nat} {w l r : List Char} (h : string n (w ++ '"' :: l) = some (w, r)) :
    (∀ c ∈ w, isPlain c = true) ∧ r = l := by
  obtain ⟨u, heq, hcount, hlength, hplain⟩ := string_spec h
  rcases Nat.lt_or_eq_of_le hlength with hlt | hsame
  · exfalso
    rcases List.append_eq_append_iff.mp heq with ⟨c, rfl, hc⟩ | ⟨c, rfl, hc⟩
    · cases c with
      | nil => simp at hlt
      | cons d c =>
        obtain ⟨rfl, -⟩ := List.cons.inj hc
        simp only [List.count_append, List.count_cons_self] at hcount
        omega
    · simp only [List.length_append] at hlt
      omega
  · obtain ⟨rfl, hall⟩ := hplain hsame
    exact ⟨hall, (List.cons.inj (List.append_cancel_left heq)).2.symm⟩

/-- A string without such a character is read as it stands. -/
theorem string_complete {n : Nat} {w : List Char} (hplain : ∀ c ∈ w, isPlain c = true) (hn : w.length < n) (l : List Char) :
    string n (w ++ '"' :: l) = some (w, l) := by
  induction w generalizing n with
  | nil =>
    obtain ⟨n, rfl⟩ := Nat.exists_eq_succ_of_ne_zero (Nat.ne_of_gt hn)
    rfl
  | cons c w ih =>
    obtain ⟨n, rfl⟩ := Nat.exists_eq_succ_of_ne_zero (Nat.ne_of_gt (Nat.zero_lt_of_lt hn))
    have hc := hplain c (List.mem_cons_self ..)
    simp only [isPlain, Bool.and_eq_true, decide_eq_true_eq] at hc
    rw [List.cons_append, string, if_neg hc.1.1, if_neg hc.1.2, if_pos hc.2,
      ih (fun c' hc' => hplain c' (List.mem_cons_of_mem _ hc')) (by simpa using hn)]
    rfl

/-! ## Numbers that are read -/

/-- What may follow a number: no digit. -/
def Stops (l : List Char) : Prop := ∀ c ∈ l.head?, c.isDigit = false

/-- What may follow a value. -/
def Ends (l : List Char) : Prop := ∀ c ∈ l.head?, c = ',' ∨ c = ']' ∨ c = '\x7d'

theorem Ends.stops {l : List Char} (h : Ends l) : Stops l := by
  intro c hc
  rcases h c hc with rfl | rfl | rfl <;> decide

theorem digits_spec {ds l : List Char} (hds : ∀ c ∈ ds, c.isDigit = true) (hne : ds ≠ []) (hl : Stops l) :
    digits (ds ++ l) = some (ds, l) := by
  have hl' : l.takeWhile (·.isDigit) = [] ∧ l.dropWhile (·.isDigit) = l := by
    cases l with
    | nil => exact ⟨rfl, rfl⟩
    | cons c l => simp [hl c rfl]
  simp [digits, List.takeWhile_append_of_pos hds, List.dropWhile_append_of_pos hds, hl', hne]

theorem isDigit_of_mem {m : Nat} {c : Char} (h : c ∈ Nat.toDigits 10 m) : c.isDigit = true :=
  Nat.isDigit_of_mem_toDigits (by omega) (by omega) h

/-- Only zero begins with a zero. -/
theorem head?_toDigits {m : Nat} (hm : m ≠ 0) : (Nat.toDigits 10 m).head? ≠ some '0' := by
  induction m using Nat.strongRecOn with
  | _ m ih =>
    by_cases h : m < 10
    · rw [Nat.toDigits_of_lt_base h]
      have hall : ∀ d < 10, d ≠ 0 → Nat.digitChar d ≠ '0' := by decide
      simpa using hall m h hm
    · rw [Nat.toDigits_of_base_le (by omega) (by omega), List.head?_append]
      have hhead := ih (m / 10) (by omega) (by omega)
      cases hd : Nat.toDigits 10 (m / 10) with
      | nil => exact absurd hd Nat.toDigits_ne_nil
      | cons c ds =>
        rw [hd] at hhead
        simpa using hhead

theorem natural_spec (m : Nat) {l : List Char} (hl : Stops l) : natural (Nat.toDigits 10 m ++ l) = some (m, l) := by
  have hzero : ¬ ((Nat.toDigits 10 m).head? = some '0' ∧ (Nat.toDigits 10 m).length ≠ 1) := by
    rintro ⟨hhead, hlength⟩
    by_cases hm : m = 0
    · subst hm
      exact hlength rfl
    · exact head?_toDigits hm hhead
  simp only [natural, digits_spec (fun c hc => isDigit_of_mem hc) Nat.toDigits_ne_nil hl, Option.bind_eq_bind, Option.bind_some]
  rw [if_neg hzero, Nat.ofDigitChars_ten_toDigits]
  rfl

/-- The digits of a number, after a minus sign if it is negative. -/
theorem decimal_cases (z : Int) :
    (z = z.natAbs ∧ decimal z = Nat.toDigits 10 z.natAbs) ∨ (z = -(z.natAbs : Int) ∧ decimal z = '-' :: Nat.toDigits 10 z.natAbs) := by
  unfold decimal
  rw [Int.toString_eq_repr, Int.repr_eq_if]
  split
  · exact .inl ⟨by omega, by rw [Nat.toList_repr]; congr 1; omega⟩
  · refine .inr ⟨by omega, ?_⟩
    rw [String.toList_append, Nat.toList_repr]
    have : (-z).toNat = z.natAbs := by omega
    rw [this]
    rfl

/-- A digit comes first, and is none of the other characters a number begins or goes on with. -/
theorem toDigits_cons (m : Nat) : ∃ c ds, Nat.toDigits 10 m = c :: ds ∧ c.isDigit = true := by
  cases h : Nat.toDigits 10 m with
  | nil => exact absurd h Nat.toDigits_ne_nil
  | cons c ds => exact ⟨c, ds, rfl, isDigit_of_mem (m := m) (by rw [h]; exact List.mem_cons_self ..)⟩

theorem ne_of_isDigit {c d : Char} (h : c.isDigit = true) (hd : d.isDigit = false) : c ≠ d := by
  rintro rfl
  rw [h] at hd
  cases hd

theorem signed_spec (z : Int) {l : List Char} (hl : Stops l) : signed (decimal z ++ l) = some (z, l) := by
  have hdigits := digits_spec (fun c hc => isDigit_of_mem (m := z.natAbs) hc) Nat.toDigits_ne_nil hl
  rcases decimal_cases z with ⟨hz, hd⟩ | ⟨hz, hd⟩
  · rw [hd]
    obtain ⟨c, ds, hcons, hc⟩ := toDigits_cons z.natAbs
    unfold signed
    split
    · rename_i heq
      rw [hcons] at heq
      exact absurd (List.cons.inj heq).1 (ne_of_isDigit hc (by decide))
    · rename_i heq
      rw [hcons] at heq
      exact absurd (List.cons.inj heq).1 (ne_of_isDigit hc (by decide))
    · rw [hdigits]
      simp only [Option.bind_eq_bind, Option.bind_some, Nat.ofDigitChars_ten_toDigits, Option.pure_def]
      rw [← hz]
  · rw [hd, List.cons_append]
    simp only [signed, hdigits, Option.bind_eq_bind, Option.bind_some, Nat.ofDigitChars_ten_toDigits, Option.pure_def]
    rw [← hz]

theorem exponent_spec (e : Int) {l : List Char} (hl : Ends l) : exponent (exponentText e ++ l) = some (e, l) := by
  by_cases he : e = 0
  · subst he
    cases l with
    | nil => rfl
    | cons c l =>
      have hc := hl c rfl
      simp only [exponentText, if_pos, List.nil_append, exponent]
      rw [if_neg]
      rcases hc with rfl | rfl | rfl <;> decide
  · simp only [exponentText, if_neg he, List.cons_append, exponent, true_or, if_true]
    exact signed_spec e hl.stops

theorem unsigned_spec (m : Nat) (e : Int) {l : List Char} (hl : Ends l) :
    unsigned (Nat.toDigits 10 m ++ (exponentText e ++ l)) = some ((m, e), l) := by
  have hstops : Stops (exponentText e ++ l) := by
    unfold exponentText
    split
    · exact hl.stops
    · rintro c ⟨⟩
      rfl
  have hfraction : fraction m (exponentText e ++ l) = some ((m, 0), exponentText e ++ l) := by
    unfold fraction
    split
    · rename_i heq
      unfold exponentText at heq
      split at heq
      · rw [List.nil_append] at heq
        subst heq
        exact absurd (hl '.' rfl) (by decide)
      · cases heq
    · rfl
  simp only [unsigned, natural_spec m hstops, hfraction, exponent_spec e hl, Option.bind_eq_bind, Option.bind_some, Option.pure_def]
  simp

/-- A number is read as it was written. -/
theorem number_spec (m e : Int) {l : List Char} (hl : Ends l) : number (decimal m ++ (exponentText e ++ l)) = some (.num m e, l) := by
  have hunsigned := unsigned_spec m.natAbs e hl
  rcases decimal_cases m with ⟨hm, hd⟩ | ⟨hm, hd⟩
  · rw [hd]
    obtain ⟨c, ds, hcons, hc⟩ := toDigits_cons m.natAbs
    unfold number
    split
    · rename_i heq
      rw [hcons] at heq
      exact absurd (List.cons.inj heq).1 (ne_of_isDigit hc (by decide))
    · rw [hunsigned]
      simp only [Option.map_some]
      rw [← hm]
  · rw [hd, List.cons_append]
    simp only [number, hunsigned, Option.map_some]
    rw [← hm]

/-! ## Items that are read -/

theorem skipBlanks_cons {c : Char} (hc : isBlank c = false) (l : List Char) : skipBlanks (c :: l) = c :: l :=
  List.dropWhile_cons_of_neg (by simp [hc])

theorem commas_cons (t : List Char) {ts : List (List Char)} (h : ts ≠ []) : commas (t :: ts) = t ++ ',' :: commas ts := by
  cases ts with
  | nil => exact absurd rfl h
  | cons t' ts => rfl

section Items

variable {α γ : Type} {p : Reader α} {close : Char} {text : α → List Char}

/-- The characters that close an array or an object. -/
def Closes (c : Char) : Prop := c = ']' ∨ c = '\x7d'

theorem Closes.ends (h : Closes close) (l : List Char) : Ends (close :: l) := by
  rintro c ⟨⟩
  exact .inr h

theorem Closes.plain (h : Closes close) : isBlank close = false ∧ close ≠ ',' := by
  rcases h with rfl | rfl <;> decide

theorem ends_comma (l : List Char) : Ends (',' :: l) := by
  rintro c ⟨⟩
  exact .inl rfl

theorem goesOn_close (hclose : Closes close) (more : Reader (List α)) (l : List Char) : goesOn close more (close :: l) = some ([], l) := by
  obtain ⟨hblank, hcomma⟩ := hclose.plain
  simp only [goesOn, skipBlanks_cons hblank, if_neg hcomma, if_true]

theorem goesOn_comma (more : Reader (List α)) (l : List Char) : goesOn close more (',' :: l) = more l := by
  simp only [goesOn, skipBlanks_cons (c := ',') rfl, if_true]

/-- Items that are each read as they were written. -/
theorem items_complete (hclose : Closes close) {xs : List α} (hne : xs ≠ [])
    (hp : ∀ x ∈ xs, ∀ l, Ends l → p (text x ++ l) = some (x, l)) {n : Nat} (hn : xs.length ≤ n) (l : List Char) :
    items p close n (commas (xs.map text) ++ close :: l) = some (xs, l) := by
  induction xs generalizing n with
  | nil => exact absurd rfl hne
  | cons x xs ih =>
    obtain ⟨n, rfl⟩ := Nat.exists_eq_succ_of_ne_zero (Nat.ne_of_gt (Nat.lt_of_lt_of_le (Nat.zero_lt_succ _) hn))
    have hx := hp x (List.mem_cons_self ..)
    by_cases hxs : xs = []
    · subst hxs
      change items p close (n + 1) (text x ++ close :: l) = some ([x], l)
      simp only [items, hx _ (hclose.ends l), goesOn_close hclose, Option.bind_eq_bind, Option.bind_some, Option.pure_def]
    · have hrest := ih hxs (fun y hy => hp y (List.mem_cons_of_mem _ hy)) (Nat.le_of_succ_le_succ hn)
      rw [List.map_cons, commas_cons _ (by simpa using hxs), List.append_assoc, List.cons_append]
      simp only [items, hx _ (ends_comma _), goesOn_comma, hrest, Option.bind_eq_bind, Option.bind_some, Option.pure_def]

/-- Items that are read, all but for what `sk` does not see, as they were written, where each such item was written so that this is so. -/
theorem items_sound (hclose : Closes close) (sk : α → γ) {P : α → Prop} {xs ys : List α} (hne : xs ≠ [])
    (hp : ∀ x ∈ xs, ∀ y l r, Ends l → p (text x ++ l) = some (y, r) → sk y = sk x → y = x ∧ P x ∧ r = l) {n : Nat}
    {l r : List Char} (h : items p close n (commas (xs.map text) ++ close :: l) = some (ys, r)) (hsk : ys.map sk = xs.map sk) :
    ys = xs ∧ (∀ x ∈ xs, P x) ∧ r = l := by
  induction xs generalizing n ys with
  | nil => exact absurd rfl hne
  | cons x xs ih =>
    cases n with
    | zero => cases h
    | succ n =>
      simp only [items, Option.bind_eq_bind, Option.bind_eq_some_iff, Option.pure_def, Option.some.injEq, Prod.mk.injEq] at h
      obtain ⟨⟨y, l'⟩, hy, ⟨ys, r'⟩, hys, rfl, rfl⟩ := h
      obtain ⟨hskx, hsks⟩ := List.cons.inj hsk
      have hx := hp x (List.mem_cons_self ..)
      by_cases hxs : xs = []
      · subst hxs
        obtain ⟨rfl, hP, rfl⟩ := hx y _ l' (hclose.ends l) hy hskx
        rw [goesOn_close hclose] at hys
        cases hys
        exact ⟨rfl, by simpa using hP, rfl⟩
      · rw [List.map_cons, commas_cons _ (by simpa using hxs), List.append_assoc, List.cons_append] at hy
        obtain ⟨rfl, hP, rfl⟩ := hx y _ l' (ends_comma _) hy hskx
        rw [goesOn_comma] at hys
        obtain ⟨rfl, hall, rfl⟩ := ih hxs (fun z hz => hp z (List.mem_cons_of_mem _ hz)) hys hsks
        exact ⟨rfl, List.forall_mem_cons.mpr ⟨hP, hall⟩, rfl⟩

/-- How the text of an item begins: with no blank, and with nothing that closes. -/
def Opens (t : List Char) : Prop := ∃ c l, t = c :: l ∧ isBlank c = false ∧ c ≠ ']' ∧ c ≠ '\x7d'

theorem Opens.ne {t : List Char} (h : Opens t) (hclose : Closes close) {c : Char} {l : List Char} (ht : t = c :: l) :
    isBlank c = false ∧ c ≠ close := by
  obtain ⟨c', l', rfl, hblank, hbracket, hbrace⟩ := h
  obtain ⟨rfl, -⟩ := List.cons.inj ht
  refine ⟨hblank, ?_⟩
  rcases hclose with rfl | rfl
  · exact hbracket
  · exact hbrace

/-- An item takes at least one character. -/
theorem length_le_commas {ts : List (List Char)} (h : ∀ t ∈ ts, Opens t) : ts.length ≤ (commas ts).length := by
  induction ts with
  | nil => exact Nat.le_refl _
  | cons t ts ih =>
    obtain ⟨c, l, rfl, -⟩ := h t (List.mem_cons_self ..)
    by_cases hts : ts = []
    · subst hts
      simp [commas]
    · have hrest := ih fun t' ht' => h t' (List.mem_cons_of_mem _ ht')
      rw [commas_cons _ hts]
      simp only [List.length_cons, List.length_append]
      omega

theorem anyItems_of_head {c : Char} (hblank : isBlank c = false) (hne : c ≠ close) (t : List Char) :
    anyItems p close (c :: t) = items p close ((c :: t).length + 1) (c :: t) := by
  simp only [anyItems, skipBlanks_cons hblank, if_neg hne]

/-- Where there are items, the first one is read. -/
theorem anyItems_cons (hclose : Closes close) {x : α} (hx : Opens (text x)) (xs : List α) (l : List Char) :
    ∃ n, (commas ((x :: xs).map text)).length ≤ n ∧
      anyItems p close (commas ((x :: xs).map text) ++ close :: l) = items p close n (commas ((x :: xs).map text) ++ close :: l) := by
  have hhead : ∃ c t, commas ((x :: xs).map text) = c :: t ∧ isBlank c = false ∧ c ≠ close := by
    obtain ⟨c, t, ht, -⟩ := id hx
    obtain ⟨hblank, hne⟩ := hx.ne hclose ht
    by_cases hxs : xs = []
    · subst hxs
      exact ⟨c, t, ht, hblank, hne⟩
    · rw [List.map_cons, commas_cons _ (by simpa using hxs), ht, List.cons_append]
      exact ⟨c, _, rfl, hblank, hne⟩
  obtain ⟨c, t, ht, hblank, hne⟩ := hhead
  refine ⟨(commas ((x :: xs).map text) ++ close :: l).length + 1, ?_, ?_⟩
  · simp only [List.length_append, List.length_cons]
    omega
  · rw [ht, List.cons_append, anyItems_of_head hblank hne]

theorem anyItems_nil (hclose : Closes close) (l : List Char) : anyItems p close (commas (([] : List α).map text) ++ close :: l) = some ([], l) := by
  simp only [List.map_nil, commas, List.nil_append, anyItems, skipBlanks_cons hclose.plain.1, if_true]

theorem anyItems_complete (hclose : Closes close) {xs : List α} (hopens : ∀ x ∈ xs, Opens (text x))
    (hp : ∀ x ∈ xs, ∀ l, Ends l → p (text x ++ l) = some (x, l)) (l : List Char) :
    anyItems p close (commas (xs.map text) ++ close :: l) = some (xs, l) := by
  cases xs with
  | nil => exact anyItems_nil hclose l
  | cons x xs =>
    obtain ⟨n, hn, heq⟩ := anyItems_cons (p := p) hclose (hopens x (List.mem_cons_self ..)) xs l
    rw [heq]
    refine items_complete hclose (List.cons_ne_nil _ _) hp (Nat.le_trans ?_ hn) l
    have hitems : ∀ t ∈ (x :: xs).map text, Opens t := by simpa using hopens
    simpa using length_le_commas hitems

theorem anyItems_sound (hclose : Closes close) (sk : α → γ) {P : α → Prop} {xs ys : List α} (hopens : ∀ x ∈ xs, Opens (text x))
    (hp : ∀ x ∈ xs, ∀ y l r, Ends l → p (text x ++ l) = some (y, r) → sk y = sk x → y = x ∧ P x ∧ r = l) {l r : List Char}
    (h : anyItems p close (commas (xs.map text) ++ close :: l) = some (ys, r)) (hsk : ys.map sk = xs.map sk) :
    ys = xs ∧ (∀ x ∈ xs, P x) ∧ r = l := by
  cases xs with
  | nil =>
    rw [anyItems_nil hclose] at h
    cases h
    exact ⟨rfl, by simp, rfl⟩
  | cons x xs =>
    obtain ⟨n, -, heq⟩ := anyItems_cons (p := p) hclose (hopens x (List.mem_cons_self ..)) xs l
    rw [heq] at h
    exact items_sound hclose sk (List.cons_ne_nil _ _) hp h hsk

end Items

/-! ## Values that are read -/

/-- A text that holds no character that needs an escape. -/
def PlainText (s : String) : Prop := ∀ c ∈ s.toList, isPlain c = true

theorem toList_ofList_iff {w : List Char} {s : String} : String.ofList w = s ↔ w = s.toList := by
  constructor
  · rintro rfl
    simp
  · rintro rfl
    simp

section Member

variable {p : Reader Value}

theorem member_complete {k : String} (hk : PlainText k) {t l : List Char} {v : Value} (hv : p (t ++ l) = some (v, l)) :
    member p (memberText k t ++ l) = some ((k, v), l) := by
  have hkey := string_complete (n := (k.toList ++ '"' :: ':' :: (t ++ l)).length + 1) hk
    (by simp only [List.length_append, List.length_cons]; omega) (':' :: (t ++ l))
  simp only [memberText, List.cons_append, List.append_assoc, member, skipBlanks_cons (c := '"') rfl, hkey, Option.bind_eq_bind,
    Option.bind_some, skipBlanks_cons (c := ':') rfl, hv, Option.pure_def, String.ofList_toList]

theorem member_sound {k k' : String} {t l r : List Char} {v : Value} (h : member p (memberText k t ++ l) = some ((k', v), r))
    (hk : k' = k) : PlainText k ∧ p (t ++ l) = some (v, r) := by
  subst hk
  simp only [memberText, List.cons_append, List.append_assoc, member, skipBlanks_cons (c := '"') rfl, Option.bind_eq_bind,
    Option.bind_eq_some_iff] at h
  obtain ⟨⟨w, l'⟩, hkey, h⟩ := h
  split at h
  · rename_i l₁ hcolon
    simp only [Option.bind_eq_some_iff, Option.pure_def, Option.some.injEq, Prod.mk.injEq] at h
    obtain ⟨⟨v', r'⟩, hv, ⟨hk, rfl⟩, rfl⟩ := h
    obtain rfl := toList_ofList_iff.mp hk
    obtain ⟨hplain, rfl⟩ := string_sound hkey
    rw [skipBlanks_cons (c := ':') rfl] at hcolon
    cases hcolon
    exact ⟨hplain, hv⟩
  · cases h

end Member

namespace Value

/-- The value with all its numbers forgotten. -/
def skeleton : Value → Value
  | .null => .null
  | .bool b => .bool b
  | .num _ _ => .num 0 0
  | .str s => .str s
  | .arr l => .arr (l.map skeleton)
  | .obj l => .obj (l.map fun kv => (kv.1, skeleton kv.2))
decreasing_by
  · decreasing_tactic
  · exact sizeOf_snd_lt ‹_›

/-- No string in the value, and no name of a member, holds a character that needs an escape. -/
def Plain : Value → Prop
  | .str s => PlainText s
  | .arr l => ∀ v ∈ l, v.Plain
  | .obj l => ∀ kv ∈ l, PlainText kv.1 ∧ kv.2.Plain
  | _ => True
decreasing_by
  · decreasing_tactic
  · exact sizeOf_snd_lt ‹_›

/-- Induction over the values in arrays and objects. -/
theorem induction {P : Value → Prop} (null : P .null) (bool : ∀ b, P (.bool b)) (num : ∀ m e, P (.num m e)) (str : ∀ s, P (.str s))
    (arr : ∀ l, (∀ v ∈ l, P v) → P (.arr l)) (obj : ∀ l, (∀ kv ∈ l, P kv.2) → P (.obj l)) : ∀ v, P v
  | .null => null
  | .bool b => bool b
  | .num m e => num m e
  | .str s => str s
  | .arr l => arr l fun v _ => induction null bool num str arr obj v
  | .obj l => obj l fun kv _ => induction null bool num str arr obj kv.2
decreasing_by
  · decreasing_tactic
  · exact sizeOf_snd_lt ‹_›

end Value

theorem decimal_head (m : Int) : ∃ c t, decimal m = c :: t ∧ (c.isDigit = true ∨ c = '-') := by
  obtain ⟨c, ds, hcons, hc⟩ := toDigits_cons m.natAbs
  rcases decimal_cases m with ⟨-, hd⟩ | ⟨-, hd⟩
  · exact ⟨c, ds, by rw [hd, hcons], .inl hc⟩
  · exact ⟨'-', _, hd, .inr rfl⟩

/-- A number begins with no other character. -/
theorem ne_of_numeric {c d : Char} (h : c.isDigit = true ∨ c = '-') (hd : d.isDigit = false) (hminus : d ≠ '-') : c ≠ d := by
  rcases h with h | rfl
  · exact ne_of_isDigit h hd
  · exact hminus.symm

theorem isBlank_of_numeric {c : Char} (h : c.isDigit = true ∨ c = '-') : isBlank c = false := by
  have hspace := ne_of_numeric h (d := ' ') (by decide) (by decide)
  have htab := ne_of_numeric h (d := '\t') (by decide) (by decide)
  have hnewline := ne_of_numeric h (d := '\n') (by decide) (by decide)
  have hreturn := ne_of_numeric h (d := '\r') (by decide) (by decide)
  simp [isBlank, hspace, htab, hnewline, hreturn]

theorem value_num (n : Nat) (m e : Int) {l : List Char} (hl : Ends l) :
    value (n + 1) (decimal m ++ (exponentText e ++ l)) = some (.num m e, l) := by
  have hnumber := number_spec m e hl
  obtain ⟨c, t, ht, hc⟩ := decimal_head m
  rw [ht, List.cons_append] at hnumber ⊢
  simp only [value, skipBlanks_cons (isBlank_of_numeric hc)]
  rw [if_neg (ne_of_numeric hc (by decide) (by decide)), if_neg (ne_of_numeric hc (by decide) (by decide)),
    if_neg (ne_of_numeric hc (by decide) (by decide)), if_neg (ne_of_numeric hc (by decide) (by decide)),
    if_neg (ne_of_numeric hc (by decide) (by decide)), if_neg (ne_of_numeric hc (by decide) (by decide)), hnumber]

theorem opens_render (v : Value) : Opens (render v) := by
  cases v with
  | num m e =>
    obtain ⟨c, t, ht, hc⟩ := decimal_head m
    refine ⟨c, t ++ exponentText e, by rw [render, ht, List.cons_append], isBlank_of_numeric hc, ?_, ?_⟩
    · exact ne_of_numeric hc (by decide) (by decide)
    · exact ne_of_numeric hc (by decide) (by decide)
  | bool b => cases b <;> simp [render, Opens, isBlank]
  | _ => simp [render, Opens, isBlank]

theorem opens_memberText (k : String) (t : List Char) : Opens (memberText k t) := ⟨'"', _, rfl, by decide, by decide, by decide⟩

section Values

variable {n : Nat} {l : List Char}

theorem value_str (n : Nat) (l : List Char) :
    value (n + 1) ('"' :: l) = (string (l.length + 1) l).map fun x => (.str (.ofList x.1), x.2) := rfl

theorem value_arr (n : Nat) (l : List Char) :
    value (n + 1) ('[' :: l) = (anyItems (value n) ']' l).map fun x => (.arr x.1, x.2) := rfl

theorem value_obj (n : Nat) (l : List Char) :
    value (n + 1) ('\x7b' :: l) = (anyItems (member (value n)) '\x7d' l).map fun x => (.obj x.1, x.2) := rfl

/-- An item is not longer than the text that holds it. -/
theorem length_le_of_mem {t : List Char} {ts : List (List Char)} (h : t ∈ ts) : t.length ≤ (commas ts).length := by
  induction ts with
  | nil => cases h
  | cons t' ts ih =>
    by_cases hts : ts = []
    · subst hts
      rw [List.mem_singleton.mp h]
      exact Nat.le_refl _
    · rw [commas_cons _ hts]
      simp only [List.length_append, List.length_cons]
      rcases List.mem_cons.mp h with rfl | h
      · omega
      · have := ih h
        omega

/-- A value that is shorter is read with a smaller number. -/
theorem value_smaller {w : Value} (hw : (render w).length ≤ n)
    (h : ∀ {n : Nat} {l : List Char}, (render w).length ≤ n + 1 → Ends l → value (n + 1) (render w ++ l) = some (w, l)) (hl : Ends l) :
    value n (render w ++ l) = some (w, l) := by
  cases n with
  | zero =>
    obtain ⟨c, t, ht, -⟩ := opens_render w
    simp [ht] at hw
  | succ n => exact h hw hl

/-- A value without a character that needs an escape is read as it was written. -/
theorem value_complete (v : Value) (hv : v.Plain) (hn : (render v).length ≤ n + 1) (hl : Ends l) :
    value (n + 1) (render v ++ l) = some (v, l) := by
  induction v using Value.induction generalizing n l with
  | null => simp [render, value, skipBlanks, isBlank, word]
  | bool b => cases b <;> simp [render, value, skipBlanks, isBlank, word]
  | num m e =>
    rw [render, List.append_assoc]
    exact value_num n m e hl
  | str s =>
    have hs : PlainText s := by simpa only [Value.Plain] using hv
    rw [render, List.cons_append, value_str, List.append_assoc, List.singleton_append,
      string_complete hs (by simp only [List.length_append, List.length_cons]; omega), Option.map_some, String.ofList_toList]
  | arr vs ih =>
    simp only [Value.Plain] at hv
    rw [render, List.cons_append, value_arr, List.append_assoc, List.singleton_append,
      anyItems_complete (.inl rfl) (fun v _ => opens_render v) ?_ l, Option.map_some]
    intro w hw l hl
    have hlength := length_le_of_mem (List.mem_map_of_mem (f := render) hw)
    refine value_smaller ?_ (fun hn hl => ih w hw (hv w hw) hn hl) hl
    simp only [render, List.length_cons, List.length_append] at hn
    omega
  | obj kvs ih =>
    simp only [Value.Plain] at hv
    rw [render, List.cons_append, value_obj, List.append_assoc, List.singleton_append,
      anyItems_complete (.inr rfl) (fun kv _ => opens_memberText kv.1 _) ?_ l, Option.map_some]
    intro kv hkv l hl
    obtain ⟨hk, hplain⟩ := hv kv hkv
    have hlength := length_le_of_mem (List.mem_map_of_mem (f := fun kv => memberText kv.1 (render kv.2)) hkv)
    refine member_complete hk (value_smaller ?_ (fun hn hl => ih kv hkv hplain hn hl) hl)
    simp only [render, memberText, List.length_cons, List.length_append] at hn hlength
    omega

theorem exists_of_value {x : Value × List Char} (h : value n l = some x) : ∃ m, n = m + 1 := by
  cases n with
  | zero => cases h
  | succ n => exact ⟨n, rfl⟩

/-- A value that is read, all but for its numbers, as it was written holds no character that needs an escape, and its numbers are read as
they were written too. -/
theorem value_sound (v : Value) {x : Value} {r : List Char} (hl : Ends l) (h : value n (render v ++ l) = some (x, r))
    (hx : x.skeleton = v.skeleton) : x = v ∧ v.Plain ∧ r = l := by
  induction v using Value.induction generalizing n l x r with
  | null =>
    obtain ⟨n, rfl⟩ := exists_of_value h
    obtain ⟨rfl, rfl⟩ : .null = x ∧ l = r := by simpa [render, value, skipBlanks, isBlank, word] using h
    exact ⟨rfl, by simp [Value.Plain], rfl⟩
  | bool b =>
    obtain ⟨n, rfl⟩ := exists_of_value h
    obtain ⟨rfl, rfl⟩ : .bool b = x ∧ l = r := by cases b <;> simpa [render, value, skipBlanks, isBlank, word] using h
    exact ⟨rfl, by simp [Value.Plain], rfl⟩
  | num m e =>
    obtain ⟨n, rfl⟩ := exists_of_value h
    rw [render, List.append_assoc, value_num n m e hl] at h
    cases h
    exact ⟨rfl, by simp [Value.Plain], rfl⟩
  | str s =>
    obtain ⟨n, rfl⟩ := exists_of_value h
    rw [render, List.cons_append, value_str, List.append_assoc, List.singleton_append] at h
    obtain ⟨⟨w, r'⟩, hw, heq⟩ := Option.map_eq_some_iff.mp h
    cases heq
    simp only [Value.skeleton, Value.str.injEq] at hx
    obtain rfl := toList_ofList_iff.mp hx
    obtain ⟨hplain, rfl⟩ := string_sound hw
    refine ⟨by rw [String.ofList_toList], ?_, rfl⟩
    simpa only [Value.Plain, PlainText] using hplain
  | arr vs ih =>
    obtain ⟨n, rfl⟩ := exists_of_value h
    rw [render, List.cons_append, value_arr, List.append_assoc, List.singleton_append] at h
    obtain ⟨⟨ys, r'⟩, hys, heq⟩ := Option.map_eq_some_iff.mp h
    cases heq
    simp only [Value.skeleton, Value.arr.injEq] at hx
    obtain ⟨rfl, hplain, rfl⟩ := anyItems_sound (.inl rfl) Value.skeleton (fun v _ => opens_render v)
      (fun v hv y l r hl hy hsk => ih v hv hl hy hsk) hys hx
    refine ⟨rfl, ?_, rfl⟩
    simpa only [Value.Plain] using hplain
  | obj kvs ih =>
    obtain ⟨n, rfl⟩ := exists_of_value h
    rw [render, List.cons_append, value_obj, List.append_assoc, List.singleton_append] at h
    obtain ⟨⟨ys, r'⟩, hys, heq⟩ := Option.map_eq_some_iff.mp h
    cases heq
    simp only [Value.skeleton, Value.obj.injEq] at hx
    have hmember : ∀ kv ∈ kvs, ∀ kv' l r, Ends l → member (value n) (memberText kv.1 (render kv.2) ++ l) = some (kv', r) →
        (kv'.1, kv'.2.skeleton) = (kv.1, kv.2.skeleton) → kv' = kv ∧ (PlainText kv.1 ∧ kv.2.Plain) ∧ r = l := by
      rintro ⟨k, v⟩ hkv ⟨k', v'⟩ l r hl hy hsk
      obtain ⟨hk, hskv⟩ := Prod.mk.inj hsk
      obtain ⟨hplain, hv⟩ := member_sound hy hk
      obtain ⟨rfl, hvplain, rfl⟩ := ih _ hkv hl hv hskv
      exact ⟨Prod.ext hk rfl, ⟨hplain, hvplain⟩, rfl⟩
    obtain ⟨rfl, hplain, rfl⟩ := anyItems_sound (.inr rfl) (fun kv => (kv.1, kv.2.skeleton)) (fun kv _ => opens_memberText kv.1 _)
      hmember hys hx
    refine ⟨rfl, ?_, rfl⟩
    simpa only [Value.Plain] using hplain

end Values

/-! ## Values that cannot be read -/

/-- No value begins with a brace that closes. -/
theorem value_brace (n : Nat) : value n ['\x7d'] = none := by
  cases n with
  | zero => rfl
  | succ n => rfl

/-- Items of which the second cannot be read cannot be read. -/
theorem items_none {α : Type} {p : Reader α} {close : Char} {x : α} {l l' : List Char} (h : p l = some (x, ',' :: l')) (h' : p l' = none)
    (n : Nat) : items p close n l = none := by
  cases n with
  | zero => rfl
  | succ n =>
    have hrest : items p close n l' = none := by
      cases n with
      | zero => rfl
      | succ n => simp [items, h']
    simp [items, h, goesOn_comma, hrest]

/-- A member whose value cannot be read cannot be read. -/
theorem member_none {p : Reader Value} {k : String} (hk : PlainText k) {t l : List Char} (hv : p (t ++ l) = none) :
    member p (memberText k t ++ l) = none := by
  have hkey := string_complete (n := (k.toList ++ '"' :: ':' :: (t ++ l)).length + 1) hk
    (by simp only [List.length_append, List.length_cons]; omega) (':' :: (t ++ l))
  simp only [memberText, List.cons_append, List.append_assoc, member, skipBlanks_cons (c := '"') rfl, hkey, Option.bind_eq_bind,
    Option.bind_some, skipBlanks_cons (c := ':') rfl, hv, Option.bind_none]

/-! ## Whole texts -/

/-- A text that was written without escapes is read as what was written, or, all but for its numbers, as something like it, exactly where no
character needed an escape. -/
theorem decode_render_iff (text : String) (v x : Value) (htext : text.toList = render v) (hx : x.skeleton = v.skeleton) :
    decode text = some x ↔ v.Plain ∧ x = v := by
  simp only [decode, htext, Option.bind_eq_bind, Option.bind_eq_some_iff]
  have hends : Ends [] := by
    rintro c ⟨⟩
  constructor
  · rintro ⟨⟨y, r⟩, hy, h⟩
    split at h
    · obtain rfl := Option.some.inj h
      obtain ⟨rfl, hplain, -⟩ := value_sound (l := []) v hends (by simpa using hy) hx
      exact ⟨hplain, rfl⟩
    · cases h
  · rintro ⟨hplain, rfl⟩
    have hvalue := value_complete (n := (render x).length) (l := []) x hplain (by omega) hends
    rw [List.append_nil] at hvalue
    exact ⟨(x, []), hvalue, rfl⟩

end JsonText
