import RelayCat.Go.Utf8
import Mathlib.Tactic.Ring

/-!
# Times in RFC 3339 format

`time.Time` in UTC as its JSON encoding writes it, and the check with which its JSON decoding
starts. A text that this check refuses is handed to the general parser of the standard
library, which is a parameter: texts that were written here never get there.
-/

namespace RelayCat.Go

def isLeap (year : ℕ) : Bool := year % 4 == 0 && (year % 100 != 0 || year % 400 == 0)

def daysIn (month year : ℕ) : ℕ :=
  if month = 2 then (if isLeap year then 29 else 28)
  else if month = 4 ∨ month = 6 ∨ month = 9 ∨ month = 11 then 30
  else 31

/-- An instant in UTC whose year has four digits. -/
structure Time where
  year : ℕ
  month : ℕ
  day : ℕ
  hour : ℕ
  minute : ℕ
  second : ℕ
  nanosecond : ℕ
  year_le : year ≤ 9999
  month_range : 1 ≤ month ∧ month ≤ 12
  day_range : 1 ≤ day ∧ day ≤ daysIn month year
  hour_lt : hour < 24
  minute_lt : minute < 60
  second_lt : second < 60
  nanosecond_lt : nanosecond < 10 ^ 9
  deriving DecidableEq, Repr

namespace Time

/-- The last `width` decimal digits. -/
def pad : ℕ → ℕ → Bytes
  | 0, _ => []
  | width + 1, n => pad width (n / 10) ++ [UInt8.ofNat (0x30 + n % 10)]

/-- The fraction of a second without trailing zeros. -/
def fraction (nanosecond : ℕ) : Bytes :=
  if nanosecond = 0 then [] else 0x2e :: (pad 9 nanosecond).rdropWhile (· == 0x30)

/-- `RFC3339Nano` in UTC. -/
def format (t : Time) : Bytes :=
  pad 4 t.year ++ 0x2d :: pad 2 t.month ++ 0x2d :: pad 2 t.day ++ 0x54 :: pad 2 t.hour ++
    0x3a :: pad 2 t.minute ++ 0x3a :: pad 2 t.second ++ (fraction t.nanosecond ++ [0x5a])

def isDigit (c : UInt8) : Bool := 0x30 ≤ c && c ≤ 0x39

def digits : ℕ → Bytes → Option ℕ
  | x, [] => some x
  | x, c :: rest => if isDigit c then digits (x * 10 + (c.toNat - 0x30)) rest else none

/-- A decimal number in a range. -/
def parseUint (s : Bytes) (min max : ℕ) : Option ℕ :=
  (digits 0 s).filter fun x ↦ min ≤ x ∧ x ≤ max

/-- The zone: `Z`, or an offset of hours and minutes. -/
def parseZone (s : Bytes) : Bool :=
  s == [0x5a] ||
    (s.length == 6 && (parseUint ((s.drop 1).take 2) 0 23).isSome &&
      (parseUint ((s.drop 4).take 2) 0 59).isSome &&
      (s[0]? == some 0x2d || s[0]? == some 0x2b) && s[3]? == some 0x3a)

/-- What follows the seconds. -/
def skipFraction (s : Bytes) : Bytes :=
  match s with
  | dot :: digit :: rest =>
    if dot = 0x2e ∧ isDigit digit then (digit :: rest).dropWhile isDigit else s
  | _ => s

/-- `parseRFC3339`, as whether it succeeds. -/
def parseRFC3339 (s : Bytes) : Bool :=
  match parseUint (s.take 4) 0 9999, parseUint ((s.drop 5).take 2) 1 12 with
  | some year, some month =>
    19 ≤ s.length && (parseUint ((s.drop 8).take 2) 1 (daysIn month year)).isSome &&
      (parseUint ((s.drop 11).take 2) 0 23).isSome &&
      (parseUint ((s.drop 14).take 2) 0 59).isSome &&
      (parseUint ((s.drop 17).take 2) 0 59).isSome &&
      s[4]? == some 0x2d && s[7]? == some 0x2d && s[10]? == some 0x54 && s[13]? == some 0x3a &&
      s[16]? == some 0x3a && parseZone (skipFraction (s.drop 19))
  | _, _ => false

/-- `Time.UnmarshalJSON`, as whether it succeeds on the text of a value; `parse` is
`time.Parse` with the RFC 3339 layout. -/
def unmarshalJSON (parse : Bytes → Bool) (data : Bytes) : Bool :=
  data == Utf8.literal "null" ||
    (2 ≤ data.length && data.head? == some 0x22 && data.getLast? == some 0x22 &&
      (parseRFC3339 (data.drop 1).dropLast || parse (data.drop 1).dropLast))

section Format

theorem digits_append (x : ℕ) (as bs : Bytes) :
    digits x (as ++ bs) = (digits x as).bind fun y ↦ digits y bs := by
  induction as generalizing x with
  | nil => rfl
  | cons c as ih =>
    simp only [List.cons_append, digits]
    split_ifs
    · exact ih _
    · rfl

theorem isDigit_ofNat : ∀ d < 10, isDigit (UInt8.ofNat (0x30 + d)) = true := by decide

theorem toNat_ofNat_digit : ∀ d < 10, (UInt8.ofNat (0x30 + d)).toNat - 0x30 = d := by decide

@[simp] theorem length_pad (width n : ℕ) : (pad width n).length = width := by
  induction width generalizing n with
  | zero => rfl
  | succ width ih => simp [pad, ih]

theorem isDigit_of_mem_pad {width n : ℕ} {c : UInt8} (h : c ∈ pad width n) : isDigit c = true := by
  induction width generalizing n with
  | zero => simp [pad] at h
  | succ width ih =>
    simp only [pad, List.mem_append, List.mem_singleton] at h
    rcases h with h | rfl
    · exact ih h
    · exact isDigit_ofNat _ (Nat.mod_lt n (by decide))

theorem digits_pad (width x n : ℕ) :
    digits x (pad width n) = some (x * 10 ^ width + n % 10 ^ width) := by
  induction width generalizing n with
  | zero => simp [pad, digits, Nat.mod_one]
  | succ width ih =>
    have hlast := Nat.mod_lt n (show 0 < 10 by decide)
    rw [pad, digits_append, ih, Option.bind_some, digits, isDigit_ofNat _ hlast, if_pos rfl,
      toNat_ofNat_digit _ hlast, digits, Nat.pow_succ', Nat.mod_mul]
    congr 1
    ring

theorem parseUint_pad (width : ℕ) {n min max : ℕ} (hn : n < 10 ^ width) (hmin : min ≤ n)
    (hmax : n ≤ max) : parseUint (pad width n) min max = some n := by
  rw [parseUint, digits_pad, Nat.mod_eq_of_lt hn]
  simp [hmin, hmax]

theorem daysIn_le (month year : ℕ) : daysIn month year ≤ 31 := by
  unfold daysIn
  split_ifs <;> decide

theorem digits_zeros {bs : Bytes} (h : ∀ c ∈ bs, c = 0x30) : digits 0 bs = some 0 := by
  induction bs with
  | nil => rfl
  | cons c bs ih =>
    have hc : c = 0x30 := h c List.mem_cons_self
    subst hc
    exact ih fun c hc ↦ h c (List.mem_cons_of_mem _ hc)

/-- A fraction that is written has a digit. -/
theorem fraction_ne_nil {n : ℕ} (hpos : n ≠ 0) (hlt : n < 10 ^ 9) :
    (pad 9 n).rdropWhile (· == 0x30) ≠ [] := by
  intro h
  have hzeros : ∀ c ∈ pad 9 n, c = 0x30 := by
    intro c hc
    simpa using List.rdropWhile_eq_nil_iff.mp h c hc
  have hzero := digits_zeros hzeros
  rw [digits_pad, Nat.mod_eq_of_lt hlt] at hzero
  exact hpos (by simpa using hzero)

theorem skipFraction_fraction {n : ℕ} (hlt : n < 10 ^ 9) :
    skipFraction (fraction n ++ [0x5a]) = [0x5a] := by
  unfold fraction
  split_ifs with hzero
  · rfl
  · have hdigits : ∀ c ∈ (pad 9 n).rdropWhile (· == 0x30), isDigit c = true := fun c hc ↦
      isDigit_of_mem_pad ((List.rdropWhile_prefix _ _).subset hc)
    cases hfraction : (pad 9 n).rdropWhile (· == 0x30) with
    | nil => exact absurd hfraction (fraction_ne_nil hzero hlt)
    | cons c rest =>
      rw [hfraction] at hdigits
      have hc : isDigit c = true := hdigits c List.mem_cons_self
      simp only [skipFraction, List.cons_append, hc, and_self, if_true]
      rw [← List.cons_append, List.dropWhile_append_of_pos hdigits]
      rfl

/-- What was written is accepted. -/
theorem parseRFC3339_format (t : Time) : parseRFC3339 (format t) = true := by
  have hyear : parseUint ((format t).take 4) 0 9999 = some t.year :=
    parseUint_pad 4 (Nat.lt_succ_of_le t.year_le) (Nat.zero_le _) t.year_le
  have hmonth : parseUint (((format t).drop 5).take 2) 1 12 = some t.month :=
    parseUint_pad 2 (t.month_range.2.trans_lt (by decide)) t.month_range.1 t.month_range.2
  have hday : parseUint (((format t).drop 8).take 2) 1 (daysIn t.month t.year) = some t.day :=
    parseUint_pad 2 ((t.day_range.2.trans (daysIn_le _ _)).trans_lt (by decide)) t.day_range.1
      t.day_range.2
  have hhour : parseUint (((format t).drop 11).take 2) 0 23 = some t.hour :=
    parseUint_pad 2 (t.hour_lt.trans (by decide)) (Nat.zero_le _) (Nat.le_of_lt_succ t.hour_lt)
  have hminute : parseUint (((format t).drop 14).take 2) 0 59 = some t.minute :=
    parseUint_pad 2 (t.minute_lt.trans (by decide)) (Nat.zero_le _) (Nat.le_of_lt_succ t.minute_lt)
  have hsecond : parseUint (((format t).drop 17).take 2) 0 59 = some t.second :=
    parseUint_pad 2 (t.second_lt.trans (by decide)) (Nat.zero_le _) (Nat.le_of_lt_succ t.second_lt)
  have hlength : 19 ≤ (format t).length := by
    simp only [format, List.length_append, List.length_cons, length_pad]
    omega
  have hrest : skipFraction ((format t).drop 19) = [0x5a] :=
    skipFraction_fraction t.nanosecond_lt
  have hmarks : (format t)[4]? = some 0x2d ∧ (format t)[7]? = some 0x2d ∧
      (format t)[10]? = some 0x54 ∧ (format t)[13]? = some 0x3a ∧ (format t)[16]? = some 0x3a :=
    ⟨rfl, rfl, rfl, rfl, rfl⟩
  obtain ⟨h4, h7, h10, h13, h16⟩ := hmarks
  unfold parseRFC3339
  rw [hyear, hmonth]
  simp [hday, hhour, hminute, hsecond, hlength, hrest, h4, h7, h10, h13, h16, parseZone]

/-- A written time has no byte that a JSON string escapes. -/
theorem plain_of_mem_format {t : Time} {c : UInt8} (h : c ∈ format t) :
    isDigit c = true ∨ c ∈ [0x2d, 0x54, 0x3a, 0x2e, 0x5a] := by
  have hpad {width n : ℕ} (hc : c ∈ pad width n) : isDigit c = true := isDigit_of_mem_pad hc
  have hfraction : c ∈ fraction t.nanosecond → isDigit c = true ∨ c = 0x2e := by
    intro hc
    unfold fraction at hc
    split_ifs at hc
    · cases hc
    · rcases List.mem_cons.mp hc with rfl | hc
      · exact Or.inr rfl
      · exact Or.inl (hpad ((List.rdropWhile_prefix _ _).subset hc))
  simp only [format, List.mem_append, List.mem_cons, List.not_mem_nil, or_false] at h ⊢
  grind

end Format

end Time

end RelayCat.Go
