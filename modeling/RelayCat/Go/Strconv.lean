import RelayCat.Go.Utf8
import Mathlib.Data.Nat.Digits.Lemmas

/-!
# Booleans and integers as text

`strconv.ParseBool` and `strconv.ParseInt` with base 0, which takes the base from the beginning
of the text and allows underscores between digits, and the texts that `fmt.Sprint` prints.
-/

namespace RelayCat.Go.Strconv

open Utf8

def parseBool (s : Bytes) : Option Bool :=
  if s ∈ ["1", "t", "T", "true", "TRUE", "True"].map literal then some true
  else if s ∈ ["0", "f", "F", "false", "FALSE", "False"].map literal then some false
  else none

def formatBool (b : Bool) : Bytes := literal (if b then "true" else "false")

theorem parseBool_formatBool (b : Bool) : parseBool (formatBool b) = some b := by
  cases b
  · decide +kernel
  · decide +kernel

section Digits

def lower (c : UInt8) : ℕ := c.toNat ||| 0x20

def digitValue (c : UInt8) : Option ℕ :=
  if 0x30 ≤ c.toNat ∧ c.toNat ≤ 0x39 then some (c.toNat - 0x30)
  else if 0x61 ≤ lower c ∧ lower c ≤ 0x7a then some (lower c - 0x61 + 10)
  else none

def underscore : UInt8 := 0x5f
def minus : UInt8 := 0x2d
def plus : UInt8 := 0x2b

/-- The number that the digits of a text add to `acc`. -/
def parseDigits (base : ℕ) : ℕ → Bytes → Option ℕ
  | acc, [] => some acc
  | acc, c :: rest =>
    if c = underscore then parseDigits base acc rest
    else (digitValue c).bind fun d ↦ if d < base then parseDigits base (acc * base + d) rest else none

/-- The base that a text asks for, and the text behind it. -/
def basePrefixed : Bytes → ℕ × Bytes
  | 0x30 :: c :: d :: rest =>
    if lower c = 0x62 then (2, d :: rest)
    else if lower c = 0x6f then (8, d :: rest)
    else if lower c = 0x78 then (16, d :: rest)
    else (8, c :: d :: rest)
  | 0x30 :: rest => (8, rest)
  | s => (10, s)

inductive Seen where
  | start
  | digit
  | underscore
  | other
  deriving DecidableEq, Repr

/-- Underscores stand between digits. -/
def separated (hex : Bool) : Seen → Bytes → Bool
  | seen, [] => seen != .underscore
  | seen, c :: rest =>
    if (0x30 ≤ c.toNat ∧ c.toNat ≤ 0x39) ∨ (hex ∧ 0x61 ≤ lower c ∧ lower c ≤ 0x66) then
      separated hex .digit rest
    else if c = Strconv.underscore then seen == .digit && separated hex .underscore rest
    else seen != .underscore && separated hex .other rest

def underscoreOK : Bytes → Bool
  | 0x30 :: c :: rest =>
    if lower c = 0x62 ∨ lower c = 0x6f ∨ lower c = 0x78 then
      separated (lower c == 0x78) .digit rest
    else separated false .start (0x30 :: c :: rest)
  | s => separated false .start s

/-- `strconv.ParseUint(s, 0, 64)`. -/
def parseUint (s : Bytes) : Option ℕ :=
  if s = [] then none
  else
    ((parseDigits (basePrefixed s).1 0 (basePrefixed s).2).filter fun n ↦ n < 2 ^ 64).filter
      fun _ ↦ underscore ∉ (basePrefixed s).2 || underscoreOK s

/-- `strconv.ParseInt(s, 0, 64)`. -/
def parseInt : Bytes → Option ℤ
  | [] => none
  | c :: rest =>
    if c = minus then ((parseUint rest).filter fun n ↦ n ≤ 2 ^ 63).map fun n : ℕ ↦ -(n : ℤ)
    else
      ((parseUint (if c = plus then rest else c :: rest)).filter fun n ↦ n < 2 ^ 63).map
        fun n : ℕ ↦ (n : ℤ)

/-- The decimal digits of a number. -/
def formatUint (n : ℕ) : Bytes :=
  if n = 0 then [0x30] else (Nat.digits 10 n).reverse.map fun d ↦ UInt8.ofNat (0x30 + d)

def formatInt (n : ℤ) : Bytes :=
  if n < 0 then minus :: formatUint n.natAbs else formatUint n.natAbs

variable {n d : ℕ}

theorem digitValue_digit (h : d < 10) : digitValue (UInt8.ofNat (0x30 + d)) = some d := by
  have hall : ∀ k : Fin 10, digitValue (UInt8.ofNat (0x30 + k)) = some k.val := by decide
  exact hall ⟨d, h⟩

theorem digit_ne (h : d < 10) : UInt8.ofNat (0x30 + d) ≠ underscore ∧
    UInt8.ofNat (0x30 + d) ≠ minus ∧ UInt8.ofNat (0x30 + d) ≠ plus ∧
      (d ≠ 0 → UInt8.ofNat (0x30 + d) ≠ 0x30) := by
  have hall : ∀ k : Fin 10, UInt8.ofNat (0x30 + k) ≠ underscore ∧
      UInt8.ofNat (0x30 + k) ≠ minus ∧ UInt8.ofNat (0x30 + k) ≠ plus ∧
        (k.val ≠ 0 → UInt8.ofNat (0x30 + k) ≠ 0x30) := by decide
  exact hall ⟨d, h⟩

theorem parseDigits_map {ds : List ℕ} (h : ∀ d ∈ ds, d < 10) (acc : ℕ) :
    parseDigits 10 acc (ds.map fun d ↦ UInt8.ofNat (0x30 + d)) =
      some (ds.foldl (fun acc d ↦ acc * 10 + d) acc) := by
  induction ds generalizing acc with
  | nil => rfl
  | cons d ds ih =>
    have hd := h d List.mem_cons_self
    rw [List.map_cons, parseDigits, if_neg (digit_ne hd).1, digitValue_digit hd, Option.bind_some,
      if_pos hd, ih fun d' hd' ↦ h d' (List.mem_cons_of_mem d hd'), List.foldl_cons]

theorem basePrefixed_of_ne {c : UInt8} (h : c ≠ 0x30) (rest : Bytes) :
    basePrefixed (c :: rest) = (10, c :: rest) := by
  unfold basePrefixed
  split
  · rename_i heq
    exact absurd (List.cons_eq_cons.mp heq).1 h
  · rename_i heq
    exact absurd (List.cons_eq_cons.mp heq).1 h
  · rfl

/-- The digits of a positive number: a first one that is not zero, and others. -/
theorem formatUint_eq (hn : n ≠ 0) :
    ∃ d ds, d < 10 ∧ d ≠ 0 ∧ (∀ e ∈ ds, e < 10) ∧
      (d :: ds).foldl (fun acc e ↦ acc * 10 + e) 0 = n ∧
      formatUint n = (d :: ds).map fun e ↦ UInt8.ofNat (0x30 + e) := by
  have hdigits : (Nat.digits 10 n).reverse ≠ [] := by
    rw [ne_eq, List.reverse_eq_nil_iff]
    exact Nat.digits_ne_nil_iff_ne_zero.mpr hn
  have hlt : ∀ e ∈ (Nat.digits 10 n).reverse, e < 10 := by
    intro e he
    exact Nat.digits_lt_base (by decide) (List.mem_reverse.mp he)
  have hvalue : (Nat.digits 10 n).reverse.foldl (fun acc e ↦ acc * 10 + e) 0 = n := by
    rw [List.foldl_reverse]
    calc (Nat.digits 10 n).foldr (fun e acc ↦ acc * 10 + e) 0
        = (Nat.digits 10 n).foldr (fun e acc ↦ e + 10 * acc) 0 := by
          congr 1
          funext e acc
          omega
      _ = Nat.ofDigits 10 (Nat.digits 10 n) := by
          rw [Nat.ofDigits_eq_foldr]
          rfl
      _ = n := Nat.ofDigits_digits 10 n
  have hlead : ∀ e, (Nat.digits 10 n).reverse.head? = some e → e ≠ 0 := by
    intro e he
    rw [List.head?_reverse,
      List.getLast?_eq_some_getLast (Nat.digits_ne_nil_iff_ne_zero.mpr hn)] at he
    rw [← Option.some.inj he]
    exact Nat.getLast_digit_ne_zero 10 hn
  have hformat : formatUint n =
      (Nat.digits 10 n).reverse.map fun e ↦ UInt8.ofNat (0x30 + e) := if_neg hn
  rw [hformat]
  generalize (Nat.digits 10 n).reverse = ds at hdigits hlt hvalue hlead
  cases ds with
  | nil => exact absurd rfl hdigits
  | cons d ds =>
    rw [List.forall_mem_cons] at hlt
    exact ⟨d, ds, hlt.1, hlead d rfl, hlt.2, hvalue, rfl⟩

theorem parseUint_formatUint (h : n < 2 ^ 64) : parseUint (formatUint n) = some n := by
  by_cases hn : n = 0
  · subst hn
    decide +kernel
  · obtain ⟨d, ds, hd, hzero, hds, hvalue, hformat⟩ := formatUint_eq hn
    have hall : ∀ e ∈ d :: ds, e < 10 := List.forall_mem_cons.mpr ⟨hd, hds⟩
    have hunderscore : underscore ∉ (d :: ds).map fun e ↦ UInt8.ofNat (0x30 + e) := by
      intro hmem
      obtain ⟨e, he, heq⟩ := List.mem_map.mp hmem
      exact (digit_ne (hall e he)).1 heq
    have hbase : basePrefixed ((d :: ds).map fun e ↦ UInt8.ofNat (0x30 + e)) =
        (10, (d :: ds).map fun e ↦ UInt8.ofNat (0x30 + e)) :=
      basePrefixed_of_ne ((digit_ne hd).2.2.2 hzero) _
    rw [hformat, parseUint, if_neg (by simp), hbase]
    simp only
    rw [parseDigits_map hall, hvalue, Option.filter_some_pos (by simpa using h),
      Option.filter_some_pos
        (by simp only [hunderscore, not_false_eq_true, decide_true, Bool.true_or])]

theorem formatUint_head (n : ℕ) :
    ∃ c rest, formatUint n = c :: rest ∧ c ≠ minus ∧ c ≠ plus := by
  by_cases hn : n = 0
  · subst hn
    exact ⟨0x30, [], rfl, by decide, by decide⟩
  · obtain ⟨d, ds, hd, -, -, -, hformat⟩ := formatUint_eq hn
    exact ⟨_, _, hformat, (digit_ne hd).2.1, (digit_ne hd).2.2.1⟩

/-- What is printed for an integer of 64 bits is parsed back. -/
theorem parseInt_formatInt {n : ℤ} (hlow : -2 ^ 63 ≤ n) (hhigh : n < 2 ^ 63) :
    parseInt (formatInt n) = some n := by
  have hparse : parseUint (formatUint n.natAbs) = some n.natAbs := by
    apply parseUint_formatUint
    omega
  unfold formatInt
  split_ifs with hneg
  · have hle : n.natAbs ≤ 2 ^ 63 := by omega
    have habs : -(n.natAbs : ℤ) = n := by omega
    rw [parseInt, if_pos rfl, hparse, Option.filter_some_pos (by simpa using hle), Option.map_some,
      habs]
  · obtain ⟨c, rest, hformat, hminus, hplus⟩ := formatUint_head n.natAbs
    have hlt : n.natAbs < 2 ^ 63 := by omega
    have habs : (n.natAbs : ℤ) = n := by omega
    rw [hformat] at hparse ⊢
    rw [parseInt, if_neg hminus, if_neg hplus, hparse, Option.filter_some_pos (by simpa using hlt),
      Option.map_some, habs]

end Digits

end RelayCat.Go.Strconv
