import RelayCat.Go.Utf8

/-!
# JSON strings as `encoding/json` writes and reads them

Writing escapes control characters, quotes, backslashes, the characters that matter in HTML
and the two Unicode line separators, and replaces every byte outside a character by the escape
of `utf8.RuneError`. Reading undoes the escapes, with surrogate pairs, and coerces to valid
UTF-8. Reading what was written therefore gives the string with its invalid bytes replaced.
-/

namespace RelayCat.Json

open Go Utf8

def quoteMark : UInt8 := 0x22

def backslash : UInt8 := 0x5c

def hexDigit (n : ℕ) : UInt8 := (literal "0123456789abcdef").getD n 0

/-- The escape of a code unit. -/
def unicodeEscape (n : ℕ) : Bytes :=
  [backslash, 0x75, hexDigit (n / 4096 % 16), hexDigit (n / 256 % 16), hexDigit (n / 16 % 16),
    hexDigit (n % 16)]

/-- The letters of the short escapes with the bytes they stand for. -/
def shortEscapes : List (UInt8 × UInt8) :=
  [(0x62, 0x08), (0x66, 0x0c), (0x6e, 0x0a), (0x72, 0x0d), (0x74, 0x09)]

def escapeAscii (b : UInt8) : Bytes :=
  if b = backslash ∨ b = quoteMark then [backslash, b]
  else
    match shortEscapes.find? (fun e ↦ e.2 == b) with
    | some e => [backslash, e.1]
    | none =>
      if b < 0x20 ∨ b = 0x3c ∨ b = 0x3e ∨ b = 0x26 then unicodeEscape b.toNat else [b]

/-- What `appendString` writes for one segment of a string. -/
def escape : Segment → Bytes
  | .char c =>
    if c.val ≤ 127 then escapeAscii c.toUInt8
    else if c.toNat = 0x2028 ∨ c.toNat = 0x2029 then unicodeEscape c.toNat
    else String.utf8EncodeChar c
  | .bad _ => unicodeEscape 0xfffd

/-- The text between the quotes. -/
def escapeString (s : Bytes) : Bytes := (segments s).flatMap escape

/-- `appendString` with HTML escaping. -/
def appendString (s : Bytes) : Bytes := quoteMark :: escapeString s ++ [quoteMark]

def hexValue (b : UInt8) : Option ℕ :=
  if 0x30 ≤ b ∧ b ≤ 0x39 then some (b.toNat - 0x30)
  else if 0x61 ≤ b ∧ b ≤ 0x66 then some (b.toNat - 0x61 + 10)
  else if 0x41 ≤ b ∧ b ≤ 0x46 then some (b.toNat - 0x41 + 10)
  else none

/-- `getu4`: the code unit of an escape at the start of the text. -/
def getu4 : Bytes → Option ℕ
  | a :: u :: w :: x :: y :: z :: _ =>
    if a = backslash ∧ u = 0x75 then
      match hexValue w, hexValue x, hexValue y, hexValue z with
      | some w, some x, some y, some z => some (((w * 16 + x) * 16 + y) * 16 + z)
      | _, _, _, _ => none
    else none
  | _ => none

/-- `utf16.DecodeRune`, with `none` for two units that are no surrogate pair. -/
def decodePair (r1 r2 : ℕ) : Option Char :=
  if 0xd800 ≤ r1 ∧ r1 < 0xdc00 ∧ 0xdc00 ≤ r2 ∧ r2 < 0xe000 then
    some (Char.ofNat ((r1 - 0xd800) * 1024 + (r2 - 0xdc00) + 0x10000))
  else none

/-- The rune of an escaped code unit and the width of the text it is taken from. -/
def escapedRune (bs : Bytes) (r : ℕ) : Char × ℕ :=
  if 0xd800 ≤ r ∧ r < 0xe000 then
    match (getu4 (bs.drop 6)).bind (decodePair r) with
    | some c => (c, 12)
    | none => (runeError, 6)
  else (Char.ofNat r, 6)

/-- The first rune of the text between quotes, with its width. -/
def firstRune : Bytes → Option (Char × ℕ)
  | [] => none
  | b :: rest =>
    if b = backslash then
      match rest with
      | [] => none
      | e :: _ =>
        if e = quoteMark ∨ e = backslash ∨ e = 0x2f ∨ e = 0x27 then some (Char.ofUInt8 e, 2)
        else
          match shortEscapes.find? (fun s ↦ s.1 == e) with
          | some s => some (Char.ofUInt8 s.2, 2)
          | none => (getu4 (b :: rest)).map (escapedRune (b :: rest))
    else if b = quoteMark ∨ b < 0x20 then none
    else
      match decodeChar (b :: rest) with
      | some c => some (c, c.utf8Size)
      | none => some (runeError, 1)

/-- The runes of the text between quotes, after `skip` bytes of it. -/
def unquoteFrom : ℕ → Bytes → Option (List Char)
  | _, [] => some []
  | skip + 1, _ :: rest => unquoteFrom skip rest
  | 0, b :: rest =>
    match firstRune (b :: rest) with
    | none => none
    | some (c, width) => (unquoteFrom (width - 1) rest).map (c :: ·)

/-- `unquoteBytes`, for the text between the quotes. -/
def unquote (bs : Bytes) : Option Bytes := (unquoteFrom 0 bs).map encode

section Rune

theorem hexValue_hexDigit : ∀ n < 16, hexValue (hexDigit n) = some n := by decide +kernel

theorem getu4_unicodeEscape {n : ℕ} (h : n < 65536) (rest : Bytes) :
    getu4 (unicodeEscape n ++ rest) = some n := by
  have hlt (k : ℕ) : k % 16 < 16 := Nat.mod_lt k (by decide)
  have hsum : ((n / 4096 % 16 * 16 + n / 256 % 16) * 16 + n / 16 % 16) * 16 + n % 16 = n := by
    omega
  simp only [unicodeEscape, List.cons_append, getu4, and_self, if_true,
    hexValue_hexDigit _ (hlt _), hsum]

theorem firstRune_unicodeEscape {n : ℕ} (h : n < 0xd800 ∨ 0xe000 ≤ n ∧ n < 65536) (rest : Bytes) :
    firstRune (unicodeEscape n ++ rest) = some (Char.ofNat n, (unicodeEscape n).length) := by
  have hget := getu4_unicodeEscape (n := n) (by omega) rest
  have hsurrogate : ¬ (0xd800 ≤ n ∧ n < 0xe000) := by omega
  simp only [unicodeEscape, List.cons_append] at hget ⊢
  have hletter : shortEscapes.find? (fun s ↦ s.1 == (0x75 : UInt8)) = none := by decide
  have hspecial : ¬ ((0x75 : UInt8) = quoteMark ∨ (0x75 : UInt8) = backslash ∨
      (0x75 : UInt8) = 0x2f ∨ (0x75 : UInt8) = 0x27) := by decide
  simp only [firstRune, if_true, hspecial, if_false, hletter, hget, Option.map_some, escapedRune,
    hsurrogate]
  rfl

/-- A byte that is written as it is. -/
theorem firstRune_plain {b : UInt8} (hbackslash : b ≠ backslash) (hquote : b ≠ quoteMark)
    (hcontrol : ¬ b < 0x20) {c : Char} {tail rest : Bytes}
    (h : b :: tail = String.utf8EncodeChar c) :
    firstRune (b :: tail ++ rest) = some (c, (b :: tail).length) := by
  have hdecode := decodeChar_encodeChar_append c rest
  rw [← h] at hdecode
  have hlength : (b :: tail).length = c.utf8Size := by rw [h, String.length_utf8EncodeChar]
  simp only [List.cons_append] at hdecode ⊢
  simp only [firstRune, hbackslash, hquote, hcontrol, or_self, if_false, hdecode, hlength]

/-- A short escape is read back by its letter. -/
theorem shortEscapes_letter : ∀ e ∈ shortEscapes,
    shortEscapes.find? (fun s ↦ s.1 == e.1) = some e ∧
      ¬ (e.1 = quoteMark ∨ e.1 = backslash ∨ e.1 = 0x2f ∨ e.1 = 0x27) := by
  intro e he
  simp only [shortEscapes, List.mem_cons, List.not_mem_nil, or_false] at he
  rcases he with rfl | rfl | rfl | rfl | rfl <;> decide

theorem firstRune_escapeAscii {c : Char} (h : c.val ≤ 127) (rest : Bytes) :
    firstRune (escapeAscii c.toUInt8 ++ rest) = some (c, (escapeAscii c.toUInt8).length) := by
  have hchar := ofUInt8_toUInt8 h
  unfold escapeAscii
  by_cases hspecial : c.toUInt8 = backslash ∨ c.toUInt8 = quoteMark
  · simp only [if_pos hspecial]
    have hread : c.toUInt8 = quoteMark ∨ c.toUInt8 = backslash ∨ c.toUInt8 = 0x2f ∨
        c.toUInt8 = 0x27 := by
      rcases hspecial with hb | hb
      · exact Or.inr (Or.inl hb)
      · exact Or.inl hb
    simp [firstRune, hread, hchar]
  · simp only [if_neg hspecial]
    cases hfind : shortEscapes.find? (fun e ↦ e.2 == c.toUInt8) with
    | some e =>
      obtain ⟨hletter, hnot⟩ := shortEscapes_letter e (List.mem_of_find?_eq_some hfind)
      have hbyte : e.2 = c.toUInt8 := by simpa using List.find?_some hfind
      simp [firstRune, hnot, hletter, hbyte, hchar]
    | none =>
      simp only
      split_ifs with hhtml
      · have hrange : c.toUInt8.toNat < 0xd800 ∨
            0xe000 ≤ c.toUInt8.toNat ∧ c.toUInt8.toNat < 65536 :=
          Or.inl (c.toUInt8.toNat_lt.trans (by decide))
        rw [firstRune_unicodeEscape hrange, toNat_toUInt8 h, Char.ofNat_toNat]
      · obtain ⟨hbackslash, hquote⟩ := not_or.mp hspecial
        have hcontrol : ¬ c.toUInt8 < 0x20 := fun hlt ↦ hhtml (Or.inl hlt)
        exact firstRune_plain hbackslash hquote hcontrol (encodeChar_ascii h).symm

/-- Reading the first segment that was written. -/
theorem firstRune_escape (segment : Segment) (rest : Bytes) :
    firstRune (escape segment ++ rest) = some (segment.rune, (escape segment).length) := by
  cases segment with
  | bad b => exact firstRune_unicodeEscape (Or.inr (by decide)) rest
  | char c =>
    simp only [escape]
    split_ifs with hascii hline
    · exact firstRune_escapeAscii hascii rest
    · have hrange : c.toNat < 0xd800 ∨ 0xe000 ≤ c.toNat ∧ c.toNat < 65536 := by omega
      rw [firstRune_unicodeEscape hrange, Char.ofNat_toNat]
      rfl
    · have hge {b : UInt8} (hb : b ∈ String.utf8EncodeChar c) : 128 ≤ b.toNat :=
        le_of_mem_encodeChar (UInt32.not_le.mp hascii) hb
      cases hbytes : String.utf8EncodeChar c with
      | nil =>
        have hlength := String.length_utf8EncodeChar c
        have hpos := c.utf8Size_pos
        simp [hbytes] at hlength
        omega
      | cons b tail =>
        have hb : 128 ≤ b.toNat := hge (by simp [hbytes])
        refine firstRune_plain ?_ ?_ ?_ hbytes.symm
        · rintro rfl
          exact absurd hb (by decide)
        · rintro rfl
          exact absurd hb (by decide)
        · intro hlt
          have hlt : b.toNat < 32 := hlt
          omega

end Rune

section Unquote

theorem unquoteFrom_eq (n : ℕ) (bs : Bytes) : unquoteFrom n bs = unquoteFrom 0 (bs.drop n) := by
  induction bs generalizing n with
  | nil => cases n <;> rfl
  | cons b rest ih =>
    cases n with
    | zero => rfl
    | succ n => exact ih n

theorem escape_ne_nil (segment : Segment) : escape segment ≠ [] := by
  intro h
  have hfirst := firstRune_escape segment []
  simp [h, firstRune] at hfirst

theorem unquoteFrom_escape (segment : Segment) (rest : Bytes) :
    unquoteFrom 0 (escape segment ++ rest) = (unquoteFrom 0 rest).map (segment.rune :: ·) := by
  have hfirst := firstRune_escape segment rest
  cases htext : escape segment with
  | nil => exact absurd htext (escape_ne_nil segment)
  | cons b tail =>
    rw [htext, List.cons_append] at hfirst
    rw [List.cons_append, unquoteFrom, hfirst]
    simp only [List.length_cons, Nat.add_sub_cancel]
    rw [unquoteFrom_eq, List.drop_left]

theorem unquoteFrom_flatMap_escape (segs : List Segment) :
    unquoteFrom 0 (segs.flatMap escape) = some (segs.map Segment.rune) := by
  induction segs with
  | nil => rfl
  | cons segment segs ih => rw [List.flatMap_cons, unquoteFrom_escape, ih]; rfl

/-- Reading back a written string replaces the bytes outside characters. -/
@[simp] theorem unquote_escapeString (s : Bytes) :
    unquote (escapeString s) = some (sanitize s) := by
  rw [unquote, escapeString, unquoteFrom_flatMap_escape]
  rfl

end Unquote

end RelayCat.Json
