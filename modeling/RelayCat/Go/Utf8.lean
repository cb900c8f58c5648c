import RelayCat.Go.Errors
import Mathlib.Algebra.Group.Nat.Defs
import Mathlib.Data.Bool.AllAny
import Mathlib.Data.List.DropRight

/-!
# Go strings as UTF-8

A Go string is any byte sequence. Iterating over it yields, from left to right, the
characters whose encodings start there, and `utf8.RuneError` of width one at a byte that
starts none. Writing the runes back therefore gives the same bytes exactly when the string
was valid UTF-8. Encoding and decoding of one character are those of the core library.
-/

namespace RelayCat.Go.Utf8

/-- The length of a Go string is an `int`. -/
def lengthLimit : ℕ := 2 ^ 63

/-- `utf8.RuneError`. -/
def runeError : Char := '�'

/-- One step of an iteration over a string: a character, or a byte that starts none. -/
inductive Segment where
  | char (c : Char)
  | bad (b : UInt8)
  deriving DecidableEq, Repr

namespace Segment

/-- The bytes of the string that the step covers. -/
def bytes : Segment → Bytes
  | char c => String.utf8EncodeChar c
  | bad b => [b]

/-- The rune that the step yields. -/
def rune : Segment → Char
  | char c => c
  | bad _ => runeError

end Segment

/-- The character whose encoding the bytes start with. -/
def decodeChar (bs : Bytes) : Option Char := bs.toByteArray.utf8DecodeChar? 0

/-- The segments of a string after `skip` bytes of it. -/
def segmentsFrom : ℕ → Bytes → List Segment
  | _, [] => []
  | skip + 1, _ :: rest => segmentsFrom skip rest
  | 0, b :: rest =>
    match decodeChar (b :: rest) with
    | some c => .char c :: segmentsFrom (c.utf8Size - 1) rest
    | none => .bad b :: segmentsFrom 0 rest

/-- The segments of a string. -/
def segments (bs : Bytes) : List Segment := segmentsFrom 0 bs

/-- The runes of a string, as `range` yields them. -/
def runes (bs : Bytes) : List Char := (segments bs).map Segment.rune

/-- The string of a list of runes. -/
def encode (cs : List Char) : Bytes := cs.flatMap String.utf8EncodeChar

/-- The string with every byte outside a character replaced by `utf8.RuneError`. -/
def sanitize (bs : Bytes) : Bytes := encode (runes bs)

/-- `utf8.ValidString`: the string consists of encoded characters. -/
def Valid (bs : Bytes) : Prop := ∃ cs, encode cs = bs

/-- The bytes of a Go string literal. -/
def literal (s : String) : Bytes := encode s.toList

/-- Rewriting with it turns a literal into its list of characters, which evaluates much faster. -/
theorem literal_ofList (cs : List Char) : literal (String.ofList cs) = encode cs := by
  rw [literal, String.toList_ofList]

section Decode

variable {bs rest : Bytes} {c : Char}

@[simp] theorem decodeChar_encodeChar_append (c : Char) (rest : Bytes) :
    decodeChar (String.utf8EncodeChar c ++ rest) = some c := by
  unfold decodeChar
  rw [List.toByteArray_append]
  exact ByteArray.utf8DecodeChar?_utf8EncodeChar_append

theorem exists_of_decodeChar (h : decodeChar bs = some c) :
    ∃ rest, bs = String.utf8EncodeChar c ++ rest := by
  obtain ⟨l, hl⟩ := ByteArray.exists_of_utf8DecodeChar?_eq_some h
  refine ⟨l.data.toList, ?_⟩
  have hbytes := congrArg (fun b : ByteArray ↦ b.data.toList) hl
  simpa using hbytes

end Decode

section Segments

theorem segmentsFrom_eq (n : ℕ) (bs : Bytes) : segmentsFrom n bs = segments (bs.drop n) := by
  induction bs generalizing n with
  | nil => simp [segments, segmentsFrom]
  | cons b rest ih =>
    cases n with
    | zero => rfl
    | succ n => exact ih n

@[simp] theorem segments_nil : segments [] = [] := rfl

@[simp] theorem segments_encodeChar_append (c : Char) (rest : Bytes) :
    segments (String.utf8EncodeChar c ++ rest) = .char c :: segments rest := by
  have hlength : (String.utf8EncodeChar c).length = c.utf8Size := String.length_utf8EncodeChar c
  have hdecode := decodeChar_encodeChar_append c rest
  cases hbytes : String.utf8EncodeChar c with
  | nil =>
    have hpos := c.utf8Size_pos
    simp [hbytes] at hlength
    omega
  | cons b tail =>
    rw [hbytes] at hdecode hlength
    have htail : c.utf8Size - 1 = tail.length := by simp [← hlength]
    change segmentsFrom 0 (b :: (tail ++ rest)) = _
    rw [segmentsFrom, ← List.cons_append, hdecode]
    change _ :: segmentsFrom (c.utf8Size - 1) (tail ++ rest) = _
    rw [segmentsFrom_eq, htail, List.drop_left]

theorem segments_bad {b : UInt8} {rest : Bytes} (h : decodeChar (b :: rest) = none) :
    segments (b :: rest) = .bad b :: segments rest := by
  change segmentsFrom 0 (b :: rest) = _
  rw [segmentsFrom, h]
  rfl

/-- A string is empty, or starts with a character, or starts with a byte that starts none. -/
@[elab_as_elim] theorem segment_induction {motive : Bytes → Prop} (nil : motive [])
    (char : ∀ c rest, motive rest → motive (String.utf8EncodeChar c ++ rest))
    (bad : ∀ b rest, decodeChar (b :: rest) = none → motive rest → motive (b :: rest))
    (bs : Bytes) : motive bs := by
  induction hn : bs.length using Nat.strongRecOn generalizing bs with
  | ind n ih =>
    subst hn
    cases bs with
    | nil => exact nil
    | cons b tail =>
      cases hdecode : decodeChar (b :: tail) with
      | none => exact bad b tail hdecode (ih _ (by simp) tail rfl)
      | some c =>
        obtain ⟨rest, hrest⟩ := exists_of_decodeChar hdecode
        rw [hrest]
        refine char c rest (ih _ ?_ rest rfl)
        rw [hrest, List.length_append, String.length_utf8EncodeChar]
        exact Nat.lt_add_of_pos_left c.utf8Size_pos

/-- The segments cover the string. -/
@[simp] theorem flatMap_bytes_segments (bs : Bytes) :
    (segments bs).flatMap Segment.bytes = bs := by
  induction bs using segment_induction with
  | nil => rfl
  | char c rest ih => rw [segments_encodeChar_append, List.flatMap_cons, ih, Segment.bytes]
  | bad b rest h ih =>
    rw [segments_bad h, List.flatMap_cons, ih, Segment.bytes, List.singleton_append]

end Segments

section Runes

@[simp] theorem encode_nil : encode [] = [] := rfl

@[simp] theorem encode_cons (c : Char) (cs : List Char) :
    encode (c :: cs) = String.utf8EncodeChar c ++ encode cs := List.flatMap_cons

@[simp] theorem encode_append (cs ds : List Char) : encode (cs ++ ds) = encode cs ++ encode ds :=
  List.flatMap_append

@[simp] theorem segments_encode_append (cs : List Char) (rest : Bytes) :
    segments (encode cs ++ rest) = cs.map .char ++ segments rest := by
  induction cs with
  | nil => rfl
  | cons c cs ih =>
    rw [encode_cons, List.append_assoc, segments_encodeChar_append, ih, List.map_cons,
      List.cons_append]

@[simp] theorem runes_encode (cs : List Char) : runes (encode cs) = cs := by
  have h := segments_encode_append cs []
  rw [List.append_nil, segments_nil, List.append_nil] at h
  rw [runes, h, List.map_map]
  exact List.map_id cs

theorem valid_encode (cs : List Char) : Valid (encode cs) := ⟨cs, rfl⟩

/-- Writing the runes back restores exactly the valid strings. -/
theorem sanitize_eq_iff (bs : Bytes) : sanitize bs = bs ↔ Valid bs := by
  constructor
  · intro h
    exact ⟨runes bs, h⟩
  · rintro ⟨cs, rfl⟩
    rw [sanitize, runes_encode]

instance (bs : Bytes) : Decidable (Valid bs) := decidable_of_iff _ (sanitize_eq_iff bs)

theorem Valid.append {as bs : Bytes} (has : Valid as) (hbs : Valid bs) : Valid (as ++ bs) := by
  obtain ⟨cs, rfl⟩ := has
  obtain ⟨ds, rfl⟩ := hbs
  exact ⟨cs ++ ds, encode_append cs ds⟩

end Runes

section Ascii

theorem encodeChar_ascii {c : Char} (h : c.val ≤ 127) : String.utf8EncodeChar c = [c.toUInt8] := by
  rw [String.utf8EncodeChar_eq_singleton (Char.utf8Size_eq_one_iff.mpr h)]
  rfl

theorem toNat_toUInt8 {c : Char} (h : c.val ≤ 127) : c.toUInt8.toNat = c.toNat := by
  have hle : c.val.toNat ≤ 127 := h
  exact (UInt32.toNat_toUInt8 c.val).trans (Nat.mod_eq_of_lt (by omega))

theorem ofUInt8_toUInt8 {c : Char} (h : c.val ≤ 127) : Char.ofUInt8 c.toUInt8 = c := by
  apply Char.ext
  apply UInt32.toNat_inj.mp
  exact (UInt8.toNat_toUInt32 _).trans (toNat_toUInt8 h)

theorem encodeChar_ofUInt8 {b : UInt8} (h : b.toNat < 128) :
    String.utf8EncodeChar (Char.ofUInt8 b) = [b] := by
  have hval : (Char.ofUInt8 b).val.toNat = b.toNat := UInt8.toNat_toUInt32 b
  have hascii : (Char.ofUInt8 b).val ≤ 127 := by
    change (Char.ofUInt8 b).val.toNat ≤ 127
    omega
  have hbyte : (Char.ofUInt8 b).toUInt8 = b := by
    apply UInt8.toNat_inj.mp
    rw [toNat_toUInt8 hascii]
    exact hval
  rw [encodeChar_ascii hascii, hbyte]

theorem encode_map_ofUInt8 {bs : Bytes} (h : ∀ b ∈ bs, b.toNat < 128) :
    encode (bs.map Char.ofUInt8) = bs := by
  induction bs with
  | nil => rfl
  | cons b bs ih =>
    rw [List.map_cons, encode_cons, encodeChar_ofUInt8 (h b List.mem_cons_self),
      ih fun b' hb' ↦ h b' (List.mem_cons_of_mem b hb'), List.singleton_append]

/-- An ASCII string is valid. -/
theorem valid_of_ascii {bs : Bytes} (h : ∀ b ∈ bs, b.toNat < 128) : Valid bs :=
  ⟨bs.map Char.ofUInt8, encode_map_ofUInt8 h⟩

/-- The encoding of a character outside ASCII has no ASCII byte. -/
theorem le_of_mem_encodeChar {c : Char} (h : 127 < c.val) {b : UInt8}
    (hb : b ∈ String.utf8EncodeChar c) : 128 ≤ b.toNat := by
  have hlow : 127 < c.val.toNat := h
  have hhigh : c.val.toNat < 1114112 := by
    rcases c.valid with hvalid | hvalid <;> omega
  simp only [String.utf8EncodeChar] at hb
  split_ifs at hb with h1 h2 h3
  · omega
  all_goals
    simp only [List.mem_cons, List.not_mem_nil, or_false] at hb
    rcases hb with rfl | rfl | rfl | rfl <;> simp only [UInt8.toNat_ofNat'] <;> omega

/-- An ASCII byte occurs only as the encoding of its character. -/
theorem eq_ofUInt8_of_mem_encodeChar {c : Char} {b : UInt8} (hb : b ∈ String.utf8EncodeChar c)
    (h : b.toNat < 128) : c = Char.ofUInt8 b := by
  by_cases hc : c.val ≤ 127
  · rw [encodeChar_ascii hc, List.mem_singleton] at hb
    rw [hb, ofUInt8_toUInt8 hc]
  · have hhigh := le_of_mem_encodeChar (UInt32.not_le.mp hc) hb
    omega

end Ascii

section Space

/-- `unicode.IsSpace`. -/
def isSpace (c : Char) : Bool :=
  let r := c.toNat
  (0x09 ≤ r && r ≤ 0x0d) || r == 0x20 || r == 0x85 || r == 0xa0 || r == 0x1680 ||
    (0x2000 ≤ r && r ≤ 0x200a) || r == 0x2028 || r == 0x2029 || r == 0x202f || r == 0x205f ||
    r == 0x3000

/-- `strings.TrimSpace`: the string without its leading and trailing white space. -/
def trimSpace (bs : Bytes) : Bytes :=
  (((segments bs).dropWhile (fun s ↦ isSpace s.rune)).rdropWhile
    (fun s ↦ isSpace s.rune)).flatMap Segment.bytes

/-- What is trimmed at the end of a list that has nothing of it before. -/
theorem rdropWhile_dropWhile_append {α : Type} {p : α → Bool} {as bs : List α}
    (has : ∀ a ∈ as, p a = false) (hbs : ∀ b ∈ bs, p b = true) :
    ((as ++ bs).dropWhile p).rdropWhile p = as := by
  cases as with
  | nil =>
    rw [List.nil_append, List.dropWhile_eq_nil_iff.mpr hbs]
    rfl
  | cons a as =>
    have hfront : (a :: as ++ bs).dropWhile p = a :: as ++ bs := by
      rw [List.cons_append, List.dropWhile_cons_of_neg]
      simp [has a List.mem_cons_self]
    have hback : (a :: as).reverse.dropWhile p = (a :: as).reverse := by
      rw [List.dropWhile_eq_self_iff]
      intro hlength
      rw [has _ (List.mem_reverse.mp (List.getElem_mem hlength))]
      exact Bool.false_ne_true
    rw [hfront, List.rdropWhile, List.reverse_append,
      List.dropWhile_append_of_pos fun b hb ↦ hbs b (List.mem_reverse.mp hb), hback,
      List.reverse_reverse]

/-- White space behind a text without any is trimmed. -/
theorem trimSpace_encode_append {cs ds : List Char} (hcs : ∀ c ∈ cs, isSpace c = false)
    (hds : ∀ c ∈ ds, isSpace c = true) : trimSpace (encode cs ++ encode ds) = encode cs := by
  have hsegments : segments (encode cs ++ encode ds) = cs.map .char ++ ds.map .char := by
    have hnil := segments_encode_append ds []
    rw [List.append_nil, segments_nil, List.append_nil] at hnil
    rw [segments_encode_append, hnil]
  have htrim : ((cs.map Segment.char ++ ds.map Segment.char).dropWhile
      fun s ↦ isSpace s.rune).rdropWhile (fun s ↦ isSpace s.rune) = cs.map Segment.char := by
    apply rdropWhile_dropWhile_append
    · simpa [Segment.rune] using hcs
    · simpa [Segment.rune] using hds
  rw [trimSpace, hsegments, htrim, List.flatMap_map]
  rfl

/-- A line of ASCII without white space loses its end. -/
theorem trimSpace_line {bs : Bytes}
    (h : ∀ b ∈ bs, b.toNat < 128 ∧ isSpace (Char.ofUInt8 b) = false) :
    trimSpace (bs ++ literal "\n") = bs := by
  have hencode : encode (bs.map Char.ofUInt8) = bs := encode_map_ofUInt8 fun b hb ↦ (h b hb).1
  have htrim : trimSpace (encode (bs.map Char.ofUInt8) ++ encode ['\n']) =
      encode (bs.map Char.ofUInt8) := by
    apply trimSpace_encode_append
    · intro c hc
      obtain ⟨b, hb, rfl⟩ := List.mem_map.mp hc
      exact (h b hb).2
    · intro c hc
      rw [List.mem_singleton.mp hc]
      rfl
  rwa [hencode] at htrim

end Space

end RelayCat.Go.Utf8
