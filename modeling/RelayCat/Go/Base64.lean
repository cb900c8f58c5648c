import RelayCat.Go.Utf8

/-!
# `base64.RawURLEncoding`

Unpadded base64 with the URL-safe alphabet. The decoder is the one of the standard library:
it skips carriage returns and line feeds anywhere and does not look at the bits that a
partial last group leaves over, so it reads many more texts than the encoder writes.
-/

namespace RelayCat.Go.Base64

/-- The alphabet of `encodeURL`. -/
def alphabet : Bytes :=
  Utf8.literal "ABCDEFGHIJKLMNOPQRSTUVWXYZabcdefghijklmnopqrstuvwxyz0123456789-_"

def digit (i : ℕ) : UInt8 := alphabet.getD i 0

/-- An entry of the decoding map, `none` for a byte outside the alphabet. -/
def value (b : UInt8) : Option ℕ := alphabet.idxOf? b

/-- The six-bit groups of a byte sequence, the last one filled up with zeros. -/
def groups : Bytes → List ℕ
  | [] => []
  | [a] => [a.toNat / 4, a.toNat % 4 * 16]
  | [a, b] => [a.toNat / 4, a.toNat % 4 * 16 + b.toNat / 16, b.toNat % 16 * 4]
  | a :: b :: c :: rest =>
    a.toNat / 4 :: (a.toNat % 4 * 16 + b.toNat / 16) :: (b.toNat % 16 * 4 + c.toNat / 64) ::
      c.toNat % 64 :: groups rest

/-- `EncodeToString`. -/
def encode (bs : Bytes) : Bytes := (groups bs).map digit

/-- The bytes of six-bit groups; a single group left over is corrupt. -/
def ungroup : List ℕ → Option Bytes
  | [] => some []
  | [_] => none
  | [x, y] => some [UInt8.ofNat (x * 4 + y / 16)]
  | [x, y, z] => some [UInt8.ofNat (x * 4 + y / 16), UInt8.ofNat (y % 16 * 16 + z / 4)]
  | x :: y :: z :: w :: rest =>
    (ungroup rest).map fun bs ↦
      UInt8.ofNat (x * 4 + y / 16) :: UInt8.ofNat (y % 16 * 16 + z / 4) ::
        UInt8.ofNat (z % 4 * 64 + w) :: bs

def isNewline (b : UInt8) : Bool := b == 10 || b == 13

/-- `DecodeString`, `none` for a `CorruptInputError`. -/
def decode (s : Bytes) : Option Bytes :=
  ((s.filter fun b ↦ !isNewline b).mapM value).bind ungroup

theorem value_digit : ∀ i < 64, value (digit i) = some i := by
  simp only [value, digit, alphabet]
  rw [Utf8.literal_ofList]
  decide +kernel

/-- The alphabet is ASCII without white space. -/
theorem visible_digit :
    ∀ i < 64, (digit i).toNat < 128 ∧ Utf8.isSpace (Char.ofUInt8 (digit i)) = false := by
  simp only [digit, alphabet]
  rw [Utf8.literal_ofList]
  decide +kernel

theorem not_isNewline_digit {i : ℕ} (hi : i < 64) : isNewline (digit i) = false := by
  by_contra hne
  have hspace := (visible_digit i hi).2
  simp only [isNewline, Bool.or_eq_false_iff, beq_eq_false_iff_ne, not_and_or, not_ne_iff] at hne
  rcases hne with hdigit | hdigit <;> rw [hdigit] at hspace <;> exact absurd hspace (by decide)

theorem groups_lt (bs : Bytes) : ∀ i ∈ groups bs, i < 64 := by
  induction bs using groups.induct with
  | case1 => simp [groups]
  | case2 a =>
    have ha := a.toNat_lt
    simp only [groups, List.mem_cons, List.not_mem_nil, or_false]
    omega
  | case3 a b =>
    have ha := a.toNat_lt
    have hb := b.toNat_lt
    simp only [groups, List.mem_cons, List.not_mem_nil, or_false]
    omega
  | case4 a b c rest ih =>
    have ha := a.toNat_lt
    have hb := b.toNat_lt
    have hc := c.toNat_lt
    simp only [groups, List.mem_cons]
    rintro i (rfl | rfl | rfl | rfl | hi)
    · omega
    · omega
    · omega
    · omega
    · exact ih i hi

theorem ungroup_groups (bs : Bytes) : ungroup (groups bs) = some bs := by
  induction bs using groups.induct with
  | case1 => rfl
  | case2 a =>
    have ha : a.toNat / 4 * 4 + a.toNat % 4 * 16 / 16 = a.toNat := by omega
    simp only [groups, ungroup, ha, UInt8.ofNat_toNat]
  | case3 a b =>
    have ha : a.toNat / 4 * 4 + (a.toNat % 4 * 16 + b.toNat / 16) / 16 = a.toNat := by
      have hb := b.toNat_lt
      omega
    have hb : (a.toNat % 4 * 16 + b.toNat / 16) % 16 * 16 + b.toNat % 16 * 4 / 4 = b.toNat := by
      have hb := b.toNat_lt
      omega
    simp only [groups, ungroup, ha, hb, UInt8.ofNat_toNat]
  | case4 a b c rest ih =>
    have hlt := And.intro b.toNat_lt c.toNat_lt
    have ha : a.toNat / 4 * 4 + (a.toNat % 4 * 16 + b.toNat / 16) / 16 = a.toNat := by omega
    have hb : (a.toNat % 4 * 16 + b.toNat / 16) % 16 * 16 +
        (b.toNat % 16 * 4 + c.toNat / 64) / 4 = b.toNat := by omega
    have hc : (b.toNat % 16 * 4 + c.toNat / 64) % 4 * 64 + c.toNat % 64 = c.toNat := by omega
    simp only [groups, ungroup, ih, ha, hb, hc, UInt8.ofNat_toNat, Option.map_some]

theorem mapM_value_digit (is : List ℕ) (h : ∀ i ∈ is, i < 64) :
    (is.map digit).mapM value = some is := by
  induction is with
  | nil => rfl
  | cons i is ih =>
    simp only [List.map_cons, List.mapM_cons, value_digit i (h i List.mem_cons_self),
      ih fun j hj ↦ h j (List.mem_cons_of_mem i hj)]
    rfl

/-- Decoding undoes encoding. -/
@[simp] theorem decode_encode (bs : Bytes) : decode (encode bs) = some bs := by
  have hfilter : (encode bs).filter (fun b ↦ !isNewline b) = encode bs := by
    apply List.filter_eq_self.mpr
    intro b hb
    obtain ⟨i, hi, rfl⟩ := List.mem_map.mp hb
    rw [not_isNewline_digit (groups_lt bs i hi)]
    rfl
  rw [decode, hfilter, encode, mapM_value_digit _ (groups_lt bs), Option.bind_some, ungroup_groups]

theorem encode_injective : Function.Injective encode := by
  intro as bs h
  have hdecode := congrArg decode h
  rw [decode_encode, decode_encode] at hdecode
  exact Option.some.inj hdecode

/-- What is encoded is ASCII without white space. -/
theorem visible_of_mem_encode {bs : Bytes} {b : UInt8} (hb : b ∈ encode bs) :
    b.toNat < 128 ∧ Utf8.isSpace (Char.ofUInt8 b) = false := by
  obtain ⟨i, hi, rfl⟩ := List.mem_map.mp hb
  exact visible_digit i (groups_lt bs i hi)

theorem valid_encode (bs : Bytes) : Utf8.Valid (encode bs) :=
  Utf8.valid_of_ascii fun _ hb ↦ (visible_of_mem_encode hb).1

end RelayCat.Go.Base64
