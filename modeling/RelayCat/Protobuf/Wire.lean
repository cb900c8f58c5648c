import Mathlib.Data.List.Basic
import Mathlib.Tactic.SplitIfs

/-!
# The proto3 wire format, encoding side

Varints, tagged scalar fields and length-delimited fields. A singular field with its
default value is left out; a member of a `oneof` is always written. The length lemmas give
the exact number of bytes that a length prefix adds.
-/

namespace RelayCat.Protobuf

/-- Base-128 digits, least significant first; `fuel` bounds the number of bytes. -/
def varintDigits : ℕ → ℕ → List UInt8
  | 0, _ => []
  | fuel + 1, n =>
    if n < 128 then [UInt8.ofNat n]
    else UInt8.ofNat (n % 128 + 128) :: varintDigits fuel (n / 128)

/-- A `uint64` never needs more than ten digits. -/
def varint (n : ℕ) : List UInt8 := varintDigits 10 n

/-- Field key: number and wire type. -/
def key (field wireType : ℕ) : List UInt8 := varint (8 * field + wireType)

/-- A length-delimited record, written whatever its content. -/
def delimited (field : ℕ) (content : List UInt8) : List UInt8 :=
  key field 2 ++ varint content.length ++ content

/-- A singular integer field. -/
def uintField (field n : ℕ) : List UInt8 := if n = 0 then [] else key field 0 ++ varint n

/-- A singular `bytes` field. -/
def bytesField (field : ℕ) (content : List UInt8) : List UInt8 :=
  if content = [] then [] else delimited field content

theorem varint_length_one {n : ℕ} (h : n < 128) : (varint n).length = 1 := by
  simp [varint, varintDigits, h]

theorem varint_length_three {n : ℕ} (hlow : 16384 ≤ n) (hhigh : n < 2097152) :
    (varint n).length = 3 := by
  have h0 : ¬ n < 128 := by omega
  have h1 : ¬ n / 128 < 128 := by omega
  have h2 : n / 128 / 128 < 128 := by omega
  simp [varint, varintDigits, h0, h1, h2]

theorem varintDigits_length_mono (fuel : ℕ) {m n : ℕ} (h : m ≤ n) :
    (varintDigits fuel m).length ≤ (varintDigits fuel n).length := by
  induction fuel generalizing m n with
  | zero => simp [varintDigits]
  | succ fuel ih =>
    have hdiv : m / 128 ≤ n / 128 := Nat.div_le_div_right h
    simp only [varintDigits]
    split_ifs with hm hn hn
    · simp
    · simp
    · omega
    · simpa using ih hdiv

/-- Longer content never has a shorter length prefix. -/
theorem varint_length_mono {m n : ℕ} (h : m ≤ n) : (varint m).length ≤ (varint n).length :=
  varintDigits_length_mono 10 h

theorem delimited_length (field : ℕ) (content : List UInt8) :
    (delimited field content).length =
      (key field 2).length + (varint content.length).length + content.length := by
  simp [delimited, Nat.add_assoc]

theorem bytesField_length (field : ℕ) {content : List UInt8} (hne : content ≠ []) :
    (bytesField field content).length =
      (key field 2).length + (varint content.length).length + content.length := by
  rw [bytesField, if_neg hne, delimited_length]

/-- Content of at most `n` bytes takes at most the room of `n` bytes. -/
theorem bytesField_length_le (field : ℕ) {content : List UInt8} {n : ℕ}
    (h : content.length ≤ n) :
    (bytesField field content).length ≤ (key field 2).length + (varint n).length + n := by
  by_cases hne : content = []
  · simp [bytesField, hne]
  · rw [bytesField_length field hne]
    have hvarint := varint_length_mono h
    omega

end RelayCat.Protobuf
