import RelayCat.Go.Utf8
import RelayCat.Protobuf.Wire
import Mathlib.Tactic.Ring

/-!
# The proto3 wire format, decoding side

`proto.Unmarshal` for messages whose fields are `uint32`, `string` and `bytes`. Fields may
come in any order and repeatedly, the last one counts; fields of another number, or of a
known number with another wire type, are skipped, groups included. A schema says which field
numbers a message has and how a value is stored; the readers are independent of it.

Each reader leaves less input than it was given. The loops take the length of their input as
fuel, which by that is always enough.
-/

namespace RelayCat.Protobuf

open Go

/-- The digits of a varint; the last digit that is allowed has one bit. -/
def consumeDigits : ℕ → Bytes → Option (ℕ × Bytes)
  | _, [] => none
  | 0, _ :: _ => none
  | 1, b :: rest => if b.toNat < 2 then some (b.toNat, rest) else none
  | fuel + 2, b :: rest =>
    if b.toNat < 128 then some (b.toNat, rest)
    else (consumeDigits (fuel + 1) rest).map fun (v, rest) ↦ (b.toNat - 128 + 128 * v, rest)

/-- `protowire.ConsumeVarint`: the value and the rest of the input. -/
def consumeVarint (bs : Bytes) : Option (ℕ × Bytes) := consumeDigits 10 bs

/-- `protowire.ConsumeBytes`. -/
def consumeBytes (bs : Bytes) : Option (Bytes × Bytes) :=
  match consumeVarint bs with
  | none => none
  | some (n, rest) => if n ≤ rest.length then some (rest.take n, rest.drop n) else none

/-- A field number and wire type, with the largest number that is valid here. -/
def consumeTag (max : ℕ) (bs : Bytes) : Option (ℕ × ℕ × Bytes) :=
  match consumeVarint bs with
  | none => none
  | some (tag, rest) =>
    if 1 ≤ tag / 8 ∧ tag / 8 ≤ max then some (tag / 8, tag % 8, rest) else none

/-- `protowire.MaxValidNumber`. -/
def maxValidNumber : ℕ := 2 ^ 29 - 1

/-- The largest number that `protowire.ConsumeTag` returns. -/
def maxNumber : ℕ := 2 ^ 31 - 1

/-- `protowire.DefaultRecursionLimit`. -/
def defaultRecursionLimit : ℕ := 10000

/-- What a value outside a group leaves of the input. -/
def skipScalar (wireType : ℕ) (bs : Bytes) : Option Bytes :=
  match wireType with
  | 0 => (consumeVarint bs).map (·.2)
  | 1 => if 8 ≤ bs.length then some (bs.drop 8) else none
  | 2 => (consumeBytes bs).map (·.2)
  | 5 => if 4 ≤ bs.length then some (bs.drop 4) else none
  | _ => none

/-- What the open groups, innermost first, leave of the input. -/
def skipGroups : ℕ → List ℕ → Bytes → Option Bytes
  | _, [], bs => some bs
  | 0, _ :: _, _ => none
  | fuel + 1, group :: outer, bs =>
    match consumeTag maxNumber bs with
    | none => none
    | some (number, wireType, rest) =>
      match wireType with
      | 3 =>
        if outer.length + 1 ≤ defaultRecursionLimit then
          skipGroups fuel (number :: group :: outer) rest
        else none
      | 4 => if number = group then skipGroups fuel outer rest else none
      | wireType =>
        match skipScalar wireType rest with
        | none => none
        | some rest => skipGroups fuel (group :: outer) rest

/-- `protowire.ConsumeFieldValue`, as what it leaves of the input. -/
def consumeFieldValue (number wireType : ℕ) (bs : Bytes) : Option Bytes :=
  if wireType = 3 then skipGroups bs.length [number] bs else skipScalar wireType bs

inductive Kind where
  | uint32
  | string
  | bytes
  deriving DecidableEq, Repr

/-- The fields of a message type. -/
structure Schema (M : Type) where
  kind : ℕ → Option Kind
  setUint : ℕ → ℕ → M → M
  setBytes : ℕ → Bytes → M → M

section Unmarshal

variable {M : Type} (schema : Schema M)

/-- One field after its tag. A known field with another wire type is unknown. -/
def consumeField (number wireType : ℕ) (bs : Bytes) (m : M) : Option (M × Bytes) :=
  match schema.kind number, wireType with
  | some .uint32, 0 =>
    (consumeVarint bs).map fun (v, rest) ↦ (schema.setUint number (v % 2 ^ 32) m, rest)
  | some .string, 2 =>
    match consumeBytes bs with
    | none => none
    | some (v, rest) => if Utf8.Valid v then some (schema.setBytes number v m, rest) else none
  | some .bytes, 2 =>
    (consumeBytes bs).map fun (v, rest) ↦ (schema.setBytes number v m, rest)
  | _, wireType => (consumeFieldValue number wireType bs).map fun rest ↦ (m, rest)

/-- The loop of `proto.Unmarshal`; an end-group tag has no group to end here. -/
def unmarshalFrom : ℕ → Bytes → M → Option M
  | _, [], m => some m
  | 0, _ :: _, _ => none
  | fuel + 1, b :: bs, m =>
    match consumeTag maxValidNumber (b :: bs) with
    | none => none
    | some (number, wireType, rest) =>
      if wireType = 4 then none
      else
        match consumeField schema number wireType rest m with
        | none => none
        | some (m, rest) => unmarshalFrom fuel rest m

/-- `proto.Unmarshal` into a message with the given contents. -/
def unmarshal (bs : Bytes) (m : M) : Option M := unmarshalFrom schema bs.length bs m

end Unmarshal

section Length

variable {bs rest : Bytes}

theorem consumeDigits_length {fuel v : ℕ} (h : consumeDigits fuel bs = some (v, rest)) :
    rest.length < bs.length := by
  induction bs generalizing fuel v with
  | nil => simp [consumeDigits] at h
  | cons b tail ih =>
    match fuel with
    | 0 => simp [consumeDigits] at h
    | 1 =>
      rw [consumeDigits] at h
      obtain ⟨-, h⟩ := Option.ite_none_right_eq_some.mp h
      cases h
      simp
    | fuel + 2 =>
      rw [consumeDigits] at h
      split_ifs at h with hb
      · cases h
        simp
      · obtain ⟨⟨v', rest'⟩, hrest, hmk⟩ := Option.map_eq_some_iff.mp h
        cases hmk
        exact Nat.lt_succ_of_lt (ih hrest)

theorem consumeVarint_length {v : ℕ} (h : consumeVarint bs = some (v, rest)) :
    rest.length < bs.length := consumeDigits_length h

theorem consumeBytes_length {v : Bytes} (h : consumeBytes bs = some (v, rest)) :
    rest.length < bs.length := by
  unfold consumeBytes at h
  split at h
  · cases h
  · rename_i n tail htail
    obtain ⟨-, h⟩ := Option.ite_none_right_eq_some.mp h
    cases h
    have hlength := consumeVarint_length htail
    simp
    omega

/-- One more digit has seven more bits. -/
theorem two_pow_digits (k : ℕ) : 2 ^ (7 * (k + 1) + 1) = 128 * 2 ^ (7 * k + 1) := by ring

theorem consumeDigits_lt {k v : ℕ} (h : consumeDigits (k + 1) bs = some (v, rest)) :
    v < 2 ^ (7 * k + 1) := by
  induction k generalizing bs v with
  | zero =>
    cases bs with
    | nil => simp [consumeDigits] at h
    | cons b tail =>
      rw [consumeDigits] at h
      obtain ⟨hb, h⟩ := Option.ite_none_right_eq_some.mp h
      cases h
      simpa using hb
  | succ k ih =>
    cases bs with
    | nil => simp [consumeDigits] at h
    | cons b tail =>
      have hpow := two_pow_digits k
      have hone : 1 ≤ 2 ^ (7 * k + 1) := Nat.one_le_two_pow
      rw [consumeDigits] at h
      split_ifs at h with hb
      · cases h
        omega
      · obtain ⟨⟨v', rest'⟩, hrest, hmk⟩ := Option.map_eq_some_iff.mp h
        cases hmk
        have hv := ih hrest
        have hbyte := b.toNat_lt
        omega

/-- The length that was read bounds the content. -/
theorem consumeBytes_lt {v : Bytes} (h : consumeBytes bs = some (v, rest)) : v.length < 2 ^ 64 := by
  unfold consumeBytes at h
  split at h
  · cases h
  · rename_i n tail htail
    obtain ⟨hn, h⟩ := Option.ite_none_right_eq_some.mp h
    cases h
    rw [List.length_take, min_eq_left hn]
    exact consumeDigits_lt htail

theorem consumeTag_length {max number wireType : ℕ}
    (h : consumeTag max bs = some (number, wireType, rest)) : rest.length < bs.length := by
  unfold consumeTag at h
  split at h
  · cases h
  · rename_i tag tail htail
    obtain ⟨-, h⟩ := Option.ite_none_right_eq_some.mp h
    cases h
    exact consumeVarint_length htail

theorem skipScalar_length {wireType : ℕ} (h : skipScalar wireType bs = some rest) :
    rest.length < bs.length := by
  unfold skipScalar at h
  split at h
  · obtain ⟨⟨v, tail⟩, htail, rfl⟩ := Option.map_eq_some_iff.mp h
    exact consumeVarint_length htail
  · obtain ⟨hlength, h⟩ := Option.ite_none_right_eq_some.mp h
    cases h
    simp
    omega
  · obtain ⟨⟨v, tail⟩, htail, rfl⟩ := Option.map_eq_some_iff.mp h
    exact consumeBytes_length htail
  · obtain ⟨hlength, h⟩ := Option.ite_none_right_eq_some.mp h
    cases h
    simp
    omega
  · cases h

theorem skipGroups_length {fuel : ℕ} {groups : List ℕ} (h : skipGroups fuel groups bs = some rest) :
    rest.length ≤ bs.length := by
  induction fuel generalizing groups bs with
  | zero =>
    cases groups with
    | nil =>
      cases h
      exact le_rfl
    | cons group outer => simp [skipGroups] at h
  | succ fuel ih =>
    cases groups with
    | nil =>
      cases h
      exact le_rfl
    | cons group outer =>
      rw [skipGroups] at h
      split at h
      · cases h
      · rename_i number wireType tail htail
        have hshorter := consumeTag_length htail
        split at h
        · obtain ⟨-, h⟩ := Option.ite_none_right_eq_some.mp h
          exact (ih h).trans hshorter.le
        · obtain ⟨-, h⟩ := Option.ite_none_right_eq_some.mp h
          exact (ih h).trans hshorter.le
        · split at h
          · cases h
          · rename_i next hnext
            exact (ih h).trans ((skipScalar_length hnext).trans hshorter).le

theorem consumeFieldValue_length {number wireType : ℕ}
    (h : consumeFieldValue number wireType bs = some rest) : rest.length ≤ bs.length := by
  unfold consumeFieldValue at h
  split_ifs at h
  · exact skipGroups_length h
  · exact (skipScalar_length h).le

/-- More fuel than the input has bytes changes nothing. -/
theorem skipGroups_fuel {fuel fuel' : ℕ} {groups : List ℕ} (h : bs.length ≤ fuel)
    (h' : bs.length ≤ fuel') : skipGroups fuel groups bs = skipGroups fuel' groups bs := by
  induction fuel generalizing fuel' groups bs with
  | zero =>
    have hnil : bs = [] := List.eq_nil_of_length_eq_zero (Nat.le_zero.mp h)
    subst hnil
    cases groups with
    | nil => cases fuel' <;> rfl
    | cons group outer =>
      cases fuel' with
      | zero => rfl
      | succ fuel' => simp [skipGroups, consumeTag, consumeVarint, consumeDigits]
  | succ fuel ih =>
    cases groups with
    | nil => cases fuel' <;> rfl
    | cons group outer =>
      cases fuel' with
      | zero =>
        have hnil : bs = [] := List.eq_nil_of_length_eq_zero (Nat.le_zero.mp h')
        subst hnil
        simp [skipGroups, consumeTag, consumeVarint, consumeDigits]
      | succ fuel' =>
        rw [skipGroups, skipGroups]
        split
        · rfl
        · rename_i number wireType tail htail
          have hshorter := consumeTag_length htail
          have heq (groups : List ℕ) : skipGroups fuel groups tail = skipGroups fuel' groups tail :=
            ih (by omega) (by omega)
          split
          · rw [heq]
          · rw [heq]
          · split
            · rfl
            · rename_i next hnext
              have hnext := skipScalar_length hnext
              exact ih (by omega) (by omega)

end Length

section Run

variable {M : Type} {schema : Schema M} {bs rest : Bytes} {m m' : M} {number wireType : ℕ}

theorem consumeField_length (h : consumeField schema number wireType bs m = some (m', rest)) :
    rest.length ≤ bs.length := by
  unfold consumeField at h
  split at h
  · obtain ⟨⟨v, tail⟩, htail, hmk⟩ := Option.map_eq_some_iff.mp h
    cases hmk
    exact (consumeVarint_length htail).le
  · split at h
    · cases h
    · rename_i v tail htail
      obtain ⟨-, h⟩ := Option.ite_none_right_eq_some.mp h
      cases h
      exact (consumeBytes_length htail).le
  · obtain ⟨⟨v, tail⟩, htail, hmk⟩ := Option.map_eq_some_iff.mp h
    cases hmk
    exact (consumeBytes_length htail).le
  · obtain ⟨tail, htail, hmk⟩ := Option.map_eq_some_iff.mp h
    cases hmk
    exact consumeFieldValue_length htail

theorem unmarshalFrom_fuel {fuel fuel' : ℕ} (h : bs.length ≤ fuel) (h' : bs.length ≤ fuel') :
    unmarshalFrom schema fuel bs m = unmarshalFrom schema fuel' bs m := by
  induction fuel generalizing fuel' bs m with
  | zero =>
    have hnil : bs = [] := List.eq_nil_of_length_eq_zero (Nat.le_zero.mp h)
    subst hnil
    cases fuel' <;> rfl
  | succ fuel ih =>
    cases bs with
    | nil => cases fuel' <;> rfl
    | cons b tail =>
      cases fuel' with
      | zero => simp at h'
      | succ fuel' =>
        rw [unmarshalFrom, unmarshalFrom]
        split
        · rfl
        · rename_i number wireType next hnext
          have hshorter := consumeTag_length hnext
          split_ifs
          · rfl
          · split
            · rfl
            · rename_i m' rest hrest
              have hrest := consumeField_length hrest
              exact ih (by omega) (by omega)

@[simp] theorem unmarshal_nil : unmarshal schema [] m = some m := rfl

/-- One field of a message, then the rest of it. -/
theorem unmarshal_step {next : Bytes}
    (htag : consumeTag maxValidNumber bs = some (number, wireType, next))
    (hend : wireType ≠ 4) (hfield : consumeField schema number wireType next m = some (m', rest)) :
    unmarshal schema bs m = unmarshal schema rest m' := by
  cases bs with
  | nil => simp [consumeTag, consumeVarint, consumeDigits] at htag
  | cons b tail =>
    have hshorter := consumeTag_length htag
    have hrest := consumeField_length hfield
    rw [List.length_cons] at hshorter
    unfold unmarshal
    rw [List.length_cons, unmarshalFrom, htag]
    simp only [hend, if_false, hfield]
    exact unmarshalFrom_fuel (by omega) le_rfl

/-- What holds before a field and is kept by every store holds after it. -/
theorem consumeField_invariant {I : M → Prop}
    (huint : ∀ number v m, I m → I (schema.setUint number v m))
    (hbytes : ∀ number v m, v.length < 2 ^ 64 →
      (schema.kind number = some .string → Utf8.Valid v) → I m → I (schema.setBytes number v m))
    (hm : I m) (h : consumeField schema number wireType bs m = some (m', rest)) : I m' := by
  unfold consumeField at h
  split at h
  · obtain ⟨⟨v, tail⟩, -, hmk⟩ := Option.map_eq_some_iff.mp h
    cases hmk
    exact huint _ _ _ hm
  · split at h
    · cases h
    · rename_i v tail hv
      obtain ⟨hvalid, h⟩ := Option.ite_none_right_eq_some.mp h
      cases h
      exact hbytes _ _ _ (consumeBytes_lt hv) (fun _ ↦ hvalid) hm
  · rename_i hkind
    obtain ⟨⟨v, tail⟩, hv, hmk⟩ := Option.map_eq_some_iff.mp h
    cases hmk
    refine hbytes _ _ _ (consumeBytes_lt hv) (fun hstring ↦ ?_) hm
    rw [hkind] at hstring
    cases hstring
  · obtain ⟨tail, -, hmk⟩ := Option.map_eq_some_iff.mp h
    cases hmk
    exact hm

/-- What holds of the initial message and is kept by every store holds of the result. -/
theorem unmarshal_invariant {I : M → Prop}
    (huint : ∀ number v m, I m → I (schema.setUint number v m))
    (hbytes : ∀ number v m, v.length < 2 ^ 64 →
      (schema.kind number = some .string → Utf8.Valid v) → I m → I (schema.setBytes number v m))
    (hm : I m) (h : unmarshal schema bs m = some m') : I m' := by
  unfold unmarshal at h
  generalize bs.length = fuel at h
  induction fuel generalizing bs m with
  | zero =>
    cases bs with
    | nil =>
      cases h
      exact hm
    | cons b tail => simp [unmarshalFrom] at h
  | succ fuel ih =>
    cases bs with
    | nil =>
      cases h
      exact hm
    | cons b tail =>
      rw [unmarshalFrom] at h
      split at h
      · cases h
      · split_ifs at h
        split at h
        · cases h
        · rename_i next hnext
          exact ih (consumeField_invariant huint hbytes hm hnext) h

end Run

section RoundTrip

variable {n : ℕ} (rest : Bytes)

theorem consumeDigits_varintDigits (k : ℕ) (hn : n < 2 ^ (7 * k + 1)) :
    consumeDigits (k + 1) (varintDigits (k + 1) n ++ rest) = some (n, rest) := by
  induction k generalizing n with
  | zero =>
    have hsmall : n < 128 := by omega
    have hdigit : n % 256 = n := by omega
    simp [varintDigits, consumeDigits, hsmall, hdigit]
    omega
  | succ k ih =>
    rw [varintDigits]
    split_ifs with hsmall
    · have hdigit : n % 256 = n := by omega
      simp [consumeDigits, hdigit, hsmall]
    · have hdigit : (n % 128 + 128) % 256 = n % 128 + 128 := by omega
      have hrest : n / 128 < 2 ^ (7 * k + 1) := by
        rw [two_pow_digits] at hn
        exact Nat.div_lt_of_lt_mul hn
      simp only [List.cons_append, consumeDigits, UInt8.toNat_ofNat', hdigit, ih hrest]
      rw [if_neg (by omega), Option.map_some]
      congr 2
      omega

theorem consumeVarint_varint (hn : n < 2 ^ 64) :
    consumeVarint (varint n ++ rest) = some (n, rest) :=
  consumeDigits_varintDigits rest 9 hn

theorem consumeTag_key {field wireType max : ℕ} (hpos : 1 ≤ field) (hmax : field ≤ max)
    (hfield : field < 2 ^ 32) (hwire : wireType < 8) :
    consumeTag max (key field wireType ++ rest) = some (field, wireType, rest) := by
  have hdiv : (8 * field + wireType) / 8 = field := by omega
  have hmod : (8 * field + wireType) % 8 = wireType := by omega
  rw [consumeTag, key, consumeVarint_varint rest (by omega)]
  simp only [hdiv, hmod]
  exact if_pos ⟨hpos, hmax⟩

theorem consumeBytes_append {content : Bytes} (h : content.length < 2 ^ 64) :
    consumeBytes (varint content.length ++ (content ++ rest)) = some (content, rest) := by
  rw [consumeBytes, consumeVarint_varint _ h]
  simp

variable {M : Type} {schema : Schema M} (field : ℕ) (m : M)

/-- Reading back an integer field; a default value was left out. -/
theorem unmarshal_uintField (hkind : schema.kind field = some .uint32) (hpos : 1 ≤ field)
    (hmax : field ≤ maxValidNumber) (hn : n < 2 ^ 32) :
    unmarshal schema (uintField field n ++ rest) m =
      unmarshal schema rest (if n = 0 then m else schema.setUint field n m) := by
  have hfield : field < 2 ^ 32 := lt_of_le_of_lt hmax (by decide)
  unfold uintField
  split_ifs
  · rfl
  · rw [List.append_assoc]
    refine unmarshal_step (consumeTag_key _ hpos hmax hfield (by decide)) (by decide) ?_
    have hvarint : consumeVarint (varint n ++ rest) = some (n, rest) :=
      consumeVarint_varint rest (hn.trans (by decide))
    simp only [consumeField, hkind, hvarint, Option.map_some, Nat.mod_eq_of_lt hn]

/-- Reading back a `string` or `bytes` field; an empty one was left out. -/
theorem unmarshal_bytesField (kind : Kind) (hkind : schema.kind field = some kind)
    (huint : kind ≠ .uint32) (hpos : 1 ≤ field) (hmax : field ≤ maxValidNumber) {content : Bytes}
    (hlength : content.length < 2 ^ 64) (hvalid : kind = .string → Utf8.Valid content) :
    unmarshal schema (bytesField field content ++ rest) m =
      unmarshal schema rest (if content = [] then m else schema.setBytes field content m) := by
  have hfield : field < 2 ^ 32 := lt_of_le_of_lt hmax (by decide)
  unfold bytesField
  split_ifs
  · rfl
  · rw [delimited, List.append_assoc, List.append_assoc]
    refine unmarshal_step (consumeTag_key _ hpos hmax hfield (by decide)) (by decide) ?_
    cases kind with
    | uint32 => exact absurd rfl huint
    | string => simp [consumeField, hkind, consumeBytes_append rest hlength, hvalid rfl]
    | bytes => simp [consumeField, hkind, consumeBytes_append rest hlength]

end RoundTrip

end RelayCat.Protobuf
