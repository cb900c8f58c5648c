import RelayCat.Go.Errors
import Mathlib.Data.List.TakeWhile

/-!
# One record of comma-separated values

`csv.Reader.Read` with its default settings: lines end with a line feed or a carriage return and
a line feed, empty lines are skipped, and a field in quotation marks may hold commas, line feeds
and doubled quotation marks.
-/

namespace RelayCat.Go.Csv

def quote : UInt8 := 0x22
def comma : UInt8 := 0x2c
def newline : UInt8 := 0x0a
def carriageReturn : UInt8 := 0x0d

/-- The text with its line ends as the reader sees them. -/
def normalize : Bytes → Bytes
  | [] => []
  | [c] => if c = carriageReturn then [] else [c]
  | c :: c' :: rest =>
    if c = carriageReturn ∧ c' = newline then normalize (c' :: rest)
    else c :: normalize (c' :: rest)

/-- Where the reader is in a field; `closing` is behind a quotation mark in a quoted field. -/
inductive Place where
  | start
  | bare
  | quoted
  | closing
  deriving DecidableEq, Repr

/-- The fields of a record, from a place with the field so far and the fields before it. -/
def record : Place → Bytes → List Bytes → Bytes → Option (List Bytes)
  | .quoted, _, _, [] => none
  | _, field, fields, [] => some (fields ++ [field])
  | .start, field, fields, c :: rest =>
    if c = quote then record .quoted field fields rest
    else if c = comma then record .start [] (fields ++ [field]) rest
    else if c = newline then some (fields ++ [field])
    else record .bare (field ++ [c]) fields rest
  | .bare, field, fields, c :: rest =>
    if c = quote then none
    else if c = comma then record .start [] (fields ++ [field]) rest
    else if c = newline then some (fields ++ [field])
    else record .bare (field ++ [c]) fields rest
  | .quoted, field, fields, c :: rest =>
    if c = quote then record .closing field fields rest
    else record .quoted (field ++ [c]) fields rest
  | .closing, field, fields, c :: rest =>
    if c = quote then record .quoted (field ++ [c]) fields rest
    else if c = comma then record .start [] (fields ++ [field]) rest
    else if c = newline then some (fields ++ [field])
    else none

/-- `csv.Reader.Read`. -/
def read (text : Bytes) : Option (List Bytes) :=
  match (normalize text).dropWhile (· = newline) with
  | [] => none
  | c :: rest => record .start [] [] (c :: rest)

section Record

variable {place : Place} {field text : Bytes} {fields out : List Bytes}

/-- The fields that were complete are the first of the record. -/
theorem exists_of_record (h : record place field fields text = some out) :
    ∃ rest, out = fields ++ rest := by
  induction text generalizing place field fields with
  | nil =>
    cases place with
    | quoted => cases h
    | _ =>
      cases h
      exact ⟨_, rfl⟩
  | cons c text ih =>
    have hnext (h : record .start [] (fields ++ [field]) text = some out) :
        ∃ rest, out = fields ++ rest := by
      obtain ⟨rest, hrest⟩ := ih h
      exact ⟨[field] ++ rest, by rw [hrest, List.append_assoc]⟩
    have hend (h : some (fields ++ [field]) = some out) : ∃ rest, out = fields ++ rest :=
      ⟨[field], (Option.some.inj h).symm⟩
    cases place with
    | start =>
      rw [record] at h
      split_ifs at h
      · exact ih h
      · exact hnext h
      · exact hend h
      · exact ih h
    | bare =>
      rw [record] at h
      split_ifs at h
      · exact hnext h
      · exact hend h
      · exact ih h
    | quoted =>
      rw [record] at h
      split_ifs at h
      · exact ih h
      · exact ih h
    | closing =>
      rw [record] at h
      split_ifs at h
      · exact ih h
      · exact hnext h
      · exact hend h

/-- A byte that belongs to a bare field. -/
def isPlain (c : UInt8) : Bool := c ≠ quote && c ≠ comma && c ≠ newline

/-- A bare field goes on to the first byte that is not plain. -/
theorem record_bare (h : record .bare field fields text = some out) :
    ∃ rest, out = fields ++ (field ++ text.takeWhile isPlain) :: rest := by
  induction text generalizing field with
  | nil =>
    cases h
    exact ⟨[], by simp⟩
  | cons c text ih =>
    rw [record] at h
    split_ifs at h with hquote hcomma hnewline
    · obtain ⟨rest, hrest⟩ := exists_of_record h
      have hstop : ¬ (isPlain c = true) := by simp [isPlain, hcomma]
      refine ⟨rest, ?_⟩
      rw [hrest, List.takeWhile_cons_of_neg hstop, List.append_nil, List.append_assoc,
        List.singleton_append]
    · have hstop : ¬ (isPlain c = true) := by simp [isPlain, hnewline]
      refine ⟨[], ?_⟩
      rw [← Option.some.inj h, List.takeWhile_cons_of_neg hstop, List.append_nil]
    · obtain ⟨rest, hrest⟩ := ih h
      have hplain : isPlain c = true := by simp [isPlain, hquote, hcomma, hnewline]
      refine ⟨rest, ?_⟩
      rw [hrest, List.takeWhile_cons_of_pos hplain, List.append_assoc, List.singleton_append]

theorem normalize_cons {c : UInt8} (h : c ≠ carriageReturn) (text : Bytes) :
    normalize (c :: text) = c :: normalize text := by
  cases text with
  | nil => simp [normalize, h]
  | cons c' text => rw [normalize, if_neg fun hc ↦ h hc.1]

/-- Text without line feeds, followed by something else than one, stays as it is. -/
theorem normalize_append {bs : Bytes} (h : newline ∉ bs) {c : UInt8} (hc : c ≠ newline)
    (text : Bytes) : normalize (bs ++ c :: text) = bs ++ normalize (c :: text) := by
  induction bs with
  | nil => rfl
  | cons b bs ih =>
    rw [List.mem_cons, not_or] at h
    have hrest := ih h.2
    cases bs with
    | nil => rw [List.singleton_append, normalize, if_neg fun hb ↦ hc hb.2, List.singleton_append]
    | cons b' bs =>
      rw [List.mem_cons, not_or] at h
      rw [List.cons_append, List.cons_append, normalize, if_neg fun hb ↦ h.2.1 hb.2.symm,
        ← List.cons_append, hrest, List.cons_append, List.cons_append, List.cons_append]

/-- A record whose text is a byte, its own first field and more is none. -/
theorem read_ne_of_longer {b c : UInt8} {x more : Bytes} {xs : List Bytes} (hb : isPlain b = true)
    (hreturn : b ≠ carriageReturn) (hc : c ≠ newline) :
    read (b :: (x ++ c :: more)) ≠ some (x :: xs) := by
  intro h
  have hplain : b ≠ quote ∧ b ≠ comma ∧ b ≠ newline := by
    simpa [isPlain, and_assoc] using hb
  rw [read, normalize_cons hreturn, List.dropWhile_cons_of_neg (by simp [hplain.2.2])] at h
  simp only at h
  rw [record, if_neg hplain.1, if_neg hplain.2.1, if_neg hplain.2.2] at h
  obtain ⟨rest, hout⟩ := record_bare h
  obtain ⟨hx, -⟩ := List.cons_eq_cons.mp hout
  have hall : ∀ a ∈ x, isPlain a = true := by
    rw [hx]
    intro a ha
    rcases List.mem_cons.mp ha with rfl | ha
    · exact hb
    · exact List.mem_takeWhile_imp ha
  have hnewline : newline ∉ x := fun hmem ↦ absurd (hall newline hmem) (by decide)
  rw [normalize_append hnewline hc, List.takeWhile_append_of_pos hall] at hx
  have hlength := congrArg List.length hx
  simp only [List.nil_append, List.length_append, List.length_cons, List.length_nil] at hlength
  omega

/-- A record has no more bytes than its text, and as many only if the text is its last field. -/
theorem record_size (h : record place field fields text = some out) :
    out.flatten.length ≤ fields.flatten.length + field.length + text.length ∧
      (out.flatten.length = fields.flatten.length + field.length + text.length →
        out = fields ++ [field ++ text]) := by
  induction text generalizing place field fields with
  | nil =>
    cases place with
    | quoted => cases h
    | _ =>
      cases h
      exact ⟨by simp, fun _ ↦ by rw [List.append_nil]⟩
  | cons c text ih =>
    have hnext (h : record .start [] (fields ++ [field]) text = some out) :
        out.flatten.length < fields.flatten.length + field.length + (text.length + 1) := by
      have hsize := (ih h).1
      simp only [List.flatten_append, List.flatten_singleton, List.length_append,
        List.length_nil] at hsize
      omega
    have hend (h : some (fields ++ [field]) = some out) :
        out.flatten.length < fields.flatten.length + field.length + (text.length + 1) := by
      rw [← Option.some.inj h]
      simp only [List.flatten_append, List.flatten_singleton, List.length_append]
      omega
    have hskip {place : Place} (h : record place field fields text = some out) :
        out.flatten.length < fields.flatten.length + field.length + (text.length + 1) := by
      have hsize := (ih h).1
      omega
    have hkeep {place : Place} (h : record place (field ++ [c]) fields text = some out) :
        out.flatten.length ≤ fields.flatten.length + field.length + (text.length + 1) ∧
          (out.flatten.length = fields.flatten.length + field.length + (text.length + 1) →
            out = fields ++ [field ++ c :: text]) := by
      have hsize := ih h
      rw [List.length_append, List.length_singleton, List.append_assoc,
        List.singleton_append] at hsize
      exact ⟨by omega, fun heq ↦ hsize.2 (by omega)⟩
    have hlost (h : out.flatten.length <
          fields.flatten.length + field.length + (text.length + 1)) :
        out.flatten.length ≤ fields.flatten.length + field.length + (text.length + 1) ∧
          (out.flatten.length = fields.flatten.length + field.length + (text.length + 1) →
            out = fields ++ [field ++ c :: text]) :=
      ⟨h.le, fun heq ↦ absurd heq h.ne⟩
    rw [List.length_cons]
    cases place with
    | start =>
      rw [record] at h
      split_ifs at h
      · exact hlost (hskip h)
      · exact hlost (hnext h)
      · exact hlost (hend h)
      · exact hkeep h
    | bare =>
      rw [record] at h
      split_ifs at h
      · exact hlost (hnext h)
      · exact hlost (hend h)
      · exact hkeep h
    | quoted =>
      rw [record] at h
      split_ifs at h
      · exact hlost (hskip h)
      · exact hkeep h
    | closing =>
      rw [record] at h
      split_ifs at h
      · exact hkeep h
      · exact hlost (hnext h)
      · exact hlost (hend h)

theorem normalize_size (text : Bytes) :
    (normalize text).length ≤ text.length ∧
      ((normalize text).length = text.length → normalize text = text) := by
  fun_induction normalize text with
  | case1 => exact ⟨le_rfl, fun _ ↦ rfl⟩
  | case2 => exact ⟨Nat.zero_le _, fun heq ↦ by cases heq⟩
  | case3 c hc => exact ⟨le_rfl, fun _ ↦ rfl⟩
  | case4 c c' rest hc ih =>
    rw [List.length_cons]
    exact ⟨by omega, fun heq ↦ by omega⟩
  | case5 c c' rest hc ih =>
    rw [List.length_cons, List.length_cons (a := c)]
    refine ⟨by omega, fun heq ↦ ?_⟩
    rw [ih.2 (by omega)]

/-- The fields that are read have no more bytes than the text, and as many only if the text is
the only field. -/
theorem read_size (h : read text = some out) :
    out.flatten.length ≤ text.length ∧ (out.flatten.length = text.length → out = [text]) := by
  have hlines := normalize_size text
  have hblank := List.dropWhile_suffix (· = newline) (l := normalize text)
  rw [read] at h
  split at h
  · cases h
  · rename_i c rest hdrop
    have hsize := record_size h
    rw [← hdrop] at hsize
    have hlength := hblank.length_le
    simp only [List.flatten_nil, List.length_nil, Nat.zero_add, List.nil_append] at hsize
    refine ⟨by omega, fun heq ↦ ?_⟩
    rw [hsize.2 (by omega), hblank.eq_of_length (by omega), hlines.2 (by omega)]

end Record

end RelayCat.Go.Csv
