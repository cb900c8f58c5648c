import RelayCat.Systemd.Command
import Mathlib.Data.List.DropRight

/-!
# Unit files

The line grammar of systemd.syntax(7): lines end with a line feed or a carriage return, a line
that ends with a backslash goes on in the next line that is no comment, and what is left are
section headers and assignments, with white space around their parts removed.
-/

namespace RelayCat.Systemd

open Go Utf8

def equalsSign : UInt8 := 0x3d
def leftBracket : UInt8 := 0x5b
def rightBracket : UInt8 := 0x5d

def isLineEnd (c : UInt8) : Bool := c == 0x0a || c == 0x0d

def lines (text : Bytes) : List Bytes := text.splitOnP isLineEnd

/-- White space removed on both sides. -/
def strip (bs : Bytes) : Bytes := (bs.rdropWhile isBlank).dropWhile isBlank

def isComment (line : Bytes) : Bool :=
  (strip line).head? == some 0x23 || (strip line).head? == some 0x3b

/-- Lines joined with those that continue them; the backslash becomes a space. -/
def join : List Bytes → List Bytes
  | [] => []
  | line :: rest =>
    if line.getLast? = some backslash then
      match join rest with
      | [] => [line.dropLast ++ [0x20]]
      | next :: rest => (line.dropLast ++ 0x20 :: next) :: rest
    else line :: join rest

inductive Entry where
  | header (name : Bytes)
  | directive (key value : Bytes)
  | other (text : Bytes)
  deriving DecidableEq, Repr

/-- The entry of a line that is not empty. -/
def entryOf (line : Bytes) : Entry :=
  if line.head? = some leftBracket ∧ line.getLast? = some rightBracket then
    .header line.tail.dropLast
  else
    match line.dropWhile (· ≠ equalsSign) with
    | [] => .other line
    | _ :: value =>
      .directive ((line.takeWhile (· ≠ equalsSign)).rdropWhile isBlank) (value.dropWhile isBlank)

def lineEntry (line : Bytes) : Option Entry :=
  if strip line = [] then none else some (entryOf (strip line))

/-- The entries of a unit file. -/
def entries (text : Bytes) : List Entry :=
  (join ((lines text).filter fun line ↦ !isComment line)).filterMap lineEntry

/-- The values assigned to a key in the sections of a name, from inside section `current`. -/
def valuesFrom (part key : Bytes) : Bytes → List Entry → List Bytes
  | _, [] => []
  | _, .header name :: rest => valuesFrom part key name rest
  | current, .directive key' value :: rest =>
    if current = part ∧ key' = key then value :: valuesFrom part key current rest
    else valuesFrom part key current rest
  | current, .other _ :: rest => valuesFrom part key current rest

def values (part key : Bytes) (es : List Entry) : List Bytes := valuesFrom part key [] es

/-- The argument vector of a service that has one command. -/
def serviceCommand (specifier : UInt8 → Option Bytes) (env : Bytes → Option Bytes)
    (unit : Bytes) : Option (List Bytes) :=
  match values (literal "Service") (literal "ExecStart") (entries unit) with
  | [line] => argumentVector specifier env line
  | _ => none

section Lines

theorem lines_append {line : Bytes} (h : ∀ b ∈ line, isLineEnd b = false) (rest : Bytes) :
    lines (line ++ 0x0a :: rest) = line :: lines rest :=
  List.splitOnP_append_cons_of_forall_mem h 0x0a rfl rest

/-- Lines written one after the other. -/
def unlines (ls : List Bytes) : Bytes := ls.flatMap (· ++ [0x0a])

theorem lines_unlines_append {ls : List Bytes} (h : ∀ l ∈ ls, ∀ b ∈ l, isLineEnd b = false)
    (rest : Bytes) : lines (unlines ls ++ rest) = ls ++ lines rest := by
  induction ls with
  | nil => rfl
  | cons l ls ih =>
    have hshape : unlines (l :: ls) ++ rest = l ++ 0x0a :: (unlines ls ++ rest) := by
      simp [unlines]
    rw [hshape, lines_append (h l List.mem_cons_self),
      ih fun l' hl' ↦ h l' (List.mem_cons_of_mem l hl'), List.cons_append]

theorem join_append {ls : List Bytes} (h : ∀ l ∈ ls, l.getLast? ≠ some backslash)
    (rest : List Bytes) : join (ls ++ rest) = ls ++ join rest := by
  induction ls with
  | nil => rfl
  | cons l ls ih =>
    rw [List.cons_append, join, if_neg (h l List.mem_cons_self),
      ih fun l' hl' ↦ h l' (List.mem_cons_of_mem l hl'), List.cons_append]

theorem rdropWhile_append_of_last {p : UInt8 → Bool} {as : Bytes} {b : UInt8} (hb : p b = false)
    (bs : Bytes) : (as ++ b :: bs).rdropWhile p = as ++ b :: bs.rdropWhile p := by
  induction bs using List.reverseRecOn with
  | nil => exact List.rdropWhile_concat_neg p as b (by simp [hb])
  | append_singleton bs c ih =>
    rw [← List.cons_append, ← List.append_assoc, List.rdropWhile_concat, List.rdropWhile_concat]
    split_ifs
    · exact ih
    · simp

/-- A key that is a plain word. -/
structure IsKey (key : Bytes) : Prop where
  head : ∃ b, key.head? = some b ∧ isBlank b = false ∧ b ≠ leftBracket ∧ b ≠ 0x23 ∧ b ≠ 0x3b
  noEquals : ∀ b ∈ key, b ≠ equalsSign
  noBlank : ∀ b ∈ key, isBlank b = false

variable {key : Bytes}

theorem isLineEnd_assignment (hkey : IsKey key) {value : Bytes}
    (hvalue : ∀ b ∈ value, isLineEnd b = false) :
    ∀ b ∈ key ++ equalsSign :: value, isLineEnd b = false := by
  intro b hb
  rcases List.mem_append.mp hb with hb | hb
  · have hblank := hkey.noBlank b hb
    simp only [isBlank, Bool.or_eq_false_iff] at hblank
    rw [isLineEnd, hblank.1.2, hblank.2]
    rfl
  · rcases List.mem_cons.mp hb with rfl | hb
    · rfl
    · exact hvalue b hb

theorem strip_assignment (hkey : IsKey key) (value : Bytes) :
    strip (key ++ equalsSign :: value) = key ++ equalsSign :: value.rdropWhile isBlank := by
  obtain ⟨b, hb, hblank, -⟩ := hkey.head
  rw [strip, rdropWhile_append_of_last rfl]
  cases key with
  | nil => cases hb
  | cons c key =>
    cases hb
    rw [List.cons_append, List.dropWhile_cons_of_neg]
    rw [hblank]
    exact Bool.false_ne_true

theorem isComment_assignment (hkey : IsKey key) (value : Bytes) :
    isComment (key ++ equalsSign :: value) = false := by
  obtain ⟨b, hb, -, -, hhash, hsemicolon⟩ := hkey.head
  have hhead : (strip (key ++ equalsSign :: value)).head? = some b := by
    rw [strip_assignment hkey, List.head?_append, hb, Option.some_or]
  simp [isComment, hhead, hhash, hsemicolon]

/-- A line with an assignment. -/
theorem lineEntry_assignment (hkey : IsKey key) (value : Bytes) :
    lineEntry (key ++ equalsSign :: value) = some (.directive key (strip value)) := by
  obtain ⟨b, hb, -, hbracket, -⟩ := hkey.head
  have hhead : (key ++ equalsSign :: value.rdropWhile isBlank).head? = some b := by
    rw [List.head?_append, hb, Option.some_or]
  have hnot : ∀ c ∈ key, decide (c ≠ equalsSign) = true := by
    intro c hc
    exact decide_eq_true (hkey.noEquals c hc)
  have hdrop : (key ++ equalsSign :: value.rdropWhile isBlank).dropWhile (· ≠ equalsSign) =
      equalsSign :: value.rdropWhile isBlank := by
    rw [List.dropWhile_append_of_pos hnot, List.dropWhile_cons_of_neg (by simp)]
  have htake :
      (key ++ equalsSign :: value.rdropWhile isBlank).takeWhile (· ≠ equalsSign) = key := by
    rw [List.takeWhile_append_of_pos hnot, List.takeWhile_cons_of_neg (by simp), List.append_nil]
  have hright : key.rdropWhile isBlank = key := by
    rw [List.rdropWhile_eq_self_iff]
    intro hne
    rw [hkey.noBlank _ (List.getLast_mem hne)]
    exact Bool.false_ne_true
  rw [lineEntry, strip_assignment hkey, if_neg (by simp), entryOf, hhead,
    if_neg fun h ↦ hbracket (Option.some.inj h.1), hdrop]
  simp only
  rw [htake, hright, strip]

/-- A value without white space at its ends. -/
theorem strip_eq_self {bs : Bytes} (hhead : ∀ b, bs.head? = some b → isBlank b = false)
    (hlast : ∀ b, bs.getLast? = some b → isBlank b = false) : strip bs = bs := by
  have hright : bs.rdropWhile isBlank = bs := by
    rw [List.rdropWhile_eq_self_iff]
    intro hne
    rw [hlast _ (List.getLast?_eq_some_getLast hne)]
    exact Bool.false_ne_true
  rw [strip, hright]
  cases bs with
  | nil => rfl
  | cons b bs =>
    rw [List.dropWhile_cons_of_neg]
    rw [hhead b rfl]
    exact Bool.false_ne_true

end Lines

section Values

variable {part key : Bytes}

/-- The section in which the entries end. -/
def sectionAfter : Bytes → List Entry → Bytes
  | current, [] => current
  | _, .header name :: rest => sectionAfter name rest
  | current, _ :: rest => sectionAfter current rest

theorem valuesFrom_append (current : Bytes) (es es' : List Entry) :
    valuesFrom part key current (es ++ es') =
      valuesFrom part key current es ++ valuesFrom part key (sectionAfter current es) es' := by
  induction es generalizing current with
  | nil => rfl
  | cons e es ih =>
    cases e with
    | header name => exact ih name
    | other text => exact ih current
    | directive key' value =>
      simp only [List.cons_append, valuesFrom, sectionAfter]
      rw [ih current]
      split_ifs
      · rw [List.cons_append]
      · rfl

end Values

end RelayCat.Systemd
