import RelayCat.Go.Utf8
import Mathlib.Data.List.Flatten

/-!
# Command lines of systemd services

How the value of `ExecStart=` becomes an argument vector, after systemd.service(5) and
systemd.syntax(7). The line is split at white space outside quotes, quotes are removed and
C-style escapes are resolved; then specifiers are expanded in each word; and when the service
is started, variables are substituted in each argument after the first word. A word that
consists of a variable is replaced by the words of its value.
-/

namespace RelayCat.Systemd

open Go Utf8

def isBlank (c : UInt8) : Bool := c == 0x20 || c == 0x09 || c == 0x0a || c == 0x0d

def doubleQuote : UInt8 := 0x22
def singleQuote : UInt8 := 0x27
def backslash : UInt8 := 0x5c
def percent : UInt8 := 0x25
def dollar : UInt8 := 0x24
def leftBrace : UInt8 := 0x7b
def rightBrace : UInt8 := 0x7d
def colon : UInt8 := 0x3a

section Words

/-- Between words, in a word, or inside quotes. -/
inductive Place where
  | blank
  | bare
  | quoted (mark : UInt8)
  deriving DecidableEq, Repr

inductive Escape where
  | none
  | backslash
  | hex
  | hexDigit (high : ℕ)
  deriving DecidableEq, Repr

/-- The byte of an escape of one character. -/
def escaped (c : UInt8) : Option UInt8 :=
  if c = backslash || c = doubleQuote then some c
  else if c = 0x6e then some 0x0a
  else if c = 0x72 then some 0x0d
  else if c = 0x74 then some 0x09
  else none

def hexValue (c : UInt8) : Option ℕ :=
  if 0x30 ≤ c.toNat ∧ c.toNat ≤ 0x39 then some (c.toNat - 0x30)
  else if 0x61 ≤ c.toNat ∧ c.toNat ≤ 0x66 then some (c.toNat - 0x61 + 10)
  else if 0x41 ≤ c.toNat ∧ c.toNat ≤ 0x46 then some (c.toNat - 0x41 + 10)
  else none

/-- The words of a command line, from a place with the word so far. A line with an open quote
or with an escape that is none, or that stands for NUL, is refused. -/
def words : Place → Escape → Bytes → Bytes → Option (List Bytes)
  | .blank, .none, _, [] => some []
  | .bare, .none, word, [] => some [word]
  | _, _, _, [] => none
  | place, .backslash, word, c :: rest =>
    if c = 0x78 then words place .hex word rest
    else (escaped c).bind fun b ↦ words place .none (word ++ [b]) rest
  | place, .hex, word, c :: rest =>
    (hexValue c).bind fun high ↦ words place (.hexDigit high) word rest
  | place, .hexDigit high, word, c :: rest =>
    (hexValue c).bind fun low ↦
      if 16 * high + low = 0 then none
      else words place .none (word ++ [UInt8.ofNat (16 * high + low)]) rest
  | .blank, .none, _, c :: rest =>
    if isBlank c then words .blank .none [] rest
    else if c = doubleQuote || c = singleQuote then words (.quoted c) .none [] rest
    else if c = backslash then words .bare .backslash [] rest
    else words .bare .none [c] rest
  | .bare, .none, word, c :: rest =>
    if isBlank c then (words .blank .none [] rest).map (word :: ·)
    else if c = doubleQuote || c = singleQuote then words (.quoted c) .none word rest
    else if c = backslash then words .bare .backslash word rest
    else words .bare .none (word ++ [c]) rest
  | .quoted mark, .none, word, c :: rest =>
    if c = mark then words .bare .none word rest
    else if c = backslash then words (.quoted mark) .backslash word rest
    else words (.quoted mark) .none (word ++ [c]) rest

variable {word rest : Bytes}

/-- Bytes that mean nothing inside double quotes. -/
theorem words_quoted_append {bs : Bytes} (h : ∀ b ∈ bs, b ≠ doubleQuote ∧ b ≠ backslash) :
    words (.quoted doubleQuote) .none word (bs ++ rest) =
      words (.quoted doubleQuote) .none (word ++ bs) rest := by
  induction bs generalizing word with
  | nil => rw [List.nil_append, List.append_nil]
  | cons b bs ih =>
    obtain ⟨hquote, hbackslash⟩ := h b List.mem_cons_self
    rw [List.cons_append, words, if_neg hquote, if_neg hbackslash,
      ih fun b' hb' ↦ h b' (List.mem_cons_of_mem b hb'), List.append_assoc, List.singleton_append]

theorem words_quoted_escaped {c b : UInt8} (hx : c ≠ 0x78) (h : escaped c = some b) :
    words (.quoted doubleQuote) .none word (backslash :: c :: rest) =
      words (.quoted doubleQuote) .none (word ++ [b]) rest := by
  have hquote : backslash ≠ doubleQuote := by decide
  rw [words, if_neg hquote, if_pos rfl, words, if_neg hx, h, Option.bind_some]

theorem words_quoted_hex {c c' : UInt8} {high low : ℕ} (h : hexValue c = some high)
    (h' : hexValue c' = some low) (hpos : 16 * high + low ≠ 0) :
    words (.quoted doubleQuote) .none word (backslash :: 0x78 :: c :: c' :: rest) =
      words (.quoted doubleQuote) .none (word ++ [UInt8.ofNat (16 * high + low)]) rest := by
  have hquote : backslash ≠ doubleQuote := by decide
  rw [words, if_neg hquote, if_pos rfl, words, if_pos rfl, words, h, Option.bind_some, words, h',
    Option.bind_some, if_neg hpos]

theorem words_open : words .blank .none word (doubleQuote :: rest) =
    words (.quoted doubleQuote) .none [] rest := by
  rw [words, if_neg (by decide), if_pos (by decide)]

theorem words_close : words (.quoted doubleQuote) .none word (doubleQuote :: rest) =
    words .bare .none word rest := by
  rw [words, if_pos rfl]

theorem words_next : words .bare .none word (0x20 :: rest) =
    (words .blank .none [] rest).map (word :: ·) := by
  rw [words, if_pos (by decide)]

end Words

section Specifiers

/-- Specifiers in a word: `%%` is a percent sign, and an unknown one is left as it is. -/
def expandSpecifiers (specifier : UInt8 → Option Bytes) : Bytes → Bytes
  | [] => []
  | [c] => [c]
  | c :: c' :: rest =>
    if c = percent then
      (if c' = percent then [percent] else (specifier c').getD [c, c']) ++
        expandSpecifiers specifier rest
    else c :: expandSpecifiers specifier (c' :: rest)

variable {specifier : UInt8 → Option Bytes}

theorem expandSpecifiers_cons {c : UInt8} (h : c ≠ percent) (rest : Bytes) :
    expandSpecifiers specifier (c :: rest) = c :: expandSpecifiers specifier rest := by
  cases rest with
  | nil => rfl
  | cons c' rest => rw [expandSpecifiers, if_neg h]

/-- What a writer has to do with percent signs. -/
def double (b : UInt8) : Bytes := if b = percent then [percent, percent] else [b]

theorem expandSpecifiers_double (bs : Bytes) :
    expandSpecifiers specifier (bs.flatMap double) = bs := by
  induction bs with
  | nil => rfl
  | cons b bs ih =>
    rw [List.flatMap_cons, double]
    split_ifs with hb
    · rw [List.cons_append, List.cons_append, List.nil_append, expandSpecifiers, if_pos rfl,
        if_pos rfl, ih, hb]
      rfl
    · rw [List.singleton_append, expandSpecifiers_cons hb, ih]

end Specifiers

section Variables

/-- Where the reader of a word is: in text, behind a dollar sign, or in the name of a variable. -/
inductive Scan where
  | text
  | dollar
  | braced (name : Bytes)
  deriving DecidableEq, Repr

/-- What was read and not yet put out. -/
def Scan.pending : Scan → Bytes
  | text => []
  | dollar => [Systemd.dollar]
  | braced name => Systemd.dollar :: leftBrace :: name

/-- Substitution inside a word: `$$` is a dollar sign and a name in braces is replaced by its
value. A name with a colon is no variable, and braces that are not closed mean nothing. -/
def substituteFrom (env : Bytes → Option Bytes) : Scan → Bytes → Bytes
  | s, [] => s.pending
  | .text, c :: rest =>
    if c = dollar then substituteFrom env .dollar rest else c :: substituteFrom env .text rest
  | .dollar, c :: rest =>
    if c = leftBrace then substituteFrom env (.braced []) rest
    else if c = dollar then dollar :: substituteFrom env .text rest
    else dollar :: c :: substituteFrom env .text rest
  | .braced name, c :: rest =>
    if c = rightBrace then (env name).getD [] ++ substituteFrom env .text rest
    else if c = colon then
      dollar :: leftBrace :: name ++ colon :: substituteFrom env .text rest
    else substituteFrom env (.braced (name ++ [c])) rest

/-- A word in which a dollar sign or a variable is to be replaced. -/
def refersFrom : Scan → Bytes → Bool
  | _, [] => false
  | .text, c :: rest => if c = dollar then refersFrom .dollar rest else refersFrom .text rest
  | .dollar, c :: rest =>
    if c = leftBrace then refersFrom (.braced []) rest
    else c == dollar || refersFrom .text rest
  | .braced name, c :: rest =>
    if c = rightBrace then true
    else if c = colon then refersFrom .text rest
    else refersFrom (.braced (name ++ [c])) rest

/-- The name in a word that consists of a variable. -/
def variableWord : Bytes → Option Bytes
  | [] => none
  | c :: rest =>
    if c = dollar ∧ rest.head? ≠ some leftBrace ∧ rest.head? ≠ some dollar then some rest else none

/-- The words of a value; quotes are respected and removed. -/
def valueWords : Place → Bytes → Bytes → List Bytes
  | .blank, _, [] => []
  | .bare, word, [] => [word]
  | .quoted _, word, [] => [word]
  | .blank, _, c :: rest =>
    if isBlank c then valueWords .blank [] rest
    else if c = doubleQuote || c = singleQuote then valueWords (.quoted c) [] rest
    else valueWords .bare [c] rest
  | .bare, word, c :: rest =>
    if isBlank c then word :: valueWords .blank [] rest
    else if c = doubleQuote || c = singleQuote then valueWords (.quoted c) word rest
    else valueWords .bare (word ++ [c]) rest
  | .quoted mark, word, c :: rest =>
    if c = mark then valueWords .bare word rest else valueWords (.quoted mark) (word ++ [c]) rest

/-- The arguments that a word gives. -/
def expandVariables (env : Bytes → Option Bytes) (word : Bytes) : List Bytes :=
  match variableWord word with
  | some name => valueWords .blank [] ((env name).getD [])
  | none => [substituteFrom env .text word]

/-- A word that stands for something else than itself. -/
def refers (word : Bytes) : Bool := (variableWord word).isSome || refersFrom .text word

theorem substituteFrom_of_not_refers (env : Bytes → Option Bytes) {s : Scan} {bs : Bytes}
    (h : refersFrom s bs = false) : substituteFrom env s bs = s.pending ++ bs := by
  induction bs generalizing s with
  | nil => simp [substituteFrom]
  | cons c rest ih =>
    cases s with
    | text =>
      simp only [refersFrom, substituteFrom] at h ⊢
      split_ifs at h ⊢ with hc
      · rw [ih h, hc]
        rfl
      · rw [ih h]
        rfl
    | dollar =>
      simp only [refersFrom, substituteFrom] at h ⊢
      split_ifs at h ⊢ with hbrace hdollar
      · rw [ih h, hbrace]
        rfl
      · simp [hdollar] at h
      · rw [Bool.or_eq_false_iff] at h
        rw [ih h.2]
        rfl
    | braced name =>
      simp only [refersFrom, substituteFrom] at h ⊢
      split_ifs at h ⊢ with hbrace hcolon
      · rw [ih h, hcolon]
        simp [Scan.pending]
      · rw [ih h]
        simp [Scan.pending]

theorem expandVariables_of_not_refers (env : Bytes → Option Bytes) {word : Bytes}
    (h : refers word = false) : expandVariables env word = [word] := by
  rw [refers, Bool.or_eq_false_iff, Option.isSome_eq_false_iff, Option.isNone_iff_eq_none] at h
  rw [expandVariables, h.1]
  simp only
  rw [substituteFrom_of_not_refers env h.2]
  rfl

/-- The environment without variables. -/
def noVariables : Bytes → Option Bytes := fun _ ↦ none

/-- Without variables no word grows, and every replacement shortens it. -/
theorem length_substituteFrom_le (s : Scan) (bs : Bytes) :
    (substituteFrom noVariables s bs).length + (refersFrom s bs).toNat ≤
      s.pending.length + bs.length := by
  induction bs generalizing s with
  | nil => simp [substituteFrom, refersFrom]
  | cons c rest ih =>
    cases s with
    | text =>
      simp only [substituteFrom, refersFrom]
      split_ifs with hc
      · have hrest := ih .dollar
        simp only [Scan.pending, List.length_cons, List.length_nil] at hrest ⊢
        omega
      · have hrest := ih .text
        simp only [Scan.pending, List.length_cons, List.length_nil] at hrest ⊢
        omega
    | dollar =>
      simp only [substituteFrom, refersFrom]
      split_ifs with hbrace hdollar
      · have hrest := ih (.braced [])
        simp only [Scan.pending, List.length_cons, List.length_nil] at hrest ⊢
        omega
      · have hrest := ih .text
        have hone := Bool.toNat_le (c == dollar || refersFrom .text rest)
        simp only [Scan.pending, List.length_cons, List.length_nil] at hrest ⊢
        omega
      · have hrest := ih .text
        have hfalse : (c == dollar) = false := beq_eq_false_iff_ne.mpr hdollar
        rw [hfalse, Bool.false_or]
        simp only [Scan.pending, List.length_cons, List.length_nil] at hrest ⊢
        omega
    | braced name =>
      simp only [substituteFrom, refersFrom, noVariables, Option.getD_none, List.nil_append]
      split_ifs with hbrace hcolon
      · have hrest := ih .text
        have hone := Bool.toNat_le (refersFrom .text rest)
        simp only [Scan.pending, List.length_cons, List.length_nil, Bool.toNat_true] at hrest ⊢
        omega
      · have hrest := ih .text
        simp only [Scan.pending, List.length_cons, List.length_append, List.length_nil] at hrest ⊢
        omega
      · have hrest := ih (.braced (name ++ [c]))
        simp only [Scan.pending, List.length_cons, List.length_append, List.length_nil] at hrest ⊢
        omega

theorem refersFrom_eq_false_of_substituteFrom {word : Bytes}
    (h : substituteFrom noVariables .text word = word) : refersFrom .text word = false := by
  have hlength := length_substituteFrom_le .text word
  rw [h] at hlength
  cases hrefers : refersFrom .text word with
  | false => rfl
  | true =>
    rw [hrefers] at hlength
    simp only [Scan.pending, List.length_nil, Bool.toNat_true] at hlength
    omega

variable {env : Bytes → Option Bytes} {rest : Bytes}

theorem substituteFrom_text_append {bs : Bytes} (h : dollar ∉ bs) :
    substituteFrom env .text (bs ++ rest) = bs ++ substituteFrom env .text rest := by
  induction bs with
  | nil => rfl
  | cons b bs ih =>
    rw [List.mem_cons, not_or] at h
    rw [List.cons_append, substituteFrom, if_neg (Ne.symm h.1), ih h.2, List.cons_append]

theorem substituteFrom_braced_append {bs name : Bytes} (hbrace : rightBrace ∉ bs)
    (hcolon : colon ∉ bs) :
    substituteFrom env (.braced name) (bs ++ rest) =
      substituteFrom env (.braced (name ++ bs)) rest := by
  induction bs generalizing name with
  | nil => rw [List.nil_append, List.append_nil]
  | cons b bs ih =>
    rw [List.mem_cons, not_or] at hbrace hcolon
    rw [List.cons_append, substituteFrom, if_neg (Ne.symm hbrace.1), if_neg (Ne.symm hcolon.1),
      ih hbrace.2 hcolon.2, List.append_assoc, List.singleton_append]

theorem valid_ascii {b : UInt8} (h : b.toNat < 128) : Valid [b] :=
  valid_of_ascii fun b' hb' ↦ by
    rw [List.mem_singleton.mp hb']
    exact h

/-- A character that is not ASCII has none of the bytes that mean something. -/
theorem notMem_encodeChar {c : Char} {b : UInt8} (h : b.toNat < 128) (hc : c ≠ Char.ofUInt8 b) :
    b ∉ String.utf8EncodeChar c := fun hb ↦ hc (eq_ofUInt8_of_mem_encodeChar hb h)

/-- Substitution removes whole characters. -/
theorem valid_substituteFrom {s : Scan} (hs : Valid s.pending) (cs : List Char) :
    Valid (substituteFrom noVariables s (encode cs)) := by
  have hdollar : Valid [dollar] := valid_ascii (by decide)
  have htext : Valid Scan.text.pending := valid_encode []
  induction cs generalizing s with
  | nil =>
    rw [encode_nil, substituteFrom]
    exact hs
  | cons c cs ih =>
    have hc : Valid (String.utf8EncodeChar c) := ⟨[c], by simp⟩
    rw [encode_cons]
    cases s with
    | text =>
      by_cases heq : c = Char.ofUInt8 dollar
      · rw [heq, encodeChar_ofUInt8 (by decide), List.singleton_append, substituteFrom, if_pos rfl]
        exact ih hdollar
      · rw [substituteFrom_text_append (notMem_encodeChar (by decide) heq)]
        exact hc.append (ih htext)
    | dollar =>
      by_cases heq : c = Char.ofUInt8 leftBrace
      · rw [heq, encodeChar_ofUInt8 (by decide), List.singleton_append, substituteFrom, if_pos rfl]
        exact ih (hdollar.append (valid_ascii (by decide)))
      · by_cases hdouble : c = Char.ofUInt8 dollar
        · rw [hdouble, encodeChar_ofUInt8 (by decide), List.singleton_append, substituteFrom,
            if_neg (by decide), if_pos rfl]
          exact hdollar.append (ih htext)
        · have hbrace := notMem_encodeChar (b := leftBrace) (by decide) heq
          have hnot := notMem_encodeChar (b := dollar) (by decide) hdouble
          cases hbytes : String.utf8EncodeChar c with
          | nil => simp [String.utf8EncodeChar_ne_nil] at hbytes
          | cons b bs =>
            rw [hbytes, List.mem_cons, not_or] at hbrace hnot
            rw [List.cons_append, substituteFrom, if_neg (Ne.symm hbrace.1),
              if_neg (Ne.symm hnot.1), substituteFrom_text_append hnot.2]
            rw [hbytes] at hc
            exact hdollar.append (hc.append (ih htext))
    | braced name =>
      by_cases hbrace : c = Char.ofUInt8 rightBrace
      · rw [hbrace, encodeChar_ofUInt8 (by decide), List.singleton_append, substituteFrom,
          if_pos rfl]
        exact ih htext
      · by_cases hcolon : c = Char.ofUInt8 colon
        · rw [hcolon, encodeChar_ofUInt8 (by decide), List.singleton_append, substituteFrom,
            if_neg (by decide), if_pos rfl]
          exact hs.append ((valid_ascii (by decide)).append (ih htext))
        · rw [substituteFrom_braced_append (notMem_encodeChar (by decide) hbrace)
            (notMem_encodeChar (by decide) hcolon)]
          exact ih (hs.append hc)

/-- A list whose elements each give themselves. -/
theorem flatMap_eq_self {α : Type} {f : α → List α} (hf : ∀ a, (f a).length ≤ 1) {l : List α}
    (h : l.flatMap f = l) : ∀ a ∈ l, f a = [a] := by
  have hlength : ∀ l : List α, (l.flatMap f).length ≤ l.length := by
    intro l
    induction l with
    | nil => exact le_refl 0
    | cons a l ih =>
      rw [List.flatMap_cons, List.length_append, List.length_cons]
      have hone := hf a
      omega
  induction l with
  | nil => nofun
  | cons a l ih =>
    rw [List.flatMap_cons] at h
    have hone := hf a
    cases hfa : f a with
    | nil =>
      have hle := hlength l
      rw [hfa, List.nil_append] at h
      rw [h, List.length_cons] at hle
      omega
    | cons b bs =>
      rw [hfa, List.length_cons] at hone
      have hnil : bs = [] := List.length_eq_zero_iff.mp (by omega)
      subst hnil
      rw [hfa, List.singleton_append] at h
      obtain ⟨rfl, hl⟩ := List.cons_eq_cons.mp h
      rw [List.forall_mem_cons]
      exact ⟨hfa, ih hl⟩

theorem length_expandVariables_le (word : Bytes) :
    (expandVariables noVariables word).length ≤ 1 := by
  unfold expandVariables
  split
  · exact Nat.zero_le 1
  · exact le_refl 1

/-- A word that is given back by the copy of it in which invalid bytes were replaced was valid
and refers to nothing. -/
theorem refers_of_expandVariables {word : Bytes}
    (h : expandVariables noVariables (sanitize word) = [word]) :
    Valid word ∧ refers word = false := by
  unfold expandVariables at h
  split at h
  · cases h
  · rename_i hword
    have hsubstitute : substituteFrom noVariables .text (sanitize word) = word :=
      List.singleton_inj.mp h
    have hvalid : Valid word := by
      rw [← hsubstitute]
      exact valid_substituteFrom (s := .text) (valid_encode []) (runes word)
    rw [(sanitize_eq_iff word).mpr hvalid] at hsubstitute hword
    refine ⟨hvalid, ?_⟩
    rw [refers, hword, refersFrom_eq_false_of_substituteFrom hsubstitute]
    rfl

end Variables

section Vector

variable (specifier : UInt8 → Option Bytes) (env : Bytes → Option Bytes)

/-- The argument vector of a command line. The first word is the program. -/
def argumentVector (line : Bytes) : Option (List Bytes) :=
  match words .blank .none [] line with
  | none => none
  | some [] => none
  | some (program :: arguments) =>
    some (expandSpecifiers specifier program ::
      (arguments.map (expandSpecifiers specifier)).flatMap (expandVariables env))

end Vector

end RelayCat.Systemd
