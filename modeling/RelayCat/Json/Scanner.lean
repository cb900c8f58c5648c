import RelayCat.Json.Text

/-!
# The JSON scanner

The byte-at-a-time scanner of `encoding/json`: a state and a stack of the open objects and
arrays. `Reader` runs it over a document and collects the members of an outermost object as
texts without insignificant white space; what it collects depends only on how the stack
changes, so values of any shape are passed over correctly.

A document whose value is an object has no proper beginning that is a document, up to white
space at the end.
-/

namespace RelayCat.Json

open Go Utf8

/-- `parseState`: what an open object or array waits for. -/
inductive Open where
  | objectKey
  | objectValue
  | arrayValue
  deriving DecidableEq, Repr

/-- The state functions of the scanner. The letters that `true`, `false` and `null` still
lack are kept instead of one state for each. -/
inductive Step where
  | beginValue
  | beginValueOrEmpty
  | beginStringOrEmpty
  | beginString
  | endValue
  | endTop
  | inString
  | inStringEsc
  | inStringEscU
  | inStringEscU1
  | inStringEscU12
  | inStringEscU123
  | neg
  | digits1
  | digits0
  | dot
  | dot0
  | exponent
  | exponentSign
  | exponent0
  | word (letters : Bytes)
  deriving DecidableEq, Repr

structure Scanner where
  step : Step
  stack : List Open
  deriving DecidableEq, Repr

def isSpace (c : UInt8) : Bool := c == 0x20 || c == 0x09 || c == 0x0d || c == 0x0a

def isDigit (c : UInt8) : Bool := 0x30 ≤ c && c ≤ 0x39

def comma : UInt8 := 0x2c

def colon : UInt8 := 0x3a

def leftBrace : UInt8 := 0x7b

def rightBrace : UInt8 := 0x7d

def leftBracket : UInt8 := 0x5b

def rightBracket : UInt8 := 0x5d

/-- `maxNestingDepth`. -/
def maxNestingDepth : ℕ := 10000

/-- `pushParseState`. -/
def push (step : Step) (o : Open) (stack : List Open) : Option Scanner :=
  if stack.length + 1 ≤ maxNestingDepth then some ⟨step, o :: stack⟩ else none

/-- `popParseState`. -/
def pop (outer : List Open) : Scanner := ⟨if outer = [] then .endTop else .endValue, outer⟩

/-- `stateEndTop`. -/
def endTop (c : UInt8) : Option Scanner := if isSpace c then some ⟨.endTop, []⟩ else none

/-- `stateEndValue`. -/
def endValue (stack : List Open) (c : UInt8) : Option Scanner :=
  match stack with
  | [] => endTop c
  | o :: outer =>
    if isSpace c then some ⟨.endValue, o :: outer⟩
    else
      match o with
      | .objectKey => if c = colon then some ⟨.beginValue, .objectValue :: outer⟩ else none
      | .objectValue =>
        if c = comma then some ⟨.beginString, .objectKey :: outer⟩
        else if c = rightBrace then some (pop outer)
        else none
      | .arrayValue =>
        if c = comma then some ⟨.beginValue, .arrayValue :: outer⟩
        else if c = rightBracket then some (pop outer)
        else none

/-- `stateBeginValue`. -/
def beginValue (stack : List Open) (c : UInt8) : Option Scanner :=
  if isSpace c then some ⟨.beginValue, stack⟩
  else if c = leftBrace then push .beginStringOrEmpty .objectKey stack
  else if c = leftBracket then push .beginValueOrEmpty .arrayValue stack
  else if c = quoteMark then some ⟨.inString, stack⟩
  else if c = 0x2d then some ⟨.neg, stack⟩
  else if c = 0x30 then some ⟨.digits0, stack⟩
  else if c = 0x74 then some ⟨.word (literal "rue"), stack⟩
  else if c = 0x66 then some ⟨.word (literal "alse"), stack⟩
  else if c = 0x6e then some ⟨.word (literal "ull"), stack⟩
  else if isDigit c then some ⟨.digits1, stack⟩
  else none

/-- `stateBeginString`. -/
def beginString (stack : List Open) (c : UInt8) : Option Scanner :=
  if isSpace c then some ⟨.beginString, stack⟩
  else if c = quoteMark then some ⟨.inString, stack⟩
  else none

/-- The states inside a string. -/
def stringNext : Step → UInt8 → Option Step
  | .inString, c =>
    if c = quoteMark then some .endValue
    else if c = backslash then some .inStringEsc
    else if c < 0x20 then none
    else some .inString
  | .inStringEsc, c =>
    if c = backslash ∨ c = 0x2f ∨ c = quoteMark ∨ (shortEscapes.any fun e ↦ e.1 == c) then
      some .inString
    else if c = 0x75 then some .inStringEscU
    else none
  | .inStringEscU, c => if (hexValue c).isSome then some .inStringEscU1 else none
  | .inStringEscU1, c => if (hexValue c).isSome then some .inStringEscU12 else none
  | .inStringEscU12, c => if (hexValue c).isSome then some .inStringEscU123 else none
  | .inStringEscU123, c => if (hexValue c).isSome then some .inString else none
  | _, _ => none

/-- `state0`. -/
def digits0 (stack : List Open) (c : UInt8) : Option Scanner :=
  if c = 0x2e then some ⟨.dot, stack⟩
  else if c = 0x65 ∨ c = 0x45 then some ⟨.exponent, stack⟩
  else endValue stack c

/-- `stateESign`. -/
def exponentSign (stack : List Open) (c : UInt8) : Option Scanner :=
  if isDigit c then some ⟨.exponent0, stack⟩ else none

/-- One byte; `none` is a syntax error. -/
def Scanner.next (s : Scanner) (c : UInt8) : Option Scanner :=
  match s.step with
  | .beginValue => beginValue s.stack c
  | .beginValueOrEmpty =>
    if isSpace c then some s
    else if c = rightBracket then endValue s.stack c
    else beginValue s.stack c
  | .beginStringOrEmpty =>
    if isSpace c then some s
    else if c = rightBrace then endValue (.objectValue :: s.stack.tail) c
    else beginString s.stack c
  | .beginString => beginString s.stack c
  | .endValue => endValue s.stack c
  | .endTop => endTop c
  | .neg =>
    if c = 0x30 then some ⟨.digits0, s.stack⟩
    else if isDigit c then some ⟨.digits1, s.stack⟩
    else none
  | .digits1 => if isDigit c then some ⟨.digits1, s.stack⟩ else digits0 s.stack c
  | .digits0 => digits0 s.stack c
  | .dot => if isDigit c then some ⟨.dot0, s.stack⟩ else none
  | .dot0 =>
    if isDigit c then some ⟨.dot0, s.stack⟩
    else if c = 0x65 ∨ c = 0x45 then some ⟨.exponent, s.stack⟩
    else endValue s.stack c
  | .exponent =>
    if c = 0x2b ∨ c = 0x2d then some ⟨.exponentSign, s.stack⟩ else exponentSign s.stack c
  | .exponentSign => exponentSign s.stack c
  | .exponent0 => if isDigit c then some ⟨.exponent0, s.stack⟩ else endValue s.stack c
  | .word [] => endValue s.stack c
  | .word (letter :: letters) =>
    if c = letter then some ⟨if letters = [] then .endValue else .word letters, s.stack⟩ else none
  | step => (stringNext step c).map fun step ↦ ⟨step, s.stack⟩

/-- `scanner.reset`. -/
def Scanner.start : Scanner := ⟨.beginValue, []⟩

def scan (s : Scanner) : Bytes → Option Scanner
  | [] => some s
  | c :: rest =>
    match s.next c with
    | none => none
    | some s => scan s rest

/-- `eof`: the value is complete, if need be by a byte that ends a number. -/
def Scanner.atEnd (s : Scanner) : Bool :=
  s.step == .endTop || (s.next 0x20).any fun s ↦ s.step == .endTop

/-- The scanner with what it has read of an outermost object: the text since the last
delimiter, the key that the text is a value for, and the members before it. -/
structure Reader where
  scanner : Scanner
  text : Bytes
  key : Bytes
  members : List (Bytes × Bytes)
  deriving DecidableEq, Repr

def Reader.next (r : Reader) (c : UInt8) : Option Reader :=
  match r.scanner.next c with
  | none => none
  | some s =>
    some <|
      match r.scanner.stack, s.stack with
      | [], [.objectKey] => ⟨s, [], [], []⟩
      | [.objectKey], [.objectValue] => ⟨s, [], r.text, r.members⟩
      | [.objectValue], [.objectKey] => ⟨s, [], [], r.members ++ [(r.key, r.text)]⟩
      | [.objectValue], [] => ⟨s, [], [], r.members ++ [(r.key, r.text)]⟩
      | _, _ =>
        if isSpace c ∧ r.scanner.step ≠ .inString then { r with scanner := s }
        else { r with scanner := s, text := r.text ++ [c] }

def read (r : Reader) : Bytes → Option Reader
  | [] => some r
  | c :: rest =>
    match r.next c with
    | none => none
    | some r => read r rest

def Reader.start : Reader := ⟨.start, [], [], []⟩

/-- A decoded document: the members of an object, or the text of another value. -/
inductive Document where
  | object (members : List (Bytes × Bytes))
  | other (text : Bytes)
  deriving DecidableEq, Repr

/-- The document, if it is valid JSON. -/
def document (bs : Bytes) : Option Document :=
  match read .start bs with
  | none => none
  | some r =>
    if r.scanner.atEnd then
      if (bs.dropWhile isSpace).head? = some leftBrace then some (.object r.members)
      else some (.other r.text)
    else none

section Ends

/-- An object or array is open. -/
def Scanner.Inside (s : Scanner) : Prop := s.stack ≠ [] ∧ s.step ≠ .endTop

/-- The value is complete. -/
def Scanner.Ended (s : Scanner) : Prop := s = ⟨.endTop, []⟩

variable {s t : Scanner} {c : UInt8} {stack : List Open}

theorem pop_inside_or_ended (outer : List Open) : (pop outer).Inside ∨ (pop outer).Ended := by
  unfold pop
  split_ifs with houter
  · subst houter
    exact Or.inr rfl
  · exact Or.inl ⟨houter, by simp⟩

theorem endValue_inside (hstack : stack ≠ []) (h : endValue stack c = some t) :
    t.Inside ∨ t.Ended := by
  cases stack with
  | nil => exact absurd rfl hstack
  | cons o outer =>
    cases o <;> simp only [endValue] at h <;> split_ifs at h <;> cases h <;>
      first
        | exact pop_inside_or_ended outer
        | exact Or.inl ⟨by simp, by simp⟩

theorem push_inside {step : Step} (hstep : step ≠ .endTop) {o : Open}
    (h : push step o stack = some t) : t.Inside := by
  unfold push at h
  split_ifs at h
  cases h
  exact ⟨by simp, hstep⟩

theorem of_ite_eq_some {p Q : Prop} [Decidable p] {a b : Option Scanner} (ha : a = some t → Q)
    (hb : b = some t → Q) (h : (if p then a else b) = some t) : Q := by
  by_cases hp : p
  · exact ha ((if_pos hp).symm.trans h)
  · exact hb ((if_neg hp).symm.trans h)

theorem beginValue_inside (hstack : stack ≠ []) (h : beginValue stack c = some t) : t.Inside := by
  have hkeep {step : Step} (hstep : step ≠ .endTop) (h : some ⟨step, stack⟩ = some t) :
      t.Inside := by
    cases h
    exact ⟨hstack, hstep⟩
  refine of_ite_eq_some (hkeep (by nofun)) (of_ite_eq_some (push_inside (by nofun))
    (of_ite_eq_some (push_inside (by nofun)) ?_)) h
  refine of_ite_eq_some (hkeep (by nofun)) (of_ite_eq_some (hkeep (by nofun))
    (of_ite_eq_some (hkeep (by nofun)) ?_))
  refine of_ite_eq_some (hkeep (by nofun)) (of_ite_eq_some (hkeep (by nofun))
    (of_ite_eq_some (hkeep (by nofun)) ?_))
  exact of_ite_eq_some (hkeep (by nofun)) nofun

theorem beginString_inside (hstack : stack ≠ []) (h : beginString stack c = some t) :
    t.Inside := by
  unfold beginString at h
  split_ifs at h <;> cases h <;> exact ⟨hstack, by simp⟩

theorem stringNext_ne_endTop {step step' : Step} (h : stringNext step c = some step') :
    step' ≠ .endTop := by
  cases step <;> simp only [stringNext] at h <;> (try split_ifs at h) <;> cases h <;> simp

theorem digits0_inside (hstack : stack ≠ []) (h : digits0 stack c = some t) :
    t.Inside ∨ t.Ended := by
  unfold digits0 at h
  split_ifs at h
  · cases h
    exact Or.inl ⟨hstack, by simp⟩
  · cases h
    exact Or.inl ⟨hstack, by simp⟩
  · exact endValue_inside hstack h

theorem exponentSign_inside (hstack : stack ≠ []) (h : exponentSign stack c = some t) :
    t.Inside := by
  unfold exponentSign at h
  split_ifs at h
  cases h
  exact ⟨hstack, by simp⟩

/-- Inside an object or array, a byte leads to the inside again or ends the document. -/
theorem Scanner.Inside.next (hs : s.Inside) (h : s.next c = some t) : t.Inside ∨ t.Ended := by
  obtain ⟨step, stack⟩ := s
  obtain ⟨hstack, hstep⟩ := hs
  have hkeep {step' : Step} (hne : step' ≠ .endTop) : Scanner.Inside ⟨step', stack⟩ := ⟨hstack, hne⟩
  unfold Scanner.next at h
  split at h
  · exact Or.inl (beginValue_inside hstack h)
  · split_ifs at h
    · cases h
      exact Or.inl ⟨hstack, hstep⟩
    · exact endValue_inside hstack h
    · exact Or.inl (beginValue_inside hstack h)
  · split_ifs at h
    · cases h
      exact Or.inl ⟨hstack, hstep⟩
    · exact endValue_inside (by simp) h
    · exact Or.inl (beginString_inside hstack h)
  · exact Or.inl (beginString_inside hstack h)
  · exact endValue_inside hstack h
  · rename_i hend
    exact absurd hend hstep
  · split_ifs at h <;> cases h <;> exact Or.inl (hkeep (by simp))
  · split_ifs at h
    · cases h
      exact Or.inl (hkeep (by simp))
    · exact digits0_inside hstack h
  · exact digits0_inside hstack h
  · split_ifs at h
    cases h
    exact Or.inl (hkeep (by simp))
  · split_ifs at h
    · cases h
      exact Or.inl (hkeep (by simp))
    · cases h
      exact Or.inl (hkeep (by simp))
    · exact endValue_inside hstack h
  · split_ifs at h
    · cases h
      exact Or.inl (hkeep (by simp))
    · exact Or.inl (exponentSign_inside hstack h)
  · exact Or.inl (exponentSign_inside hstack h)
  · split_ifs at h
    · cases h
      exact Or.inl (hkeep (by simp))
    · exact endValue_inside hstack h
  · exact endValue_inside hstack h
  · split_ifs at h <;> cases h <;> exact Or.inl (hkeep (by simp))
  · obtain ⟨step', hstep', rfl⟩ := Option.map_eq_some_iff.mp h
    exact Or.inl (hkeep (stringNext_ne_endTop hstep'))

/-- After the document only white space may follow. -/
theorem Scanner.Ended.next (hs : s.Ended) (h : s.next c = some t) :
    isSpace c = true ∧ t.Ended := by
  subst hs
  change endTop c = some t at h
  unfold endTop at h
  split_ifs at h with hspace
  cases h
  exact ⟨hspace, rfl⟩

theorem Scanner.Inside.scan {bs : Bytes} (hs : s.Inside ∨ s.Ended) (h : scan s bs = some t) :
    t.Inside ∨ t.Ended := by
  induction bs generalizing s with
  | nil =>
    cases h
    exact hs
  | cons c rest ih =>
    rw [Json.scan] at h
    split at h
    · cases h
    · rename_i u hu
      refine ih ?_ h
      rcases hs with hs | hs
      · exact hs.next hu
      · exact Or.inr (hs.next hu).2

theorem endValue_space_stack (h : endValue stack 0x20 = some t) : t.stack = stack := by
  cases stack <;> cases h <;> rfl

/-- White space opens and closes nothing. -/
theorem Scanner.next_space_stack (h : s.next 0x20 = some t) (htop : s.step ≠ .endTop) :
    t.stack = s.stack := by
  obtain ⟨step, stack⟩ := s
  cases step with
  | endTop => exact absurd rfl htop
  | endValue => exact endValue_space_stack h
  | digits1 => exact endValue_space_stack h
  | digits0 => exact endValue_space_stack h
  | dot0 => exact endValue_space_stack h
  | exponent0 => exact endValue_space_stack h
  | word letters =>
    cases letters with
    | nil => exact endValue_space_stack h
    | cons letter letters =>
      simp only [Scanner.next] at h
      split_ifs at h <;> cases h <;> rfl
  | _ => cases h <;> rfl

/-- An open object or array is not the end of a document. -/
theorem Scanner.Inside.not_atEnd (hs : s.Inside) : s.atEnd = false := by
  have hstep : (s.step == .endTop) = false := by simpa using hs.2
  rw [Scanner.atEnd, hstep, Bool.false_or]
  cases hnext : s.next 0x20 with
  | none => rfl
  | some t =>
    have hstack := Scanner.next_space_stack hnext hs.2
    have hinside : t.Inside := by
      rcases hs.next hnext with ht | ht
      · exact ht
      · subst ht
        exact absurd hstack.symm hs.1
    simpa using hinside.2

end Ends

section Append

theorem read_append (r : Reader) (as bs : Bytes) :
    read r (as ++ bs) = (read r as).bind fun t ↦ read t bs := by
  induction as generalizing r with
  | nil => rfl
  | cons c as ih =>
    simp only [List.cons_append, read]
    cases r.next c with
    | none => rfl
    | some t => exact ih t

theorem Reader.next_scanner {r r' : Reader} {c : UInt8} (h : r.next c = some r') :
    r.scanner.next c = some r'.scanner := by
  unfold Reader.next at h
  split at h
  · cases h
  · rename_i s hs
    cases h
    rw [hs]
    congr 1
    split <;> first | rfl | (split_ifs <;> rfl)

theorem read_scanner {r r' : Reader} {bs : Bytes} (h : read r bs = some r') :
    scan r.scanner bs = some r'.scanner := by
  induction bs generalizing r with
  | nil =>
    cases h
    rfl
  | cons c bs ih =>
    rw [read] at h
    split at h
    · cases h
    · rename_i t ht
      rw [scan, Reader.next_scanner ht]
      exact ih h

theorem Reader.next_ended {r : Reader} (hr : r.scanner.Ended) (c : UInt8) :
    r.next c = if isSpace c then some r else none := by
  obtain ⟨scanner, text, key, members⟩ := r
  cases hr
  by_cases hspace : isSpace c <;> simp [Reader.next, Scanner.next, endTop, hspace]

/-- After the end exactly white space can be read, and it changes nothing. -/
theorem read_ended {r : Reader} (hr : r.scanner.Ended) (bs : Bytes) :
    read r bs = if bs.all isSpace then some r else none := by
  induction bs with
  | nil => rfl
  | cons c bs ih =>
    rw [read, Reader.next_ended hr]
    by_cases hspace : isSpace c
    · simp [hspace, ih]
    · simp [hspace]

/-- White space before the document does not matter. -/
theorem scan_dropWhile (bs : Bytes) : scan .start bs = scan .start (bs.dropWhile isSpace) := by
  induction bs with
  | nil => rfl
  | cons c bs ih =>
    rw [List.dropWhile_cons]
    split_ifs with hspace
    · rw [← ih, scan]
      simp [Scanner.start, Scanner.next, beginValue, hspace]
    · rfl

/-- A document that is an object was read to its closing brace. -/
theorem ended_of_object {bs : Bytes} {s : Scanner} (h : scan .start bs = some s)
    (hend : s.atEnd = true) (hbrace : (bs.dropWhile isSpace).head? = some leftBrace) : s.Ended := by
  rw [scan_dropWhile] at h
  cases hdrop : bs.dropWhile isSpace with
  | nil => simp [hdrop] at hbrace
  | cons c rest =>
    simp only [hdrop, List.head?_cons, Option.some.injEq] at hbrace
    subst hbrace
    rw [hdrop] at h
    change scan ⟨.beginStringOrEmpty, [.objectKey]⟩ rest = some s at h
    rcases Scanner.Inside.scan (Or.inl ⟨by simp, by simp⟩) h with hs | hs
    · rw [hs.not_atEnd] at hend
      cases hend
    · exact hs

theorem document_object {bs : Bytes} {members : List (Bytes × Bytes)}
    (h : document bs = some (.object members)) :
    ∃ r, read .start bs = some r ∧ r.scanner.atEnd = true ∧
      (bs.dropWhile isSpace).head? = some leftBrace ∧ r.members = members := by
  unfold document at h
  split at h
  · cases h
  · rename_i r hr
    split_ifs at h with hend hbrace
    · cases h
      exact ⟨r, hr, hend, hbrace, rfl⟩
    · cases h

/-- Only white space can follow a document that is an object, and it changes nothing. -/
theorem document_append {bs rest : Bytes} {members : List (Bytes × Bytes)} {d : Document}
    (h : document bs = some (.object members)) (happend : document (bs ++ rest) = some d) :
    rest.all isSpace = true ∧ d = .object members := by
  obtain ⟨r, hread, hend, hbrace, rfl⟩ := document_object h
  have hended := ended_of_object (read_scanner hread) hend hbrace
  have hhead : ((bs ++ rest).dropWhile isSpace).head? = some leftBrace := by
    rw [List.dropWhile_append]
    cases hdrop : bs.dropWhile isSpace with
    | nil => simp [hdrop] at hbrace
    | cons c tail => simpa [hdrop] using hbrace
  unfold document at happend
  simp only [read_append, hread, Option.bind_some, hhead, if_true] at happend
  split at happend
  · cases happend
  · rename_i r' hr'
    rw [read_ended hended] at hr'
    obtain ⟨hspace, hsame⟩ := Option.ite_none_right_eq_some.mp hr'
    cases hsame
    split_ifs at happend
    cases happend
    exact ⟨hspace, rfl⟩

end Append

section Strings

/-- The states inside a string over a text. -/
def stringRun (step : Step) : Bytes → Option Step
  | [] => some step
  | c :: rest =>
    match stringNext step c with
    | none => none
    | some step => stringRun step rest

theorem stringRun_append (step : Step) (as bs : Bytes) :
    stringRun step (as ++ bs) = (stringRun step as).bind fun step ↦ stringRun step bs := by
  induction as generalizing step with
  | nil => rfl
  | cons c as ih =>
    simp only [List.cons_append, stringRun]
    cases stringNext step c with
    | none => rfl
    | some step => exact ih step

theorem stringRun_unicodeEscape (n : ℕ) :
    stringRun .inString (unicodeEscape n) = some .inString := by
  have hhex (k : ℕ) : (hexValue (hexDigit (k % 16))).isSome = true := by
    rw [hexValue_hexDigit _ (Nat.mod_lt k (by decide))]
    rfl
  have hopen : stringNext .inString backslash = some .inStringEsc := by decide
  have hletter : stringNext .inStringEsc 0x75 = some .inStringEscU := by decide
  simp only [unicodeEscape, stringRun, hopen, hletter]
  simp only [stringNext, hhex, if_true]

theorem stringRun_escapeAscii : ∀ n < 128,
    stringRun .inString (escapeAscii (UInt8.ofNat n)) = some .inString := by decide +kernel

/-- Bytes that mean nothing to the scanner inside a string. -/
theorem stringRun_plain {bs : Bytes}
    (h : ∀ b ∈ bs, b ≠ quoteMark ∧ b ≠ backslash ∧ 0x20 ≤ b.toNat) :
    stringRun .inString bs = some .inString := by
  induction bs with
  | nil => rfl
  | cons b bs ih =>
    obtain ⟨hquote, hbackslash, hge⟩ := h b List.mem_cons_self
    have hcontrol : ¬ b < 0x20 := by
      intro hlt
      have hlt : b.toNat < 32 := hlt
      omega
    have hstep : stringNext .inString b = some .inString := by
      simp [stringNext, hquote, hbackslash, hcontrol]
    rw [stringRun, hstep]
    exact ih fun b' hb' ↦ h b' (List.mem_cons_of_mem b hb')

theorem stringRun_escape (segment : Segment) :
    stringRun .inString (escape segment) = some .inString := by
  cases segment with
  | bad b => exact stringRun_unicodeEscape _
  | char c =>
    simp only [escape]
    split_ifs with hascii hline
    · have hlt : c.toUInt8.toNat < 128 := by
        rw [toNat_toUInt8 hascii]
        exact Nat.lt_succ_of_le hascii
      have hrun := stringRun_escapeAscii _ hlt
      rwa [UInt8.ofNat_toNat] at hrun
    · exact stringRun_unicodeEscape _
    · refine stringRun_plain fun b hb ↦ ?_
      have hge := le_of_mem_encodeChar (UInt32.not_le.mp hascii) hb
      refine ⟨?_, ?_, by omega⟩
      · rintro rfl
        exact absurd hge (by decide)
      · rintro rfl
        exact absurd hge (by decide)

theorem stringRun_escapeString (s : Bytes) :
    stringRun .inString (escapeString s) = some .inString := by
  unfold escapeString
  induction segments s with
  | nil => rfl
  | cons segment segs ih =>
    rw [List.flatMap_cons, stringRun_append, stringRun_escape, Option.bind_some, ih]

/-- Inside a string white space is part of it, and nothing opens or closes. -/
theorem Reader.next_string {step step' : Step} {stack : List Open} {text key : Bytes}
    {members : List (Bytes × Bytes)} {c : UInt8} (h : stringNext step c = some step') :
    Reader.next ⟨⟨step, stack⟩, text, key, members⟩ c =
      some ⟨⟨step', stack⟩, text ++ [c], key, members⟩ := by
  have hnext : Scanner.next ⟨step, stack⟩ c = some ⟨step', stack⟩ := by
    cases step <;> first | (simp [stringNext] at h; done) | simp [Scanner.next, h]
  have hspace : ¬ (isSpace c ∧ step ≠ .inString) := by
    rintro ⟨hspace, hne⟩
    simp only [isSpace, Bool.or_eq_true, beq_iff_eq, or_assoc] at hspace
    rcases hspace with rfl | rfl | rfl | rfl <;> cases step <;>
      first
        | exact hne rfl
        | exact absurd h (by decide)
        | cases h
  unfold Reader.next
  rw [hnext]
  simp only [Option.some.injEq]
  split
  all_goals first | rw [if_neg hspace] | simp_all

theorem read_string {step step' : Step} {stack : List Open} {text key bs : Bytes}
    {members : List (Bytes × Bytes)} (h : stringRun step bs = some step') :
    read ⟨⟨step, stack⟩, text, key, members⟩ bs =
      some ⟨⟨step', stack⟩, text ++ bs, key, members⟩ := by
  induction bs generalizing step text with
  | nil =>
    cases h
    simp [read]
  | cons c bs ih =>
    rw [stringRun] at h
    split at h
    · cases h
    · rename_i next hnext
      rw [read, Reader.next_string hnext]
      simp only
      rw [ih h, List.append_assoc, List.singleton_append]

theorem stringRun_close {bs : Bytes} (h : stringRun .inString bs = some .inString) :
    stringRun .inString (bs ++ [quoteMark]) = some .endValue := by
  rw [stringRun_append, h]
  rfl

end Strings

section Objects

/-- A text that is one value of a member: reading it leaves the scanner where a comma or a
line break ends the value. -/
def IsValue (v : Bytes) : Prop :=
  ∃ step, (∀ text key members, read ⟨⟨.beginValue, [.objectValue]⟩, text, key, members⟩ v =
      some ⟨⟨step, [.objectValue]⟩, text ++ v, key, members⟩) ∧
    ∀ c ∈ [comma, 0x0a], Scanner.next ⟨step, [.objectValue]⟩ c = endValue [.objectValue] c

theorem isValue_quoted {bs : Bytes} (h : stringRun .inString bs = some .inString) :
    IsValue (quoteMark :: bs ++ [quoteMark]) := by
  refine ⟨.endValue, fun text key members ↦ ?_, fun c _ ↦ rfl⟩
  have hopen : Reader.next ⟨⟨.beginValue, [.objectValue]⟩, text, key, members⟩ quoteMark =
      some ⟨⟨.inString, [.objectValue]⟩, text ++ [quoteMark], key, members⟩ := rfl
  rw [List.cons_append, read, hopen]
  simp only
  rw [read_string (stringRun_close h), List.append_assoc, List.singleton_append]

theorem isValue_appendString (s : Bytes) : IsValue (appendString s) :=
  isValue_quoted (stringRun_escapeString s)

/-- The digit one is a value. -/
theorem isValue_one : IsValue [0x31] :=
  ⟨.digits1, fun _ _ _ ↦ rfl, by decide +kernel⟩

/-- A member as `MarshalIndent` writes it with two blanks of indentation. -/
def memberText (name value : Bytes) : Bytes :=
  [0x0a, 0x20, 0x20] ++ (appendString name ++ ([colon, 0x20] ++ value))

/-- The members after the first. -/
def membersText : List (Bytes × Bytes) → Bytes
  | [] => [0x0a, rightBrace]
  | (name, value) :: rest => comma :: memberText name value ++ membersText rest

/-- `MarshalIndent` of an object, from its names and its encoded values. -/
def objectText : List (Bytes × Bytes) → Bytes
  | [] => [leftBrace, rightBrace]
  | (name, value) :: rest => leftBrace :: memberText name value ++ membersText rest

theorem exists_membersText (members : List (Bytes × Bytes)) :
    ∃ bs, membersText members = bs ++ [rightBrace] := by
  induction members with
  | nil => exact ⟨[0x0a], rfl⟩
  | cons m rest ih =>
    obtain ⟨bs, hbs⟩ := ih
    exact ⟨comma :: memberText m.1 m.2 ++ bs, by rw [membersText, hbs, List.append_assoc]⟩

/-- The last byte of an object. -/
theorem exists_objectText (members : List (Bytes × Bytes)) :
    ∃ bs, objectText members = bs ++ [rightBrace] := by
  cases members with
  | nil => exact ⟨[leftBrace], rfl⟩
  | cons m rest =>
    obtain ⟨bs, hbs⟩ := exists_membersText rest
    exact ⟨leftBrace :: memberText m.1 m.2 ++ bs, by rw [objectText, hbs, List.append_assoc]⟩

theorem read_memberText {step : Step} (hstep : step = .beginString ∨ step = .beginStringOrEmpty)
    (name : Bytes) {value : Bytes} (hvalue : IsValue value) (members : List (Bytes × Bytes)) :
    ∃ step', read ⟨⟨step, [.objectKey]⟩, [], [], members⟩ (memberText name value) =
        some ⟨⟨step', [.objectValue]⟩, value, appendString name, members⟩ ∧
      ∀ c ∈ [comma, 0x0a], Scanner.next ⟨step', [.objectValue]⟩ c = endValue [.objectValue] c := by
  obtain ⟨step', hread, hnext⟩ := hvalue
  refine ⟨step', ?_, hnext⟩
  have hindent : read ⟨⟨step, [.objectKey]⟩, [], [], members⟩ [0x0a, 0x20, 0x20] =
      some ⟨⟨step, [.objectKey]⟩, [], [], members⟩ := by
    rcases hstep with rfl | rfl <;> rfl
  have hquote : Reader.next ⟨⟨step, [.objectKey]⟩, [], [], members⟩ quoteMark =
      some ⟨⟨.inString, [.objectKey]⟩, [quoteMark], [], members⟩ := by
    rcases hstep with rfl | rfl <;> rfl
  have hname : read ⟨⟨step, [.objectKey]⟩, [], [], members⟩ (appendString name) =
      some ⟨⟨.endValue, [.objectKey]⟩, appendString name, [], members⟩ := by
    rw [appendString, List.cons_append, read, hquote]
    exact read_string (stringRun_close (stringRun_escapeString name))
  have hcolon (text : Bytes) : read ⟨⟨.endValue, [.objectKey]⟩, text, [], members⟩ [colon, 0x20] =
      some ⟨⟨.beginValue, [.objectValue]⟩, [], text, members⟩ := rfl
  simp only [memberText, read_append, hindent, hname, hcolon, hread, Option.bind_some,
    List.nil_append]

theorem read_membersText {step : Step}
    (hstep : ∀ c ∈ [comma, 0x0a], Scanner.next ⟨step, [.objectValue]⟩ c = endValue [.objectValue] c)
    (rest : List (Bytes × Bytes)) (hrest : ∀ m ∈ rest, IsValue m.2) (name value : Bytes)
    (members : List (Bytes × Bytes)) :
    read ⟨⟨step, [.objectValue]⟩, value, name, members⟩ (membersText rest) =
      some ⟨⟨.endTop, []⟩, [], [], members ++ (name, value) ::
        rest.map fun m ↦ (appendString m.1, m.2)⟩ := by
  induction rest generalizing step name value members with
  | nil =>
    have hnewline := hstep 0x0a (by simp)
    have hstring : step ≠ .inString := by
      rintro rfl
      cases hnewline
    have hnext : Reader.next ⟨⟨step, [.objectValue]⟩, value, name, members⟩ 0x0a =
        some ⟨⟨.endValue, [.objectValue]⟩, value, name, members⟩ := by
      simp only [Reader.next, hnewline]
      exact congrArg some (if_pos ⟨rfl, hstring⟩)
    rw [membersText, read, hnext]
    rfl
  | cons m rest ih =>
    obtain ⟨name', value'⟩ := m
    obtain ⟨step', hread, hstep'⟩ := read_memberText (Or.inl rfl) name'
      (hrest (name', value') List.mem_cons_self) (members ++ [(name, value)])
    have hcomma := hstep comma (by simp)
    have hnext : Reader.next ⟨⟨step, [.objectValue]⟩, value, name, members⟩ comma =
        some ⟨⟨.beginString, [.objectKey]⟩, [], [], members ++ [(name, value)]⟩ := by
      simp only [Reader.next, hcomma]
      rfl
    rw [membersText, List.cons_append, read, hnext]
    simp only [read_append, hread, Option.bind_some]
    rw [ih hstep' (fun m hm ↦ hrest m (List.mem_cons_of_mem _ hm)), List.append_assoc]
    rfl

/-- Reading an object that was written, with white space after it. -/
theorem document_objectText {name value : Bytes} {rest : List (Bytes × Bytes)}
    (hvalues : ∀ m ∈ (name, value) :: rest, IsValue m.2) {space : Bytes}
    (hspace : space.all isSpace = true) :
    document (objectText ((name, value) :: rest) ++ space) =
      some (.object (((name, value) :: rest).map fun m ↦ (appendString m.1, m.2))) := by
  obtain ⟨step, hread, hstep⟩ := read_memberText (Or.inr rfl) name
    (hvalues (name, value) List.mem_cons_self) []
  have hrest := read_membersText hstep rest (fun m hm ↦ hvalues m (List.mem_cons_of_mem _ hm))
    (appendString name) value []
  have hopen : Reader.next .start leftBrace =
      some ⟨⟨.beginStringOrEmpty, [.objectKey]⟩, [], [], []⟩ := rfl
  have htail (members : List (Bytes × Bytes)) : read ⟨⟨.endTop, []⟩, [], [], members⟩ space =
      some ⟨⟨.endTop, []⟩, [], [], members⟩ := by
    have hended : Scanner.Ended ⟨.endTop, []⟩ := rfl
    rw [read_ended hended, if_pos hspace]
  unfold document
  rw [objectText, List.cons_append, List.cons_append, read, hopen]
  simp only [read_append, hread, hrest, htail, Option.bind_some]
  rfl

end Objects

end RelayCat.Json
