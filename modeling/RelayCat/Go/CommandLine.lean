import RelayCat.Go.Utf8

/-!
# Windows command lines

A Windows process is started with one text. `syscall.EscapeArg` writes an argument such that the
C runtime reads it back, and package `os` splits the text of its own process by the same rules:
backslashes stand for themselves, unless a double quote follows. The text is kept in UTF-16.
-/

namespace RelayCat.Go.CommandLine

open Utf8

def quote : UInt8 := 0x22

def backslash : UInt8 := 0x5c

def space : UInt8 := 0x20

def isBlank (c : UInt8) : Bool := c == space || c == 0x09

def slashes (n : ℕ) : Bytes := List.replicate n backslash

/-- The loop of `EscapeArg`, after some backslashes; `quoted` if the argument has a blank. -/
def escapeFrom (quoted : Bool) (n : ℕ) : Bytes → Bytes
  | [] => if quoted then slashes n ++ [quote] else []
  | c :: rest =>
    if c = backslash then c :: escapeFrom quoted (n + 1) rest
    else if c = quote then slashes n ++ backslash :: c :: escapeFrom quoted 0 rest
    else c :: escapeFrom quoted 0 rest

def escapeArg (s : Bytes) : Bytes :=
  if s = [] then [quote, quote]
  else if s.any isBlank then quote :: escapeFrom true 0 s
  else if s.any fun c ↦ c == quote || c == backslash then escapeFrom false 0 s
  else s

/-- The loop of `readNextArg`, with the argument so far: within quotes or not, and after some
backslashes. -/
def readFrom (inquote : Bool) (n : ℕ) (arg : Bytes) : Bytes → Bytes × Bytes
  | [] => (arg ++ slashes n, [])
  | c :: rest =>
    if isBlank c ∧ inquote = false then (arg ++ slashes n, rest)
    else if c = quote then
      if n % 2 = 0 then
        if inquote ∧ rest.head? = some quote then
          readFrom false 0 (arg ++ slashes (n / 2) ++ [c]) rest.tail
        else readFrom (!inquote) 0 (arg ++ slashes (n / 2)) rest
      else readFrom inquote 0 (arg ++ slashes (n / 2) ++ [c]) rest
    else if c = backslash then readFrom inquote (n + 1) arg rest
    else readFrom inquote 0 (arg ++ slashes n ++ [c]) rest
  termination_by cmd => cmd.length

def readNextArg (cmd : Bytes) : Bytes × Bytes := readFrom false 0 [] cmd

section Split

variable {s rest : Bytes} {c : UInt8} {quoted inquote : Bool} {n : ℕ} {arg : Bytes}

theorem readFrom_length (inquote : Bool) (n : ℕ) (arg : Bytes) (cmd : Bytes) :
    (readFrom inquote n arg cmd).2.length ≤ cmd.length - 1 := by
  fun_induction readFrom inquote n arg cmd <;> simp_all <;> omega

/-- `commandLineToArgv`: blanks between the arguments are skipped. -/
def commandLineToArgv : Bytes → List Bytes
  | [] => []
  | c :: cmd =>
    if isBlank c then commandLineToArgv cmd
    else (readNextArg (c :: cmd)).1 :: commandLineToArgv (readNextArg (c :: cmd)).2
  termination_by cmd => cmd.length
  decreasing_by
    · simp
    · have hle := readFrom_length false 0 [] (c :: cmd)
      simp only [readNextArg, List.length_cons] at *
      omega

/-- The command line of an executable and its arguments. -/
def commandLine (executable : Bytes) (args : List Bytes) : Bytes :=
  escapeArg executable ++ args.flatMap fun arg ↦ space :: escapeArg arg

/-- What stands behind an argument. -/
def Ends (rest : Bytes) : Prop := rest = [] ∨ rest.head? = some space

end Split

section Utf16

def isHigh (u : UInt16) : Bool := 0xd800 ≤ u.toNat && u.toNat < 0xdc00

def isLow (u : UInt16) : Bool := 0xdc00 ≤ u.toNat && u.toNat < 0xe000

/-- The bytes of one unit; a surrogate alone is kept in the pattern of three bytes. -/
def unitBytes (u : UInt16) : Bytes :=
  if isHigh u || isLow u then
    [UInt8.ofNat (0xe0 + u.toNat / 0x1000), UInt8.ofNat (0x80 + u.toNat / 0x40 % 0x40),
      UInt8.ofNat (0x80 + u.toNat % 0x40)]
  else String.utf8EncodeChar (Char.ofNat u.toNat)

/-- The character of a pair of surrogates. -/
def pairRune (u v : UInt16) : Char :=
  Char.ofNat (0x10000 + (u.toNat - 0xd800) * 0x400 + (v.toNat - 0xdc00))

/-- `syscall.UTF16ToString`. -/
def utf16ToString : List UInt16 → Bytes
  | [] => []
  | [u] => unitBytes u
  | u :: v :: rest =>
    if isHigh u && isLow v then String.utf8EncodeChar (pairRune u v) ++ utf16ToString rest
    else unitBytes u ++ utf16ToString (v :: rest)

end Utf16

end RelayCat.Go.CommandLine
