import RelayCat.Go.Utf8

/-!
# Go's `net`: host and port, and what a listener is bound to

`net.SplitHostPort` on byte strings, `IP.IsLoopback`, and the addresses that
`net.Listen("tcp", addr)` may bind. Parsing an address literal and resolving a name are
parameters.
-/

namespace RelayCat.Go.Net

open Utf8

def colon : UInt8 := 0x3a

def leftBracket : UInt8 := 0x5b

def rightBracket : UInt8 := 0x5d

/-- The ways in which `SplitHostPort` fails. -/
inductive SplitErr where
  | missingPort
  | tooManyColons
  | missingBracket
  | unexpectedLeft
  | unexpectedRight
  deriving DecidableEq, Repr

/-- The bytes before and after the last occurrence of `c`. -/
def splitLast (c : UInt8) : Bytes → Option (Bytes × Bytes)
  | [] => none
  | b :: rest =>
    match splitLast c rest with
    | some (before, after) => some (b :: before, after)
    | none => if b = c then some ([], rest) else none

/-- The bytes before and after the first occurrence of `c`. -/
def splitFirst (c : UInt8) : Bytes → Option (Bytes × Bytes)
  | [] => none
  | b :: rest =>
    if b = c then some ([], rest)
    else (splitFirst c rest).map fun (before, after) ↦ (b :: before, after)

/-- The port starts after the last colon; a host with colons stands in brackets. -/
def splitHostPort (hostport : Bytes) : Except SplitErr (Bytes × Bytes) :=
  match splitLast colon hostport with
  | none => .error .missingPort
  | some (before, port) =>
    match hostport with
    | 0x5b :: inner =>
      match splitFirst rightBracket inner with
      | none => .error .missingBracket
      | some (host, after) =>
        if after = [] then .error .missingPort
        else if leftBracket :: host ++ [rightBracket] = before then
          if leftBracket ∈ inner then .error .unexpectedLeft
          else if rightBracket ∈ after then .error .unexpectedRight
          else .ok (host, port)
        else if after.head? = some colon then .error .tooManyColons
        else .error .missingPort
    | _ =>
      if colon ∈ before then .error .tooManyColons
      else if leftBracket ∈ hostport then .error .unexpectedLeft
      else if rightBracket ∈ hostport then .error .unexpectedRight
      else .ok (before, port)

/-- IP addresses; an IPv4-mapped IPv6 address is the IPv4 one, as `To4` has it. -/
inductive IP where
  | v4 (a b c d : UInt8)
  | v6 (bytes : List UInt8)
  deriving DecidableEq, Repr

/-- `IP.IsLoopback`. -/
def IP.isLoopback : IP → Bool
  | .v4 a _ _ _ => a == 127
  | .v6 bytes => bytes == List.replicate 15 0 ++ [1]

/-- `net.ParseIP` and the resolver; the empty string is no address. -/
structure Network where
  parseIP : Bytes → Option IP
  lookup : Bytes → List IP
  parseIP_nil : parseIP [] = none

/-- What a listener is bound to: one address, or every interface. -/
inductive Bound where
  | every
  | address (ip : IP)
  deriving DecidableEq, Repr

def Bound.isLoopback : Bound → Bool
  | .every => false
  | .address ip => ip.isLoopback

namespace Network

variable (net : Network)

/-- The addresses a host stands for. -/
def hostAddrs (host : Bytes) : List Bound :=
  if host = [] then [.every]
  else
    match net.parseIP host with
    | some ip => [.address ip]
    | none => (net.lookup host).map .address

/-- What `net.Listen("tcp", addr)` may bind; nothing if `addr` does not split. -/
def listenAddrs (addr : Bytes) : List Bound :=
  if addr = [] then [.every]
  else
    match splitHostPort addr with
    | .ok (host, _) => net.hostAddrs host
    | .error _ => []

/-- The check for loopback addresses by name or literal, before anything is resolved. -/
def namesLoopback (addr : Bytes) : Bool :=
  match splitHostPort addr with
  | .error _ => false
  | .ok (host, _) =>
    if host = literal "localhost" then true else (net.parseIP host).any IP.isLoopback

/-- The name `localhost` stands for loopback addresses only. -/
def LocalhostIsLoopback : Prop :=
  ∀ bound ∈ net.hostAddrs (literal "localhost"), bound.isLoopback = true

variable {net}

/-- A listener on an address that passes the check is bound to a loopback address. -/
theorem isLoopback_of_namesLoopback {addr : Bytes} {bound : Bound}
    (hlocal : net.LocalhostIsLoopback) (h : net.namesLoopback addr = true)
    (hbound : bound ∈ net.listenAddrs addr) : bound.isLoopback = true := by
  have hne : addr ≠ [] := by
    rintro rfl
    simp [namesLoopback, splitHostPort, splitLast] at h
  simp only [listenAddrs, if_neg hne] at hbound
  simp only [namesLoopback] at h
  split at h
  · contradiction
  · rename_i host port hsplit
    rw [hsplit] at hbound
    split_ifs at h with hhost
    · subst hhost
      exact hlocal bound hbound
    · obtain ⟨ip, hip, hloop⟩ : ∃ ip, net.parseIP host = some ip ∧ ip.isLoopback = true := by
        simpa [Option.any_eq_true] using h
      have hne : host ≠ [] := by
        rintro rfl
        rw [net.parseIP_nil] at hip
        contradiction
      simp only [hostAddrs, if_neg hne, hip, List.mem_singleton] at hbound
      rw [hbound]
      exact hloop

end Network

end RelayCat.Go.Net
