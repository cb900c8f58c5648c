import RelayCat.Go.Errors
import Mathlib.Logic.Function.Basic

/-!
# Noise transports over an ideal authenticated cipher

`Finish` and `Respond` turn the two cipher states of one completed handshake into two
transports. The cipher itself is a parameter. Its authenticity is stated through a ledger
of what `Encrypt` has produced under each key: `Decrypt` at counter `n` succeeds exactly on
the `n`-th entry of its key's ledger, and a failed `Decrypt` leaves the counter unchanged.
-/

namespace RelayCat.Noise

open Go

/-- A key and the number of messages processed under it. -/
structure CipherState (K : Type) where
  key : K
  n : ℕ
  deriving DecidableEq, Repr

/-- The outcome of a handshake: one key per direction, the initiator's sending key first. -/
structure Split (K : Type) where
  first : K
  second : K
  distinct : first ≠ second

/-- What `ReadMessage` and `WriteMessage` return with the last handshake message, in the
same order on both sides. -/
def Split.cipherStates {K : Type} (split : Split K) : CipherState K × CipherState K :=
  (⟨split.first, 0⟩, ⟨split.second, 0⟩)

structure Transport (K : Type) where
  send : CipherState K
  recv : CipherState K
  deriving DecidableEq, Repr

/-- The transport that `Initiator.Finish` builds. -/
def finish {K : Type} (split : Split K) : Transport K :=
  let (send, recv) := split.cipherStates
  { send := send, recv := recv }

/-- The transport that `Respond` builds. -/
def respond {K : Type} (split : Split K) : Transport K :=
  let (recv, send) := split.cipherStates
  { send := send, recv := recv }

/-- One output of `Encrypt` with its input. -/
structure Sealed where
  plaintext : Bytes
  ciphertext : Bytes
  deriving DecidableEq, Repr

/-- Everything `Encrypt` has produced so far, by key and in counter order. -/
abbrev Ledger (K : Type) := K → List Sealed

/-- The cipher: key, counter and plaintext to ciphertext, or a failure such as an exhausted
counter. -/
abbrev Cipher (K : Type) := K → ℕ → Bytes → Option Bytes

/-- One more message sent. -/
def Transport.sent {K : Type} (t : Transport K) : Transport K :=
  { t with send := { t.send with n := t.send.n + 1 } }

/-- One more message received. -/
def Transport.received {K : Type} (t : Transport K) : Transport K :=
  { t with recv := { t.recv with n := t.recv.n + 1 } }

variable {K : Type}

/-- `Transport.Encrypt`. -/
def Transport.encrypt [DecidableEq K] (cipher : Cipher K) (ledger : Ledger K) (t : Transport K)
    (plaintext : Bytes) : Except Err (Bytes × Ledger K × Transport K) :=
  match cipher t.send.key t.send.n plaintext with
  | none => .error (.errorf "encrypting frame" (.new "noise: cipher failure"))
  | some ciphertext =>
    .ok (ciphertext,
      Function.update ledger t.send.key (ledger t.send.key ++ [⟨plaintext, ciphertext⟩]),
      t.sent)

/-- `Transport.Decrypt`. -/
def Transport.decrypt (ledger : Ledger K) (t : Transport K) (ciphertext : Bytes) :
    Except Err (Bytes × Transport K) :=
  match (ledger t.recv.key)[t.recv.n]? with
  | none => .error (.errorf "decrypting frame" (.new "noise: message authentication failed"))
  | some entry =>
    if entry.ciphertext = ciphertext then
      .ok (entry.plaintext, t.received)
    else .error (.errorf "decrypting frame" (.new "noise: message authentication failed"))

theorem Transport.encrypt_ok [DecidableEq K] {cipher : Cipher K} {ledger ledger' : Ledger K}
    {t t' : Transport K} {plaintext ciphertext : Bytes}
    (h : t.encrypt cipher ledger plaintext = .ok (ciphertext, ledger', t')) :
    ledger' = Function.update ledger t.send.key
        (ledger t.send.key ++ [⟨plaintext, ciphertext⟩]) ∧
      t' = t.sent := by
  unfold Transport.encrypt at h
  split at h
  · contradiction
  · simp only [Except.ok.injEq, Prod.mk.injEq] at h
    obtain ⟨rfl, rfl, rfl⟩ := h
    exact ⟨rfl, rfl⟩

theorem Transport.decrypt_ok {ledger : Ledger K} {t t' : Transport K}
    {plaintext ciphertext : Bytes}
    (h : t.decrypt ledger ciphertext = .ok (plaintext, t')) :
    (ledger t.recv.key)[t.recv.n]? = some ⟨plaintext, ciphertext⟩ ∧
      t' = t.received := by
  unfold Transport.decrypt at h
  split at h
  · contradiction
  · rename_i entry hentry
    split_ifs at h with hcipher
    simp only [Except.ok.injEq, Prod.mk.injEq] at h
    obtain ⟨rfl, rfl⟩ := h
    exact ⟨by rw [hentry, ← hcipher], rfl⟩

theorem Transport.decrypt_of_entry {ledger : Ledger K} {t : Transport K}
    {plaintext ciphertext : Bytes}
    (h : (ledger t.recv.key)[t.recv.n]? = some ⟨plaintext, ciphertext⟩) :
    t.decrypt ledger ciphertext = .ok (plaintext, t.received) := by
  simp [Transport.decrypt, h]

end RelayCat.Noise
