import RelayCat.Endpoint.Integrity

/-!
# What a nil result of `Bridge` says about the transfer

`Bridge` returns the first loop result that is not a normal close, so a nil result means that
the first of the two results was nil or a normal close. A first nil result comes only after the
peer's `HalfClose` or `Close`. A normal close can come first only out of the ciphertext stream,
or from a cancelled parent context: `net.ErrClosed` and the derived context's error need the
other loop to have returned before. An error of the stream ends the loop that got it, so it is
one of the two results, and only a normal close lets `Bridge` return nil past it.
-/

namespace RelayCat.Bridge

open Go Wire Noise Automaton

@[simp] theorem isNormalClose_errorf (message : String) (cause : Err) :
    isNormalClose (.errorf message cause) = isNormalClose cause := by
  simp only [isNormalClose]
  rw [Err.is_errorf (by simp), Err.is_errorf (by simp), Err.is_errorf (by simp)]

theorem isNormalClose_of_connErr {e : Err} (h : connErr false e = true) :
    isNormalClose e = false := by
  simp only [connErr, Bool.and_eq_true, Bool.not_eq_true', beq_iff_eq] at h
  obtain ⟨⟨hclosed, heof⟩, hcanceled⟩ := h
  simp [isNormalClose, hclosed, heof, hcanceled]

theorem bridgeResult_eq_none {first second : Option Err} (h : bridgeResult first second = none) :
    ∀ err, first = some err → isNormalClose err = true := by
  rintro err rfl
  by_contra hnot
  have hnot' : isNormalClose err = false := by simpa using hnot
  simp [bridgeResult, Option.filter, hnot'] at h

theorem bridgeResult_ne_none {first second : Option Err} {err : Err}
    (herr : isNormalClose err = false) (h : first = some err ∨ second = some err) :
    ∃ err', bridgeResult first second = some err' := by
  unfold bridgeResult
  cases hfirst : first.filter fun e ↦ !isNormalClose e with
  | some err' => exact ⟨err', rfl⟩
  | none =>
    rcases h with rfl | rfl
    · simp [Option.filter, herr] at hfirst
    · exact ⟨err, by simp [Option.filter, herr]⟩

/-- The failure of `conn.Read` that `sendLoop` will return once the bytes are sent. -/
def SendPc.readFailure : SendPc → Option Err
  | .sealing (.data _ (.failed err)) => some err
  | .transmitting (.data _ (.failed err)) _ => some err
  | _ => none

/-- `sendLoop` is past its wait for `remoteEOF`. -/
def SendPc.closing : SendPc → Bool
  | .sealing .close => true
  | .transmitting .close _ => true
  | _ => false

/-- The first loop result, once `Bridge` has taken it. -/
def BridgePc.firstResult : BridgePc → Option (Option Err)
  | .cancelling first => some first
  | .closingConn first => some first
  | .closingSend first => some first
  | .waitSecond first => some first
  | _ => none

/-- The number of loop results that `Bridge` has taken. -/
def BridgePc.taken : BridgePc → ℕ
  | .waitFirst => 0
  | .returned _ => 2
  | _ => 1

namespace Endpoint

variable {K : Type}

/-- The stream itself has ended in a way that counts as normal. -/
def StreamEnded (e : Endpoint K) : Prop := ∃ err ∈ e.streamErrors, isNormalClose err = true

/-- Why a loop result may lead to a nil result of `Bridge`. -/
def Explained (e : Endpoint K) (result : Option Err) : Prop :=
  (result = none → e.remoteEOF = true) ∧
  ∀ err, result = some err → isNormalClose err = true → e.StreamEnded ∨ e.parentDone = true

/-- The facts that explain results only ever become true. -/
structure Grows (e e' : Endpoint K) : Prop where
  remoteEOF : e.remoteEOF = true → e'.remoteEOF = true
  streamErrors : e.streamErrors ⊆ e'.streamErrors
  parentDone : e.parentDone = true → e'.parentDone = true

theorem StreamEnded.mono {e e' : Endpoint K} (h : e.StreamEnded) (hgrows : Grows e e') :
    e'.StreamEnded := by
  obtain ⟨err, hmem, hnormal⟩ := h
  exact ⟨err, hgrows.streamErrors hmem, hnormal⟩

theorem Explained.mono {e e' : Endpoint K} {result : Option Err} (h : e.Explained result)
    (hgrows : Grows e e') : e'.Explained result := by
  refine ⟨fun hnil ↦ hgrows.remoteEOF (h.1 hnil), fun err herr hnormal ↦ ?_⟩
  rcases h.2 err herr hnormal with hstream | hparent
  · exact .inl (hstream.mono hgrows)
  · exact .inr (hgrows.parentDone hparent)

theorem explained_of_not_normal (e : Endpoint K) {err : Err} (h : isNormalClose err = false) :
    e.Explained (some err) := by
  refine ⟨fun hnil ↦ by contradiction, ?_⟩
  rintro err' ⟨⟩ hnormal
  simp [h] at hnormal

theorem explained_of_stream (e : Endpoint K) {err : Err} (h : err ∈ e.streamErrors) :
    e.Explained (some err) := by
  refine ⟨fun hnil ↦ by contradiction, ?_⟩
  rintro err' ⟨⟩ hnormal
  exact .inl ⟨err, h, hnormal⟩

theorem explained_of_parentDone {e : Endpoint K} (err : Err) (h : e.parentDone = true) :
    e.Explained (some err) :=
  ⟨fun hnil ↦ by contradiction, fun _ _ _ ↦ .inr h⟩

theorem explained_of_remoteEOF {e : Endpoint K} (h : e.remoteEOF = true) : e.Explained none :=
  ⟨fun _ ↦ h, fun _ herr ↦ by contradiction⟩

/-- The results of the two loops as `Bridge` sees them. -/
structure ResultInv (e : Endpoint K) : Prop where
  failure : ∀ err, e.sender.pc.readFailure = some err → isNormalClose err = false
  closing : e.sender.pc.closing = true → e.remoteEOF = true
  waiting : e.bridge = .waitFirst → e.connClosed = false ∧ (e.ctx ≠ none → e.parentDone = true)
  head : e.bridge = .waitFirst → ∀ result rest, e.errCh = result :: rest → e.Explained result
  first : ∀ result, e.bridge.firstResult = some result → e.Explained result
  returned : e.bridge = .returned none →
    e.remoteEOF = true ∨ e.StreamEnded ∨ e.parentDone = true

/-- One loop step adds at most one result, explained if `Bridge` still waits for the first. -/
def Pushes (e e' : Endpoint K) : Prop :=
  e'.errCh = e.errCh ∨ ∃ result, e'.errCh = e.errCh ++ [result] ∧
    (e.bridge = .waitFirst → e'.Explained result)

theorem afterRead_pushes {e : Endpoint K} {readErr : ReadErr}
    (h : e.bridge = .waitFirst → ∀ err, readErr = .failed err → isNormalClose err = false) :
    Pushes e (e.afterRead readErr) := by
  cases readErr with
  | nil => exact .inl rfl
  | eof => exact .inl rfl
  | failed err =>
    refine .inr ⟨_, rfl, fun hwait ↦ explained_of_not_normal _ ?_⟩
    rw [isNormalClose_errorf]
    exact h hwait err rfl

theorem afterRead_closing (e : Endpoint K) (readErr : ReadErr) :
    (e.afterRead readErr).sender.pc.closing = false ∧
      (e.afterRead readErr).sender.pc.readFailure = none := by
  cases readErr <;> exact ⟨rfl, rfl⟩

theorem SendMove.pushes [DecidableEq K] {libs : Libs K} {ledger ledger' : Ledger K}
    {e e' : Endpoint K} {ev : SendEvent} (hmove : SendMove libs ledger e ev ledger' e')
    (h : e.ResultInv) : Pushes e e' := by
  cases hmove with
  | readEmpty readErr _ hallowed =>
    refine afterRead_pushes (e := e.noteRead [] readErr) ?_
    rintro hwait err rfl
    rw [(h.waiting hwait).1] at hallowed
    simp only [readAllowed, Bool.and_eq_true] at hallowed
    exact isNormalClose_of_connErr hallowed.1.2
  | readData chunk readErr _ _ _ => exact .inl rfl
  | sealFailed stage err _ herr => exact .inr ⟨_, rfl, fun _ ↦ explained_of_not_normal _ herr⟩
  | sealed stage plaintext ciphertext _ _ => exact .inl rfl
  | transmitFailed stage ciphertext err _ =>
    refine .inr ⟨_, rfl, fun _ ↦ explained_of_stream _ ?_⟩
    simp [sendReturn, noteStreamError]
  | transmitted stage ciphertext hpc =>
    cases stage with
    | data chunk readErr =>
      refine afterRead_pushes (e := e.noteSent (.data chunk readErr)) ?_
      rintro _ err rfl
      exact h.failure err (by simp [hpc, SendPc.readFailure])
    | halfClose => exact .inl rfl
    | close =>
      refine .inr ⟨none, rfl, fun _ ↦ explained_of_remoteEOF ?_⟩
      exact h.closing (by simp [hpc, SendPc.closing])
  | remoteDone _ _ => exact .inl rfl
  | ctxDone err _ hctx =>
    refine .inr ⟨_, rfl, fun hwait ↦ explained_of_parentDone _ ?_⟩
    exact (h.waiting hwait).2 (by simp [hctx])

/-- The two facts about `sendLoop`'s own control point that results depend on. -/
theorem SendMove.closing [DecidableEq K] {libs : Libs K} {ledger ledger' : Ledger K}
    {e e' : Endpoint K} {ev : SendEvent} (hmove : SendMove libs ledger e ev ledger' e')
    (h : e.ResultInv) :
    (∀ err, e'.sender.pc.readFailure = some err → isNormalClose err = false) ∧
      (e'.sender.pc.closing = true → e.remoteEOF = true) := by
  have hfailure := h.failure
  have hclosing := h.closing
  cases hmove with
  | readEmpty readErr _ _ =>
    obtain ⟨hc, hf⟩ := afterRead_closing (e.noteRead [] readErr) readErr
    simp [hc, hf]
  | readData chunk readErr _ hallowed hne =>
    refine ⟨fun err herr ↦ ?_, fun hc ↦ by contradiction⟩
    cases readErr with
    | nil => contradiction
    | eof => contradiction
    | failed err' =>
      cases herr
      simp only [readAllowed, Bool.and_eq_true, Bool.or_eq_true, Bool.not_eq_true',
        beq_iff_eq] at hallowed
      obtain ⟨⟨_, hconn⟩, hopen | hnil⟩ := hallowed
      · rw [hopen] at hconn
        exact isNormalClose_of_connErr hconn
      · exact absurd hnil hne
  | sealed stage plaintext ciphertext hpc _ =>
    rw [hpc] at hfailure hclosing
    rcases stage with ⟨chunk, _ | _ | err⟩ | _ | _ <;> exact ⟨hfailure, hclosing⟩
  | transmitted stage ciphertext _ =>
    rcases stage with ⟨chunk, _ | _ | err⟩ | _ | _ <;>
      exact ⟨fun err herr ↦ by contradiction, fun hc ↦ by contradiction⟩
  | remoteDone _ heof => exact ⟨fun err herr ↦ by contradiction, fun _ ↦ heof⟩
  | _ => exact ⟨fun err herr ↦ by contradiction, fun hc ↦ by contradiction⟩

theorem SendMove.grows [DecidableEq K] {libs : Libs K} {ledger ledger' : Ledger K}
    {e e' : Endpoint K} {ev : SendEvent} (hmove : SendMove libs ledger e ev ledger' e') :
    Grows e e' := by
  have hframe := hmove.frame
  refine ⟨fun heof ↦ hframe.remoteEOF ▸ heof, ?_, fun hdone ↦ hframe.parentDone ▸ hdone⟩
  cases hmove with
  | readEmpty readErr _ _ => cases readErr <;> exact List.Subset.refl _
  | transmitFailed stage ciphertext err _ => exact List.subset_append_left _ _
  | transmitted stage ciphertext _ =>
    rcases stage with ⟨chunk, _ | _ | _⟩ | _ | _ <;> exact List.Subset.refl _
  | _ => exact List.Subset.refl _

theorem RecvMove.grows {libs : Libs K} {ledger : Ledger K} {e e' : Endpoint K} {ev : RecvEvent}
    (hmove : RecvMove libs ledger e ev e') : Grows e e' := by
  cases hmove with
  | receiveFailed err _ => exact ⟨id, List.subset_append_left _ _, id⟩
  | opened plaintext ciphertext frame _ _ _ =>
    rcases frame with (_ | ⟨b, bs⟩) | _ | _ | _ <;> exact ⟨id, List.Subset.refl _, id⟩
  | halfClosed _ => exact ⟨fun _ ↦ rfl, List.Subset.refl _, id⟩
  | closed code message _ => exact ⟨fun _ ↦ rfl, List.Subset.refl _, id⟩
  | _ => exact ⟨id, List.Subset.refl _, id⟩

theorem RecvMove.pushes {libs : Libs K} {ledger : Ledger K} {e e' : Endpoint K} {ev : RecvEvent}
    (hmove : RecvMove libs ledger e ev e') (h : e.ResultInv) : Pushes e e' := by
  cases hmove with
  | receiveFailed err _ =>
    refine .inr ⟨_, rfl, fun _ ↦ explained_of_stream _ ?_⟩
    simp [recvReturn, noteStreamError]
  | received ciphertext _ => exact .inl rfl
  | rejected ciphertext err _ herr _ => exact .inr ⟨_, rfl, fun _ ↦ explained_of_not_normal _ herr⟩
  | garbled plaintext ciphertext err _ herr _ _ =>
    exact .inr ⟨_, rfl, fun _ ↦ explained_of_not_normal _ herr⟩
  | opened plaintext ciphertext frame _ _ _ =>
    rcases frame with (_ | ⟨b, bs⟩) | _ | ⟨code, message⟩ | _
    case unset => exact .inr ⟨_, rfl, fun _ ↦ explained_of_not_normal _ rfl⟩
    all_goals exact .inl rfl
  | wrote data _ => exact .inl rfl
  | writeFailed data n err _ hconn =>
    refine .inr ⟨_, rfl, fun hwait ↦ explained_of_not_normal _ ?_⟩
    rw [(h.waiting hwait).1] at hconn
    rw [isNormalClose_errorf]
    exact isNormalClose_of_connErr hconn
  | halfClosed _ => exact .inl rfl
  | closed code message _ =>
    refine .inr ⟨_, rfl, fun _ ↦ ?_⟩
    split_ifs
    · exact explained_of_remoteEOF rfl
    · exact explained_of_not_normal _ rfl
  | checkDone err _ hctx =>
    refine .inr ⟨_, rfl, fun hwait ↦ explained_of_parentDone _ ?_⟩
    exact (h.waiting hwait).2 (by simp [hctx])
  | checkLive _ _ => exact .inl rfl

/-- A step that leaves `Bridge` where it is keeps the invariant if it explains the result it
adds, if any. -/
theorem ResultInv.loop {e e' : Endpoint K} (h : e.ResultInv) (hpushes : Pushes e e')
    (hgrows : Grows e e') (hbridge : e'.bridge = e.bridge)
    (hconn : e'.connClosed = e.connClosed)
    (hctx : e.bridge = .waitFirst → e'.ctx ≠ none → e'.parentDone = true)
    (hfailure : ∀ err, e'.sender.pc.readFailure = some err → isNormalClose err = false)
    (hclosing : e'.sender.pc.closing = true → e'.remoteEOF = true) : e'.ResultInv where
  failure := hfailure
  closing := hclosing
  waiting hwait := by
    have hwait' : e.bridge = .waitFirst := hbridge ▸ hwait
    exact ⟨hconn.trans (h.waiting hwait').1, hctx hwait'⟩
  head hwait result rest hhead := by
    have hwait' : e.bridge = .waitFirst := hbridge ▸ hwait
    rcases hpushes with hsame | ⟨result', hpush, hexplained⟩
    · exact (h.head hwait' result rest (hsame ▸ hhead)).mono hgrows
    · rw [hpush] at hhead
      cases herrCh : e.errCh with
      | nil =>
        rw [herrCh] at hhead
        cases hhead
        exact hexplained hwait'
      | cons early others =>
        rw [herrCh] at hhead
        cases hhead
        exact (h.head hwait' result others herrCh).mono hgrows
  first result hfirst := (h.first result (hbridge ▸ hfirst)).mono hgrows
  returned hret := by
    rcases h.returned (hbridge ▸ hret) with heof | hstream | hparent
    · exact .inl (hgrows.remoteEOF heof)
    · exact .inr (.inl (hstream.mono hgrows))
    · exact .inr (.inr (hgrows.parentDone hparent))

/-- `Bridge` moves on with the first result it has taken. -/
theorem ResultInv.advance {e e' : Endpoint K} (h : e.ResultInv) {result : Option Err}
    (hexplained : e.Explained result) (hgrows : Grows e e') (hsender : e'.sender = e.sender)
    (heof : e'.remoteEOF = e.remoteEOF) (hfirst : e'.bridge.firstResult = some result) :
    e'.ResultInv where
  failure := hsender ▸ h.failure
  closing hc := heof.trans (h.closing (hsender ▸ hc))
  waiting hwait := by
    rw [hwait] at hfirst
    contradiction
  head hwait := by
    rw [hwait] at hfirst
    contradiction
  first result' hfirst' := by
    rw [hfirst] at hfirst'
    cases hfirst'
    exact hexplained.mono hgrows
  returned hret := by
    rw [hret] at hfirst
    contradiction

theorem BridgeMove.resultInv {e e' : Endpoint K} {ev : BridgeEvent}
    (hmove : BridgeMove e ev e') (h : e.ResultInv) : e'.ResultInv := by
  cases hmove with
  | first result rest hpc herrCh =>
    exact h.advance (h.head hpc result rest herrCh) ⟨id, List.Subset.refl _, id⟩ rfl rfl rfl
  | cancel result hpc =>
    have hfirst := h.first result (by rw [hpc]; rfl)
    exact h.advance hfirst ⟨id, List.Subset.refl _, id⟩ rfl rfl rfl
  | closeConn result hpc =>
    have hfirst := h.first result (by rw [hpc]; rfl)
    exact h.advance hfirst ⟨id, List.Subset.refl _, id⟩ rfl rfl rfl
  | closeSend result hpc =>
    have hfirst := h.first result (by rw [hpc]; rfl)
    exact h.advance hfirst ⟨id, List.Subset.refl _, id⟩ rfl rfl rfl
  | second result other rest hpc _ =>
    have hfirst := h.first result (by rw [hpc]; rfl)
    refine ⟨h.failure, h.closing, fun hw ↦ by contradiction, fun hw ↦ by contradiction,
      fun _ hr ↦ by contradiction, fun hret ↦ ?_⟩
    have hnone : bridgeResult result other = none := by simpa using hret
    cases result with
    | none => exact .inl (hfirst.1 rfl)
    | some err => exact .inr (hfirst.2 err rfl (bridgeResult_eq_none hnone err rfl))
  | cancelParent err =>
    have hgrows : Grows e { e with parentDone := true, ctx := e.ctx <|> some err } :=
      ⟨id, List.Subset.refl _, fun _ ↦ rfl⟩
    exact h.loop (.inl rfl) hgrows rfl rfl (fun _ _ ↦ rfl) h.failure h.closing

theorem resultInv_init (crypt : Transport K) (canCloseWrite : Bool) :
    ResultInv { crypt := crypt, canCloseWrite := canCloseWrite } where
  failure _ h := by contradiction
  closing h := by contradiction
  waiting _ := ⟨rfl, fun h ↦ absurd rfl h⟩
  head _ _ _ h := by contradiction
  first _ h := by contradiction
  returned h := by contradiction

theorem resultInv_step [DecidableEq K] {libs : Libs K} {ledger ledger' : Ledger K}
    {e e' : Endpoint K} {ev : Event} (h : e.ResultInv)
    (hstep : e.step libs ledger ev = some (ledger', e')) : e'.ResultInv := by
  rcases step_cases hstep with
    ⟨ev, rfl, hmove⟩ | ⟨ev, rfl, rfl, hmove⟩ | ⟨ev, rfl, rfl, hmove⟩
  · obtain ⟨hfailure, hclosing⟩ := hmove.closing h
    have hframe := hmove.frame
    refine h.loop (hmove.pushes h) hmove.grows hframe.bridge hframe.connClosed ?_ hfailure ?_
    · rw [hframe.ctx, hframe.parentDone]
      exact fun hwait ↦ (h.waiting hwait).2
    · rw [hframe.remoteEOF]
      exact hclosing
  · have hframe := hmove.frame
    refine h.loop (hmove.pushes h) hmove.grows hframe.bridge hframe.connClosed ?_ ?_ ?_
    · rw [hframe.ctx, hframe.parentDone]
      exact fun hwait ↦ (h.waiting hwait).2
    · rw [hframe.sender]
      exact h.failure
    · rw [hframe.sender]
      exact fun hc ↦ hmove.grows.remoteEOF (h.closing hc)
  · exact hmove.resultInv h

/-- The number of loops that have returned. -/
def loopsReturned (e : Endpoint K) : ℕ :=
  (if e.sender.pc = .returned then 1 else 0) + if e.receiver.pc = .returned then 1 else 0

theorem loopsReturned_le (e : Endpoint K) : e.loopsReturned ≤ 2 := by
  unfold loopsReturned
  split_ifs <;> decide

/-- The error is on its way to `Bridge`, or `Bridge` has returned one. -/
def Reports (e : Endpoint K) (err : Err) : Prop :=
  some err ∈ e.errCh ∨ e.bridge.firstResult = some (some err) ∨
    ∃ err', e.bridge = .returned (some err')

/-- Each loop that has returned has put one result on `errCh`, and no error of the stream is lost
unless it is a normal close. -/
structure Reported (e : Endpoint K) : Prop where
  count : e.errCh.length + e.bridge.taken = e.loopsReturned
  errors : ∀ err ∈ e.streamErrors, isNormalClose err = false → e.Reports err

/-- One loop step returns no result, or one, which is the error if the stream returned one. -/
def Returns (e e' : Endpoint K) : Prop :=
  (e'.errCh = e.errCh ∧ e'.loopsReturned = e.loopsReturned ∧ e'.streamErrors = e.streamErrors) ∨
  ∃ result, e'.errCh = e.errCh ++ [result] ∧ e'.loopsReturned = e.loopsReturned + 1 ∧
    ∀ err ∈ e'.streamErrors, err ∈ e.streamErrors ∨ result = some err

theorem sendAt_returns {e : Endpoint K} (e' : Endpoint K) {pc : SendPc}
    (hpc : e.sender.pc ≠ .returned)
    (hsame : e'.errCh = e.errCh ∧ e'.streamErrors = e.streamErrors ∧ e'.receiver = e.receiver)
    (hne : pc ≠ .returned) : Returns e (e'.sendAt pc) := by
  obtain ⟨herrCh, herrors, hreceiver⟩ := hsame
  refine .inl ⟨herrCh, ?_, herrors⟩
  simp [loopsReturned, sendAt, hpc, hne, hreceiver]

theorem sendReturn_returns {e : Endpoint K} (e' : Endpoint K) {result : Option Err}
    (hpc : e.sender.pc ≠ .returned) (hsame : e'.errCh = e.errCh ∧ e'.receiver = e.receiver)
    (herrors : ∀ err ∈ e'.streamErrors, err ∈ e.streamErrors ∨ result = some err) :
    Returns e (e'.sendReturn result) := by
  obtain ⟨herrCh, hreceiver⟩ := hsame
  refine .inr ⟨result, ?_, ?_, herrors⟩
  · simp [sendReturn, herrCh]
  · simp [loopsReturned, sendReturn, hpc, hreceiver, Nat.add_comm]

theorem recvAt_returns {e : Endpoint K} (e' : Endpoint K) {pc : RecvPc}
    (hpc : e.receiver.pc ≠ .returned)
    (hsame : e'.errCh = e.errCh ∧ e'.streamErrors = e.streamErrors ∧ e'.sender = e.sender)
    (hne : pc ≠ .returned) : Returns e (e'.recvAt pc) := by
  obtain ⟨herrCh, herrors, hsender⟩ := hsame
  refine .inl ⟨herrCh, ?_, herrors⟩
  simp [loopsReturned, recvAt, hpc, hne, hsender]

theorem recvReturn_returns {e : Endpoint K} (e' : Endpoint K) {result : Option Err}
    (hpc : e.receiver.pc ≠ .returned) (hsame : e'.errCh = e.errCh ∧ e'.sender = e.sender)
    (herrors : ∀ err ∈ e'.streamErrors, err ∈ e.streamErrors ∨ result = some err) :
    Returns e (e'.recvReturn result) := by
  obtain ⟨herrCh, hsender⟩ := hsame
  refine .inr ⟨result, ?_, ?_, herrors⟩
  · simp [recvReturn, herrCh]
  · simp [loopsReturned, recvReturn, hpc, hsender]

theorem afterRead_returns {e : Endpoint K} (e' : Endpoint K) {readErr : ReadErr}
    (hpc : e.sender.pc ≠ .returned)
    (hsame : e'.errCh = e.errCh ∧ e'.streamErrors = e.streamErrors ∧ e'.receiver = e.receiver) :
    Returns e (e'.afterRead readErr) := by
  cases readErr with
  | nil => exact sendAt_returns e' hpc hsame (by simp)
  | eof => exact sendAt_returns e' hpc hsame (by simp)
  | failed err =>
    obtain ⟨herrCh, herrors, hreceiver⟩ := hsame
    exact sendReturn_returns e' hpc ⟨herrCh, hreceiver⟩ fun err' hmem ↦ .inl (herrors ▸ hmem)

theorem SendMove.returns [DecidableEq K] {libs : Libs K} {ledger ledger' : Ledger K}
    {e e' : Endpoint K} {ev : SendEvent} (hmove : SendMove libs ledger e ev ledger' e') :
    Returns e e' := by
  cases hmove with
  | readEmpty readErr hpc _ =>
    exact afterRead_returns (e.noteRead [] readErr) (by simp [hpc]) ⟨rfl, rfl, rfl⟩
  | readData chunk readErr hpc _ _ =>
    exact sendAt_returns (e.noteRead chunk readErr) (by simp [hpc]) ⟨rfl, rfl, rfl⟩ (by simp)
  | sealFailed stage err hpc _ =>
    exact sendReturn_returns e (by simp [hpc]) ⟨rfl, rfl⟩ fun _ ↦ .inl
  | sealed stage plaintext ciphertext hpc _ =>
    exact sendAt_returns (e.sealFrame e.crypt.sent stage ciphertext) (by simp [hpc])
      ⟨rfl, rfl, rfl⟩ (by simp)
  | transmitFailed stage ciphertext err hpc =>
    refine sendReturn_returns (e.noteStreamError err) (by simp [hpc]) ⟨rfl, rfl⟩ ?_
    intro err' hmem
    simpa [noteStreamError, eq_comm] using hmem
  | transmitted stage ciphertext hpc =>
    cases stage with
    | data chunk readErr =>
      exact afterRead_returns (e.noteSent (.data chunk readErr)) (by simp [hpc])
        ⟨rfl, rfl, rfl⟩
    | halfClose =>
      exact sendAt_returns (e.noteSent .halfClose) (by simp [hpc]) ⟨rfl, rfl, rfl⟩ (by simp)
    | close =>
      exact sendReturn_returns (e.noteSent .close) (by simp [hpc]) ⟨rfl, rfl⟩ fun _ ↦ .inl
  | remoteDone hpc _ => exact sendAt_returns e (by simp [hpc]) ⟨rfl, rfl, rfl⟩ (by simp)
  | ctxDone err hpc _ => exact sendReturn_returns e (by simp [hpc]) ⟨rfl, rfl⟩ fun _ ↦ .inl

theorem RecvMove.returns {libs : Libs K} {ledger : Ledger K} {e e' : Endpoint K} {ev : RecvEvent}
    (hmove : RecvMove libs ledger e ev e') : Returns e e' := by
  cases hmove with
  | receiveFailed err hpc =>
    refine recvReturn_returns (e.noteStreamError err) (by simp [hpc]) ⟨rfl, rfl⟩ ?_
    intro err' hmem
    simpa [noteStreamError, eq_comm] using hmem
  | received ciphertext hpc => exact recvAt_returns e (by simp [hpc]) ⟨rfl, rfl, rfl⟩ (by simp)
  | rejected ciphertext err hpc _ _ =>
    exact recvReturn_returns e (by simp [hpc]) ⟨rfl, rfl⟩ fun _ ↦ .inl
  | garbled plaintext ciphertext err hpc _ _ _ =>
    exact recvReturn_returns { e with crypt := e.crypt.received } (by simp [hpc])
      ⟨rfl, rfl⟩ fun _ ↦ .inl
  | opened plaintext ciphertext frame hpc _ _ =>
    rcases frame with (_ | ⟨b, bs⟩) | _ | ⟨code, message⟩ | _
    case unset =>
      exact recvReturn_returns (e.noteOpened e.crypt.received .unset) (by simp [hpc])
        ⟨rfl, rfl⟩ fun _ ↦ .inl
    all_goals
      exact recvAt_returns (e.noteOpened e.crypt.received _) (by simp [hpc]) ⟨rfl, rfl, rfl⟩
        (by simp)
  | wrote data hpc =>
    exact recvAt_returns (e.noteWritten data) (by simp [hpc]) ⟨rfl, rfl, rfl⟩ (by simp)
  | writeFailed data n err hpc _ =>
    exact recvReturn_returns (e.noteWritten (data.take n)) (by simp [hpc]) ⟨rfl, rfl⟩
      fun _ ↦ .inl
  | halfClosed hpc =>
    exact recvAt_returns e.halfClosed (by simp [hpc]) ⟨rfl, rfl, rfl⟩ (by simp)
  | closed code message hpc =>
    exact recvReturn_returns { e with remoteEOF := true } (by simp [hpc]) ⟨rfl, rfl⟩
      fun _ ↦ .inl
  | checkDone err hpc _ => exact recvReturn_returns e (by simp [hpc]) ⟨rfl, rfl⟩ fun _ ↦ .inl
  | checkLive hpc _ => exact recvAt_returns e (by simp [hpc]) ⟨rfl, rfl, rfl⟩ (by simp)

theorem Reported.loop {e e' : Endpoint K} (h : e.Reported) (hreturns : Returns e e')
    (hbridge : e'.bridge = e.bridge) : e'.Reported := by
  rcases hreturns with ⟨herrCh, hloops, herrors⟩ | ⟨result, herrCh, hloops, herrors⟩
  · refine ⟨by rw [herrCh, hbridge, hloops, h.count], fun err hmem herr ↦ ?_⟩
    unfold Reports
    rw [herrCh, hbridge]
    exact h.errors err (herrors ▸ hmem) herr
  · constructor
    · rw [herrCh, hbridge, hloops, ← h.count, List.length_append, List.length_singleton]
      omega
    · intro err hmem herr
      unfold Reports
      rw [herrCh, hbridge]
      rcases herrors err hmem with hold | rfl
      · exact (h.errors err hold herr).imp_left (List.mem_append_left _)
      · exact .inl (by simp)

/-- `Bridge` goes on with the first result in hand. -/
theorem Reported.advance {e e' : Endpoint K} (h : e.Reported) (herrCh : e'.errCh = e.errCh)
    (hloops : e'.loopsReturned = e.loopsReturned) (herrors : e'.streamErrors = e.streamErrors)
    (htaken : e'.bridge.taken = e.bridge.taken)
    (hfirst : e'.bridge.firstResult = e.bridge.firstResult)
    (hreturned : ∀ err, e.bridge = .returned (some err) → e'.bridge = .returned (some err)) :
    e'.Reported := by
  refine ⟨by rw [herrCh, htaken, hloops, h.count], fun err hmem herr ↦ ?_⟩
  rcases h.errors err (herrors ▸ hmem) herr with hmem | hheld | ⟨err', hret⟩
  · exact .inl (herrCh ▸ hmem)
  · exact .inr (.inl (hfirst.trans hheld))
  · exact .inr (.inr ⟨err', hreturned err' hret⟩)

theorem BridgeMove.reported {e e' : Endpoint K} {ev : BridgeEvent} (hmove : BridgeMove e ev e')
    (h : e.Reported) : e'.Reported := by
  cases hmove with
  | first result rest hpc herrCh =>
    refine ⟨?_, fun err hmem herr ↦ ?_⟩
    · have hcount := h.count
      rw [hpc, herrCh] at hcount
      exact hcount
    · rcases h.errors err hmem herr with hmem | hheld | ⟨err', hret⟩
      · rw [herrCh] at hmem
        rcases List.mem_cons.mp hmem with rfl | hmem
        · exact .inr (.inl rfl)
        · exact .inl hmem
      · rw [hpc] at hheld
        contradiction
      · rw [hpc] at hret
        contradiction
  | cancel result hpc =>
    exact h.advance rfl rfl rfl (by rw [hpc]; rfl) (by rw [hpc]; rfl) (by simp [hpc])
  | closeConn result hpc =>
    exact h.advance rfl rfl rfl (by rw [hpc]; rfl) (by rw [hpc]; rfl) (by simp [hpc])
  | closeSend result hpc =>
    exact h.advance rfl rfl rfl (by rw [hpc]; rfl) (by rw [hpc]; rfl) (by simp [hpc])
  | second result other rest hpc herrCh =>
    have hcount : rest.length + 1 + 1 = e.loopsReturned := by
      have hcount := h.count
      rwa [hpc, herrCh] at hcount
    have hrest : rest = [] := by
      have hle := e.loopsReturned_le
      exact List.length_eq_zero_iff.mp (by omega)
    refine ⟨hcount, fun err hmem herr ↦ .inr (.inr ?_)⟩
    have hresult : result = some err ∨ other = some err := by
      rcases h.errors err hmem herr with hmem | hheld | ⟨err', hret⟩
      · rw [herrCh, hrest, List.mem_singleton] at hmem
        exact .inr hmem.symm
      · rw [hpc] at hheld
        exact .inl (Option.some.inj hheld)
      · rw [hpc] at hret
        contradiction
    obtain ⟨err', herr'⟩ := bridgeResult_ne_none herr hresult
    exact ⟨err', by rw [herr']⟩
  | cancelParent err => exact h.advance rfl rfl rfl rfl rfl fun _ hret ↦ hret

theorem reported_init (crypt : Transport K) (canCloseWrite : Bool) :
    Reported { crypt := crypt, canCloseWrite := canCloseWrite } where
  count := rfl
  errors _ h := by contradiction

theorem reported_step [DecidableEq K] {libs : Libs K} {ledger ledger' : Ledger K}
    {e e' : Endpoint K} {ev : Event} (h : e.Reported)
    (hstep : e.step libs ledger ev = some (ledger', e')) : e'.Reported := by
  rcases step_cases hstep with
    ⟨ev, rfl, hmove⟩ | ⟨ev, rfl, rfl, hmove⟩ | ⟨ev, rfl, rfl, hmove⟩
  · exact h.loop hmove.returns hmove.frame.bridge
  · exact h.loop hmove.returns hmove.frame.bridge
  · exact hmove.reported h

theorem Reported.normal_of_nil {e : Endpoint K} (h : e.Reported)
    (hnil : e.bridge = .returned none) : ∀ err ∈ e.streamErrors, isNormalClose err = true := by
  intro err hmem
  by_contra hnot
  have hcount := h.count
  have hle := e.loopsReturned_le
  rw [hnil] at hcount
  have herrCh : e.errCh = [] := by
    refine List.length_eq_zero_iff.mp ?_
    simp only [BridgePc.taken] at hcount
    omega
  rcases h.errors err hmem (by simpa using hnot) with hmem | hheld | ⟨err', hret⟩
  · rw [herrCh] at hmem
    contradiction
  · rw [hnil] at hheld
    contradiction
  · rw [hnil] at hret
    cases hret

end Endpoint

/-- The control frames of a `sendLoop` are `HalfClose` and `Close` with the normal code. -/
theorem Sender.Settled.mem_farewell {t : Sender} (h : t.Settled) {frame : PlainFrame}
    (hmem : frame ∈ t.sealed) (hcontrol : isControl frame = true) : frame ∈ farewell := by
  obtain ⟨⟨controls, pending, hcontrols, ⟨chunks, hsealed, _⟩, _⟩, _⟩ := h
  rw [hsealed, List.mem_append, List.mem_map] at hmem
  rcases hmem with ⟨chunk, _, rfl⟩ | hmem
  · contradiction
  · exact hcontrols.subset hmem

namespace Pair

variable {K : Type}

/-- `recvLoop` has decrypted the peer's farewell, and every byte that the peer read up to its
end of file has been written to the local connection. -/
def Complete (side : Side) (s : Pair K) : Prop :=
  (∃ frame ∈ (s.endpoint side).receiver.opened, frame = .halfClose ∨ frame = .close .normal "") ∧
  (s.endpoint side.peer).sender.readEOF = true ∧
  (s.endpoint side).receiver.written = (s.endpoint side.peer).sender.read

theorem Inv.complete {libs : Libs K} {split : Split K} {s : Pair K} (h : Inv libs split s)
    {side : Side} (heof : (s.endpoint side).remoteEOF = true) : Complete side s := by
  refine ⟨?_, h.complete_of_remoteEOF heof⟩
  obtain ⟨frames, hpre, hcontrol, _⟩ := (h.recv side).ended heof
  obtain ⟨frame, hmem, hframe⟩ := List.any_eq_true.mp hcontrol
  have hopened : (s.endpoint side).receiver.opened <+: (s.endpoint side.peer).sender.sealed := by
    simpa using (h.link side.peer).opened
  have hfarewell := (h.sender side.peer).settled.mem_farewell
    (hopened.subset (hpre.subset hmem)) hframe
  refine ⟨frame, hpre.subset hmem, ?_⟩
  simpa [farewell] using hfarewell

/-- What every step of an endpoint preserves holds of both endpoints of a reachable pair. -/
theorem endpoint_of_reachable [DecidableEq K] {libs : Libs K} {split : Split K}
    {canCloseWrite : Side → Bool} {P : Endpoint K → Prop}
    (hinit : ∀ crypt canCloseWrite, P { crypt := crypt, canCloseWrite := canCloseWrite })
    (hstep : ∀ {ledger ledger' : Ledger K} {e e' : Endpoint K} {ev : Event}, P e →
      e.step libs ledger ev = some (ledger', e') → P e')
    {s : Pair K} (h : (machine libs split canCloseWrite).Reachable s) (side : Side) :
    P (s.endpoint side) := by
  refine Machine.invariant (I := fun s : Pair K ↦ ∀ side, P (s.endpoint side))
    (fun side ↦ hinit _ _) ?_ h side
  rintro s ⟨actor, ev⟩ t _ hs hpair side
  obtain ⟨ledger, e, he, rfl⟩ := step_eq_some hpair
  by_cases hside : side = actor
  · subst hside
    simpa using hstep (hs side) he
  · simpa [hside] using hs side

theorem resultInv_of_reachable [DecidableEq K] {libs : Libs K} {split : Split K}
    {canCloseWrite : Side → Bool} {s : Pair K}
    (h : (machine libs split canCloseWrite).Reachable s) (side : Side) :
    (s.endpoint side).ResultInv :=
  endpoint_of_reachable Endpoint.resultInv_init Endpoint.resultInv_step h side

theorem reported_of_reachable [DecidableEq K] {libs : Libs K} {split : Split K}
    {canCloseWrite : Side → Bool} {s : Pair K}
    (h : (machine libs split canCloseWrite).Reachable s) (side : Side) :
    (s.endpoint side).Reported :=
  endpoint_of_reachable Endpoint.reported_init Endpoint.reported_step h side

/-- When the parent context is never cancelled, a nil result of `Bridge` means a complete
transfer, unless the ciphertext stream itself returned an error that `isNormalClose` accepts. A
stream that returned any other error makes `Bridge` return an error. -/
theorem complete_or_stream_ended_of_nil [DecidableEq K] (libs : Libs K) (split : Split K)
    (canCloseWrite : Side → Bool) {s : Pair K}
    (h : (machine libs split canCloseWrite).Reachable s) (side : Side)
    (hparent : (s.endpoint side).parentDone = false)
    (hnil : (s.endpoint side).bridge = .returned none) :
    (Complete side s ∨ ∃ err ∈ (s.endpoint side).streamErrors, isNormalClose err = true) ∧
      ∀ err ∈ (s.endpoint side).streamErrors, isNormalClose err = true := by
  refine ⟨?_, (reported_of_reachable h side).normal_of_nil hnil⟩
  rcases (resultInv_of_reachable h side).returned hnil with heof | hstream | hdone
  · exact .inl ((inv_of_reachable h).complete heof)
  · exact .inr hstream
  · rw [hparent] at hdone
    contradiction

/-- The client's two bytes and end of file are read, but the agent's stream ends before any
frame of them arrives. -/
def cutTransfer : List (Side × Event) :=
  [(.client, .send (.read [104, 105] .eof)), (.agent, .recv (.receive (.error .eof))),
    (.agent, .bridge .first), (.agent, .bridge .cancel), (.agent, .bridge .closeConn),
    (.agent, .bridge .closeSend), (.agent, .send (.read [] (.failed .netClosed))),
    (.agent, .bridge .second)]

theorem not_complete_of_nil_cutTransfer :
    ¬ ∀ s, (machine sampleLibs sampleSplit fun _ ↦ true).Reachable s → ∀ side,
      (s.endpoint side).parentDone = false → (s.endpoint side).bridge = .returned none →
      Complete side s := by
  intro hclaim
  have hcomplete := hclaim _ (Machine.reaches_of_exec cutTransfer rfl) .agent rfl rfl
  obtain ⟨⟨frame, hmem, _⟩, _⟩ := hcomplete
  exact List.not_mem_nil hmem

/-- A transfer of both end-of-file markers after which the agent's stream ends and its `Bridge`
returns nil. -/
def sampleFarewell : List (Side × Event) :=
  [(.client, .send (.read [104, 105] .eof)), (.client, .send .sendPlain),
    (.client, .send (.transmit none)), (.client, .send .sendPlain),
    (.agent, .recv (.receive (.ok [0, 0x0a, 2, 104, 105]))), (.agent, .recv .decrypt),
    (.agent, .recv (.write (.ok ()))), (.agent, .recv .check),
    (.agent, .recv (.receive (.ok [1, 0x12, 0]))), (.agent, .recv .decrypt),
    (.agent, .recv .halfClose), (.agent, .recv .check), (.agent, .send (.read [] .eof)),
    (.agent, .send .sendPlain), (.agent, .send (.transmit none)), (.agent, .send .remoteDone),
    (.agent, .send .sendPlain), (.agent, .send (.transmit none)), (.agent, .bridge .first),
    (.agent, .bridge .cancel), (.agent, .bridge .closeConn), (.agent, .bridge .closeSend),
    (.agent, .recv (.receive (.error .eof))), (.agent, .bridge .second)]

theorem complete_or_stream_ended_of_nil_sampleFarewell :
    ∃ s, (machine sampleLibs sampleSplit fun _ ↦ true).exec (start sampleSplit fun _ ↦ true)
        sampleFarewell = some s ∧
      (s.endpoint .agent).parentDone = false ∧ (s.endpoint .agent).bridge = .returned none ∧
      (s.endpoint .agent).receiver.written = [104, 105] ∧
      (s.endpoint .agent).streamErrors = [.eof] ∧
      (Complete .agent s ∨
        ∃ err ∈ (s.endpoint .agent).streamErrors, isNormalClose err = true) ∧
      ∀ err ∈ (s.endpoint .agent).streamErrors, isNormalClose err = true := by
  refine ⟨_, rfl, rfl, rfl, rfl, rfl, ?_⟩
  exact complete_or_stream_ended_of_nil sampleLibs sampleSplit (fun _ ↦ true)
    (Machine.reaches_of_exec sampleFarewell rfl) .agent rfl rfl

end Pair

end RelayCat.Bridge
