import RelayCat.Wire.Messages

/-!
# The forwarding phase of a relay handler

`Connect` and `Accept` forward alike. A goroutine (`recvClient`, `recvAgent`) receives
ciphertext frames from the handler's own stream and hands each payload over an unbuffered
channel to the other handler of the session; the handler's loop takes payloads from the other
channel and sends them on its own stream. The loop leaves on a failed `Send`, on the
goroutine's result, or on the session context; only the last differs between the two.

Histories record the payloads received, handed over, taken and sent. No step reads them.
-/

namespace RelayCat.Relay

open Go Wire

/-- `recvClient` or `recvAgent`; its result is on `errCh` once it is done. -/
inductive PumpPc where
  | idle
  | receiving
  | handing (payload : Bytes)
  | done (e : Err)
  deriving DecidableEq, Repr

/-- The `select` loop of the handler. -/
inductive LoopPc where
  | idle
  | selecting
  | sending (payload : Bytes)
  | exited (result : Option Err)
  deriving DecidableEq, Repr

structure Handler where
  pump : PumpPc := .idle
  loop : LoopPc := .idle
  received : List Bytes := []
  handed : List Bytes := []
  taken : List Bytes := []
  sent : List Bytes := []
  sendFailed : Bool := false
  deriving DecidableEq, Repr

/-- The steps of one handler that need no partner, on a stream of frames `F`. -/
inductive HandlerEvent (F : Type) where
  | recv (result : Except Err F)
  | giveUp
  | send (result : Option Err)
  | takeErr
  | takeDone
  deriving DecidableEq, Repr

namespace Handler

variable {F : Type}

/-- The goroutine is started and the loop entered. -/
def start : Handler := { pump := .receiving, loop := .selecting }

/-- What the goroutine does with the result of `stream.Recv`. -/
def recv (getCiphertext : F → Option Bytes) (h : Handler) : Except Err F → Handler
  | .error e => { h with pump := .done e }
  | .ok frame =>
    match getCiphertext frame with
    | none => { h with pump := .done (.status .invalidArgument "expected ciphertext frame") }
    | some payload => { h with pump := .handing payload, received := h.received ++ [payload] }

/-- What the loop does with the result of `stream.Send`. -/
def sendResult (h : Handler) (payload : Bytes) : Option Err → Handler
  | none => { h with loop := .selecting, sent := h.sent ++ [payload] }
  | some e => { h with loop := .exited (some e), sendFailed := true }

/-- The goroutine's payload is taken from the channel. -/
def handOver (h : Handler) : Option (Bytes × Handler) :=
  match h.pump with
  | .handing payload =>
    some (payload, { h with pump := .receiving, handed := h.handed ++ [payload] })
  | _ => none

/-- The loop takes a payload from the channel. -/
def take (h : Handler) (payload : Bytes) : Option Handler :=
  match h.loop with
  | .selecting => some { h with loop := .sending payload, taken := h.taken ++ [payload] }
  | _ => none

/-- One step of a handler under the session context `ctx`; `onDone` is what its loop returns
when the context is done. -/
def step (getCiphertext : F → Option Bytes) (onDone : CtxErr → Option Err) (ctx : Option CtxErr)
    (h : Handler) : HandlerEvent F → Option Handler
  | .recv result =>
    match h.pump with
    | .receiving => some (h.recv getCiphertext result)
    | _ => none
  | .giveUp =>
    match h.pump, ctx with
    | .handing _, some e => some { h with pump := .done e.err }
    | _, _ => none
  | .send result =>
    match h.loop with
    | .sending payload => some (h.sendResult payload result)
    | _ => none
  | .takeErr =>
    match h.loop, h.pump with
    | .selecting, .done e => some { h with loop := .exited (if e.is .eof then none else some e) }
    | _, _ => none
  | .takeDone =>
    match h.loop, ctx with
    | .selecting, some e => some { h with loop := .exited (onDone e) }
    | _, _ => none

/-- Everything a step of a handler can do. -/
inductive Move (getCiphertext : F → Option Bytes) (onDone : CtxErr → Option Err)
    (ctx : Option CtxErr) (h : Handler) : HandlerEvent F → Handler → Prop
  | recvFailed (e : Err) : h.pump = .receiving →
      Move getCiphertext onDone ctx h (.recv (.error e)) { h with pump := .done e }
  | recvOther (frame : F) : h.pump = .receiving → getCiphertext frame = none →
      Move getCiphertext onDone ctx h (.recv (.ok frame))
        { h with pump := .done (.status .invalidArgument "expected ciphertext frame") }
  | received (frame : F) (payload : Bytes) : h.pump = .receiving →
      getCiphertext frame = some payload →
      Move getCiphertext onDone ctx h (.recv (.ok frame))
        { h with pump := .handing payload, received := h.received ++ [payload] }
  | gaveUp (payload : Bytes) (e : CtxErr) : h.pump = .handing payload → ctx = some e →
      Move getCiphertext onDone ctx h .giveUp { h with pump := .done e.err }
  | sent (payload : Bytes) : h.loop = .sending payload →
      Move getCiphertext onDone ctx h (.send none)
        { h with loop := .selecting, sent := h.sent ++ [payload] }
  | sendFailed (payload : Bytes) (e : Err) : h.loop = .sending payload →
      Move getCiphertext onDone ctx h (.send (some e))
        { h with loop := .exited (some e), sendFailed := true }
  | tookErr (e : Err) : h.loop = .selecting → h.pump = .done e →
      Move getCiphertext onDone ctx h .takeErr
        { h with loop := .exited (if e.is .eof then none else some e) }
  | tookDone (e : CtxErr) : h.loop = .selecting → ctx = some e →
      Move getCiphertext onDone ctx h .takeDone { h with loop := .exited (onDone e) }

section Moves

variable {getCiphertext : F → Option Bytes} {onDone : CtxErr → Option Err} {ctx : Option CtxErr}

theorem move_of_step {h h' : Handler} {ev : HandlerEvent F}
    (hstep : h.step getCiphertext onDone ctx ev = some h') :
    Move getCiphertext onDone ctx h ev h' := by
  cases ev with
  | recv result =>
    simp only [step] at hstep
    split at hstep
    · rename_i hpump
      cases hstep
      cases result with
      | error e => exact .recvFailed e hpump
      | ok frame =>
        cases hct : getCiphertext frame with
        | none =>
          have hmove : Move getCiphertext onDone ctx h (.recv (.ok frame)) _ :=
            .recvOther frame hpump hct
          simpa [recv, hct] using hmove
        | some payload =>
          have hmove : Move getCiphertext onDone ctx h (.recv (.ok frame)) _ :=
            .received frame payload hpump hct
          simpa [recv, hct] using hmove
    · contradiction
  | giveUp =>
    simp only [step] at hstep
    split at hstep
    · rename_i payload e hpump
      cases hstep
      exact .gaveUp payload e hpump rfl
    · contradiction
  | send result =>
    simp only [step] at hstep
    split at hstep
    · rename_i payload hloop
      cases hstep
      cases result with
      | none => exact .sent payload hloop
      | some e => exact .sendFailed payload e hloop
    · contradiction
  | takeErr =>
    simp only [step] at hstep
    split at hstep
    · rename_i e hloop hpump
      cases hstep
      exact .tookErr e hloop hpump
    · contradiction
  | takeDone =>
    simp only [step] at hstep
    split at hstep
    · rename_i e hloop
      cases hstep
      exact .tookDone e hloop rfl
    · contradiction

end Moves

theorem handOver_eq_some {h h' : Handler} {payload : Bytes}
    (hover : h.handOver = some (payload, h')) : h.pump = .handing payload ∧
      h' = { h with pump := .receiving, handed := h.handed ++ [payload] } := by
  unfold handOver at hover
  split at hover
  · rename_i hpump
    cases hover
    exact ⟨hpump, rfl⟩
  · contradiction

theorem take_eq_some {h h' : Handler} {payload : Bytes} (htake : h.take payload = some h') :
    h.loop = .selecting ∧
      h' = { h with loop := .sending payload, taken := h.taken ++ [payload] } := by
  unfold take at htake
  split at htake
  · rename_i hloop
    cases htake
    exact ⟨hloop, rfl⟩
  · contradiction

end Handler

/-- The payload that the goroutine holds. -/
def PumpPc.held : PumpPc → List Bytes
  | .handing payload => [payload]
  | _ => []

/-- The payload that the loop holds. -/
def LoopPc.held : LoopPc → List Bytes
  | .sending payload => [payload]
  | _ => []

/-- The goroutine returned without an end of file. -/
def PumpPc.failed : PumpPc → Bool
  | .done e => !e.is .eof
  | _ => false

namespace Handler

variable {F : Type} {getCiphertext : F → Option Bytes} {onDone : CtxErr → Option Err}
  {ctx : Option CtxErr}

/-- Both halves keep their payloads in order, and lose one only by giving up or by a failed
`Send`. -/
structure Inv (h : Handler) : Prop where
  pump : ∃ lost, h.received = h.handed ++ h.pump.held ++ lost ∧
    (lost ≠ [] → h.pump.failed = true)
  loop : ∃ lost, h.taken = h.sent ++ h.loop.held ++ lost ∧ (lost ≠ [] → h.sendFailed = true)
  failed : h.sendFailed = true → ∃ result, h.loop = .exited result

theorem inv_idle : Inv {} :=
  ⟨⟨[], rfl, fun h ↦ absurd rfl h⟩, ⟨[], rfl, fun h ↦ absurd rfl h⟩, fun h ↦ by contradiction⟩

theorem inv_start : start.Inv :=
  ⟨⟨[], rfl, fun h ↦ absurd rfl h⟩, ⟨[], rfl, fun h ↦ absurd rfl h⟩, fun h ↦ by contradiction⟩

/-- A goroutine that has not failed has lost nothing. -/
theorem Inv.received_eq {h : Handler} (hinv : h.Inv) (hfailed : h.pump.failed = false) :
    h.received = h.handed ++ h.pump.held := by
  obtain ⟨lost, heq, hlost⟩ := hinv.pump
  by_cases hnil : lost = []
  · simpa [hnil] using heq
  · rw [hlost hnil] at hfailed
    contradiction

theorem Inv.taken_eq {h : Handler} (hinv : h.Inv) (hfailed : h.sendFailed = false) :
    h.taken = h.sent ++ h.loop.held := by
  obtain ⟨lost, heq, hlost⟩ := hinv.loop
  by_cases hnil : lost = []
  · simpa [hnil] using heq
  · rw [hlost hnil] at hfailed
    contradiction

theorem Inv.handed_prefix_received {h : Handler} (hinv : h.Inv) : h.handed <+: h.received := by
  obtain ⟨lost, heq, _⟩ := hinv.pump
  rw [heq, List.append_assoc]
  exact List.prefix_append _ _

theorem Inv.sent_prefix_taken {h : Handler} (hinv : h.Inv) : h.sent <+: h.taken := by
  obtain ⟨lost, heq, _⟩ := hinv.loop
  rw [heq, List.append_assoc]
  exact List.prefix_append _ _

/-- The loop has not failed a `Send` while it runs. -/
theorem Inv.not_sendFailed {h : Handler} (hinv : h.Inv)
    (hloop : ∀ result, h.loop ≠ .exited result) : h.sendFailed = false := by
  cases hfailed : h.sendFailed with
  | false => rfl
  | true =>
    obtain ⟨result, hexit⟩ := hinv.failed hfailed
    exact absurd hexit (hloop result)

theorem Inv.done {h : Handler} (hinv : h.Inv) (e : Err)
    (hlost : h.pump.held = [] ∨ e.is .eof = false) (hrun : h.pump.failed = false) :
    { h with pump := .done e }.Inv := by
  refine ⟨⟨h.pump.held, ?_, ?_⟩, hinv.loop, hinv.failed⟩
  · simpa [PumpPc.held] using hinv.received_eq hrun
  · intro hne
    rcases hlost with hnil | heof
    · exact absurd hnil hne
    · simp [PumpPc.failed, heof]

theorem Inv.exited {h : Handler} (hinv : h.Inv) (result : Option Err)
    (hloop : h.loop = .selecting) : { h with loop := .exited result }.Inv := by
  refine ⟨hinv.pump, ?_, fun _ ↦ ⟨result, rfl⟩⟩
  obtain ⟨lost, heq, hlost⟩ := hinv.loop
  rw [hloop] at heq
  exact ⟨lost, heq, hlost⟩

theorem Move.inv {h h' : Handler} {ev : HandlerEvent F}
    (hmove : Move getCiphertext onDone ctx h ev h') (hinv : h.Inv) : h'.Inv := by
  cases hmove with
  | recvFailed e hpump =>
    exact hinv.done e (.inl (by simp [hpump, PumpPc.held])) (by simp [hpump, PumpPc.failed])
  | recvOther frame hpump _ =>
    exact hinv.done _ (.inl (by simp [hpump, PumpPc.held])) (by simp [hpump, PumpPc.failed])
  | received frame payload hpump _ =>
    have heq := hinv.received_eq (by simp [hpump, PumpPc.failed])
    refine ⟨⟨[], ?_, fun hne ↦ absurd rfl hne⟩, hinv.loop, hinv.failed⟩
    simp [heq, hpump, PumpPc.held]
  | gaveUp payload e hpump _ =>
    refine hinv.done e.err (.inr ?_) (by simp [hpump, PumpPc.failed])
    cases e <;> rfl
  | sent payload hloop =>
    have hfailed := hinv.not_sendFailed (by simp [hloop])
    have heq := hinv.taken_eq hfailed
    refine ⟨hinv.pump, ⟨[], ?_, fun hne ↦ absurd rfl hne⟩, fun hf ↦ ?_⟩
    · simp [heq, hloop, LoopPc.held]
    · rw [hfailed] at hf
      contradiction
  | sendFailed payload e hloop =>
    have heq := hinv.taken_eq (hinv.not_sendFailed (by simp [hloop]))
    refine ⟨hinv.pump, ⟨[payload], ?_, fun _ ↦ rfl⟩, fun _ ↦ ⟨_, rfl⟩⟩
    simp [heq, hloop, LoopPc.held]
  | tookErr e hloop _ => exact hinv.exited _ hloop
  | tookDone e hloop _ => exact hinv.exited _ hloop

theorem Inv.handOver {h : Handler} (hinv : h.Inv) {payload : Bytes}
    (hpump : h.pump = .handing payload) :
    { h with pump := .receiving, handed := h.handed ++ [payload] }.Inv := by
  have heq := hinv.received_eq (by simp [hpump, PumpPc.failed])
  refine ⟨⟨[], ?_, fun hne ↦ absurd rfl hne⟩, hinv.loop, hinv.failed⟩
  simp [heq, hpump, PumpPc.held]

theorem Inv.take {h : Handler} (hinv : h.Inv) (payload : Bytes) (hloop : h.loop = .selecting) :
    { h with loop := .sending payload, taken := h.taken ++ [payload] }.Inv := by
  have hfailed := hinv.not_sendFailed (by simp [hloop])
  have heq := hinv.taken_eq hfailed
  refine ⟨hinv.pump, ⟨[], ?_, fun hne ↦ absurd rfl hne⟩, fun hf ↦ ?_⟩
  · simp [heq, hloop, LoopPc.held]
  · simp [hfailed] at hf

/-- Only a hand-over or a take changes what has crossed the channels. -/
theorem Move.frame {h h' : Handler} {ev : HandlerEvent F}
    (hmove : Move getCiphertext onDone ctx h ev h') :
    h'.handed = h.handed ∧ h'.taken = h.taken := by
  cases hmove <;> exact ⟨rfl, rfl⟩

end Handler

end RelayCat.Relay
