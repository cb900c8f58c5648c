import RelayCat.Automaton.Machine
import RelayCat.Go.Errors
import Mathlib.Data.List.Infix

/-!
# A session over pipes

`runWithPipes` and `exitSession`: two goroutines copy the outputs of the command to the client,
the one that ends last closes `done`, and only then the command is waited for and its status
sent. The command, the processes that it has handed its outputs to and the client's side of the
channel do what they like. The goroutine that copies the client's input is not waited for and
shares nothing with the rest, so that it does not appear.

What `Exit` of the server's library sends is a parameter. The library calls it once more when the
handler has returned.
-/

namespace RelayCat.SSHServer

open Go Automaton

inductive Stream where
  | stdout
  | stderr
  deriving DecidableEq, Repr

/-- What `cmd.Wait` returns other than nil. -/
inductive WaitErr where
  | exit (code : ℤ)
  | other (e : Err)
  deriving DecidableEq, Repr

/-- What the client receives; `message` is the text of an error on the error stream. -/
inductive Frame where
  | data (stream : Stream) (chunk : Bytes)
  | message (e : Err)
  | exitStatus (code : ℕ)
  deriving DecidableEq, Repr

def Frame.isExit : Frame → Bool
  | exitStatus _ => true
  | _ => false

/-- The frame that carries a status, an unsigned number of 32 bits. -/
def exitFrame (code : ℤ) : Frame := .exitStatus (code % 4294967296).toNat

/-- `Exit` sends the first status and no other; `sessExit` tells what the client has received
after a call. -/
structure ExitsOnce (sessExit : List Frame → ℤ → List Frame) : Prop where
  first : ∀ frames code, (∀ frame ∈ frames, frame.isExit = false) →
    sessExit frames code = frames ++ [exitFrame code]
  again : ∀ frames code code', sessExit (frames ++ [exitFrame code]) code' =
    frames ++ [exitFrame code]

/-- What a frame brings of an output. -/
def Frame.chunk (stream : Stream) : Frame → Bytes
  | data stream' chunk => if stream' = stream then chunk else []
  | _ => []

/-- `copyOutput`. -/
inductive CopyPc where
  | idle
  | reading
  | sending (chunk : Bytes)
  | counting
  | ended
  deriving DecidableEq, Repr

/-- One output of the command: `written` by it and its children, of which `pipe` is not read yet;
`held` tells that a process has the write end, and `failed` that copying ended before the end of
the stream. -/
structure Output where
  written : Bytes := []
  pipe : Bytes := []
  held : Bool := true
  copier : CopyPc := .idle
  failed : Bool := false
  deriving DecidableEq, Repr

inductive SessionPc where
  | stdinPipe
  | stdoutPipe
  | stderrPipe
  | start
  | awaitDone
  | wait
  | exitSession (result : Option WaitErr)
  | exit (code : ℤ)
  | returned
  | closed
  deriving DecidableEq, Repr

/-- `process` is `none` until the command has ended, and `closes` counts the executions of
`close(done)`. -/
structure SessionRun where
  pc : SessionPc := .stdinPipe
  started : Bool := false
  process : Option (Option WaitErr) := none
  output : Stream → Output := fun _ ↦ {}
  streams : ℕ := 2
  closes : ℕ := 0
  frames : List Frame := []

inductive SessionAct where
  | piped (err : Option Err)
  | started (err : Option Err)
  | doneReceived
  | waited
  | messageSent
  | exitSent
  | libraryExit
  | wrote (stream : Stream) (chunk : Bytes)
  | released (stream : Stream)
  | processEnded (result : Option WaitErr)
  | read (stream : Stream) (n : ℕ)
  | readFailed (stream : Stream)
  | sent (stream : Stream)
  | sendFailed (stream : Stream) (n : ℕ)
  | eof (stream : Stream)
  | counted (stream : Stream)
  deriving DecidableEq, Repr

namespace SessionRun

def setOutput (s : SessionRun) (stream : Stream) (o : Output) : SessionRun :=
  { s with output := Function.update s.output stream o }

section Step

variable (sessExit : List Frame → ℤ → List Frame)

/-- `sess.Exit`. -/
def sendExit (s : SessionRun) (code : ℤ) : SessionRun :=
  { s with frames := sessExit s.frames code }

/-- What `exitSession` does with the result of `cmd.Wait`. -/
def exitStep (s : SessionRun) : Option WaitErr → SessionAct → Option SessionRun
  | none, .exitSent => some { s.sendExit sessExit 0 with pc := .returned }
  | some (.exit code), .exitSent => some { s.sendExit sessExit code with pc := .returned }
  | some (.other e), .messageSent =>
    some { s with pc := .exit 1, frames := s.frames ++ [.message e] }
  | _, _ => none

/-- The handler's goroutine. -/
def runWithPipes (s : SessionRun) (a : SessionAct) : Option SessionRun :=
  match s.pc, a with
  | .stdinPipe, .piped none => some { s with pc := .stdoutPipe }
  | .stdinPipe, .piped (some e) => some { s with pc := .exitSession (some (.other e)) }
  | .stdoutPipe, .piped none => some { s with pc := .stderrPipe }
  | .stdoutPipe, .piped (some e) => some { s with pc := .exitSession (some (.other e)) }
  | .stderrPipe, .piped none => some { s with pc := .start }
  | .stderrPipe, .piped (some e) => some { s with pc := .exitSession (some (.other e)) }
  | .start, .started none =>
    some { s with
      pc := .awaitDone
      started := true
      output := fun stream ↦ { s.output stream with copier := .reading } }
  | .start, .started (some e) => some { s with pc := .exitSession (some (.other e)) }
  | .awaitDone, .doneReceived => if s.closes = 0 then none else some { s with pc := .wait }
  | .wait, .waited => s.process.map fun result ↦ { s with pc := .exitSession result }
  | .exitSession result, a => s.exitStep sessExit result a
  | .exit code, .exitSent => some { s.sendExit sessExit code with pc := .returned }
  | .returned, .libraryExit => some { s.sendExit sessExit 0 with pc := .closed }
  | _, _ => none

/-- The goroutine that copies one output. -/
def copyOutput (s : SessionRun) : SessionAct → Option SessionRun
  | .read stream n =>
    let o := s.output stream
    match o.copier with
    | .reading =>
      if 0 < n ∧ n ≤ o.pipe.length then
        some (s.setOutput stream { o with
          pipe := o.pipe.drop n, copier := .sending (o.pipe.take n) })
      else none
    | _ => none
  | .readFailed stream =>
    let o := s.output stream
    match o.copier with
    | .reading => some (s.setOutput stream { o with copier := .counting, failed := true })
    | _ => none
  | .sent stream =>
    let o := s.output stream
    match o.copier with
    | .sending chunk => some { s.setOutput stream { o with copier := .reading } with
        frames := s.frames ++ [.data stream chunk] }
    | _ => none
  | .sendFailed stream n =>
    let o := s.output stream
    match o.copier with
    | .sending chunk =>
      some { s.setOutput stream { o with copier := .counting, failed := true } with
        frames := s.frames ++ [.data stream (chunk.take n)] }
    | _ => none
  | .eof stream =>
    let o := s.output stream
    match o.copier with
    | .reading =>
      if o.pipe = [] ∧ o.held = false then
        some (s.setOutput stream { o with copier := .counting })
      else none
    | _ => none
  | .counted stream =>
    let o := s.output stream
    match o.copier with
    | .counting => some { s.setOutput stream { o with copier := .ended } with
        streams := s.streams - 1
        closes := if s.streams - 1 = 0 then s.closes + 1 else s.closes }
    | _ => none
  | _ => none

/-- The command and the processes that hold its outputs. -/
def processes (s : SessionRun) : SessionAct → Option SessionRun
  | .wrote stream chunk =>
    let o := s.output stream
    if s.started ∧ o.held then
      some (s.setOutput stream { o with written := o.written ++ chunk, pipe := o.pipe ++ chunk })
    else none
  | .released stream =>
    let o := s.output stream
    if s.started ∧ o.held then some (s.setOutput stream { o with held := false }) else none
  | .processEnded result =>
    if s.started ∧ s.process = none then some { s with process := some result } else none
  | _ => none

def step (s : SessionRun) (a : SessionAct) : Option SessionRun :=
  (s.runWithPipes sessExit a).or ((s.copyOutput a).or (s.processes a))

def machine : Machine SessionRun SessionAct where
  init := {}
  step := step sessExit

end Step

end SessionRun

/-- The bytes that have been read from the pipe and not sent. -/
def CopyPc.buffer : CopyPc → Bytes
  | sending chunk => chunk
  | _ => []

/-- The pipes are not set up or the command is not started. -/
def SessionPc.isEarly : SessionPc → Bool
  | stdinPipe | stdoutPipe | stderrPipe | start => true
  | _ => false

/-- The status has been sent. -/
def SessionPc.isReturned : SessionPc → Bool
  | returned | closed => true
  | _ => false

/-- The status that `exitSession` sends. -/
def statusOf : Option WaitErr → ℤ
  | none => 0
  | some (.exit code) => code
  | some (.other _) => 1

namespace SessionRun

/-- What the client has received of an output. -/
def received (s : SessionRun) (stream : Stream) : Bytes := s.frames.flatMap (Frame.chunk stream)

/-- Everything a step of the handler's goroutine can do. -/
inductive MainMove (sessExit : List Frame → ℤ → List Frame) (s : SessionRun) : SessionRun → Prop
  | piped (pc : SessionPc) : s.pc.isEarly = true → pc.isEarly = true →
      MainMove sessExit s { s with pc := pc }
  | refused (e : Err) : s.pc.isEarly = true →
      MainMove sessExit s { s with pc := .exitSession (some (.other e)) }
  | started : s.pc = .start →
      MainMove sessExit s { s with
        pc := .awaitDone
        started := true
        output := fun stream ↦ { s.output stream with copier := .reading } }
  | doneReceived : s.pc = .awaitDone → s.closes ≠ 0 → MainMove sessExit s { s with pc := .wait }
  | waited (result : Option WaitErr) : s.pc = .wait → s.process = some result →
      MainMove sessExit s { s with pc := .exitSession result }
  | messageSent (e : Err) : s.pc = .exitSession (some (.other e)) →
      MainMove sessExit s { s with pc := .exit 1, frames := s.frames ++ [.message e] }
  | exitSent (code : ℤ) :
      (∃ result, s.pc = .exitSession result ∧ code = statusOf result) ∨ s.pc = .exit code →
      MainMove sessExit s { s.sendExit sessExit code with pc := .returned }
  | libraryExit : s.pc = .returned →
      MainMove sessExit s { s.sendExit sessExit 0 with pc := .closed }

/-- Everything a step of the goroutine that copies an output can do. -/
inductive CopyMove (s : SessionRun) (stream : Stream) : SessionRun → Prop
  | read (n : ℕ) : (s.output stream).copier = .reading →
      CopyMove s stream (s.setOutput stream { s.output stream with
        pipe := (s.output stream).pipe.drop n
        copier := .sending ((s.output stream).pipe.take n) })
  | readFailed : (s.output stream).copier = .reading →
      CopyMove s stream (s.setOutput stream { s.output stream with
        copier := .counting, failed := true })
  | sent (chunk : Bytes) : (s.output stream).copier = .sending chunk →
      CopyMove s stream { s.setOutput stream { s.output stream with copier := .reading } with
        frames := s.frames ++ [.data stream chunk] }
  | sendFailed (chunk : Bytes) (n : ℕ) : (s.output stream).copier = .sending chunk →
      CopyMove s stream { s.setOutput stream { s.output stream with
          copier := .counting, failed := true } with
        frames := s.frames ++ [.data stream (chunk.take n)] }
  | eof : (s.output stream).copier = .reading → (s.output stream).pipe = [] →
      (s.output stream).held = false →
      CopyMove s stream (s.setOutput stream { s.output stream with copier := .counting })
  | counted : (s.output stream).copier = .counting →
      CopyMove s stream { s.setOutput stream { s.output stream with copier := .ended } with
        streams := s.streams - 1
        closes := if s.streams - 1 = 0 then s.closes + 1 else s.closes }

/-- Everything the command and its children can do. -/
inductive ProcessMove (s : SessionRun) : SessionRun → Prop
  | wrote (stream : Stream) (chunk : Bytes) : s.started = true →
      (s.output stream).held = true →
      ProcessMove s (s.setOutput stream { s.output stream with
        written := (s.output stream).written ++ chunk
        pipe := (s.output stream).pipe ++ chunk })
  | released (stream : Stream) : s.started = true →
      ProcessMove s (s.setOutput stream { s.output stream with held := false })
  | ended (result : Option WaitErr) : s.started = true → s.process = none →
      ProcessMove s { s with process := some result }

variable {sessExit : List Frame → ℤ → List Frame} {s t : SessionRun} {a : SessionAct}
  {stream : Stream}

theorem mainMove_of_runWithPipes (h : s.runWithPipes sessExit a = some t) :
    MainMove sessExit s t := by
  unfold runWithPipes at h
  split at h
  · rename_i hpc; cases h; exact .piped _ (by rw [hpc]; rfl) rfl
  · rename_i hpc; cases h; exact .refused _ (by rw [hpc]; rfl)
  · rename_i hpc; cases h; exact .piped _ (by rw [hpc]; rfl) rfl
  · rename_i hpc; cases h; exact .refused _ (by rw [hpc]; rfl)
  · rename_i hpc; cases h; exact .piped _ (by rw [hpc]; rfl) rfl
  · rename_i hpc; cases h; exact .refused _ (by rw [hpc]; rfl)
  · rename_i hpc; cases h; exact .started hpc
  · rename_i hpc; cases h; exact .refused _ (by rw [hpc]; rfl)
  · rename_i hpc
    obtain ⟨hcloses, h⟩ := Option.ite_none_left_eq_some.mp h
    cases h; exact .doneReceived hpc hcloses
  · rename_i hpc
    obtain ⟨result, hprocess, rfl⟩ := Option.map_eq_some_iff.mp h
    exact .waited result hpc hprocess
  · rename_i result a hpc
    unfold exitStep at h
    split at h
    · cases h; exact .exitSent 0 (.inl ⟨_, hpc, rfl⟩)
    · cases h; exact .exitSent _ (.inl ⟨_, hpc, rfl⟩)
    · cases h; exact .messageSent _ hpc
    · contradiction
  · rename_i hpc; cases h; exact .exitSent _ (.inr hpc)
  · rename_i hpc; cases h; exact .libraryExit hpc
  · contradiction

theorem copyMove_of_copyOutput (h : s.copyOutput a = some t) : ∃ stream, CopyMove s stream t := by
  cases a with
  | read stream n =>
    simp only [copyOutput] at h
    split at h
    · obtain ⟨_, h⟩ := Option.ite_none_right_eq_some.mp h
      cases h; exact ⟨stream, .read n ‹_›⟩
    · contradiction
  | readFailed stream =>
    simp only [copyOutput] at h
    split at h
    · cases h; exact ⟨stream, .readFailed ‹_›⟩
    · contradiction
  | sent stream =>
    simp only [copyOutput] at h
    split at h
    · cases h; exact ⟨stream, .sent _ ‹_›⟩
    · contradiction
  | sendFailed stream n =>
    simp only [copyOutput] at h
    split at h
    · cases h; exact ⟨stream, .sendFailed _ n ‹_›⟩
    · contradiction
  | eof stream =>
    simp only [copyOutput] at h
    split at h
    · obtain ⟨⟨hpipe, hheld⟩, h⟩ := Option.ite_none_right_eq_some.mp h
      cases h; exact ⟨stream, .eof ‹_› hpipe hheld⟩
    · contradiction
  | counted stream =>
    simp only [copyOutput] at h
    split at h
    · cases h; exact ⟨stream, .counted ‹_›⟩
    · contradiction
  | _ => contradiction

theorem processMove_of_processes (h : s.processes a = some t) : ProcessMove s t := by
  unfold processes at h
  split at h
  · obtain ⟨⟨hstarted, hheld⟩, h⟩ := Option.ite_none_right_eq_some.mp h
    cases h; exact .wrote _ _ hstarted hheld
  · obtain ⟨⟨hstarted, _⟩, h⟩ := Option.ite_none_right_eq_some.mp h
    cases h; exact .released _ hstarted
  · obtain ⟨⟨hstarted, hprocess⟩, h⟩ := Option.ite_none_right_eq_some.mp h
    cases h; exact .ended _ hstarted hprocess
  · contradiction

theorem moves_of_step (h : s.step sessExit a = some t) :
    MainMove sessExit s t ∨ (∃ stream, CopyMove s stream t) ∨ ProcessMove s t := by
  rcases Option.or_eq_some_iff.mp h with hmain | ⟨_, h⟩
  · exact .inl (mainMove_of_runWithPipes hmain)
  · rcases Option.or_eq_some_iff.mp h with hcopy | ⟨_, hprocess⟩
    · exact .inr (.inl (copyMove_of_copyOutput hcopy))
    · exact .inr (.inr (processMove_of_processes hprocess))

/-- The goroutines that have not decremented the counter. -/
def remaining (s : SessionRun) : ℕ :=
  (if (s.output .stdout).copier = .ended then 0 else 1) +
    if (s.output .stderr).copier = .ended then 0 else 1

/-- The counter, the channel and the goroutines. -/
structure Counted (s : SessionRun) : Prop where
  idle : s.started = false → ∀ stream, (s.output stream).copier = .idle ∧ s.received stream = []
  live : s.started = true → ∀ stream, (s.output stream).copier ≠ .idle
  streams : s.streams = s.remaining
  closes : s.closes = if s.streams = 0 then 1 else 0

/-- One output, of which the client has got some bytes. -/
structure Copied (o : Output) (got : Bytes) : Prop where
  order : got <+: o.written
  pending : o.failed = false → got ++ o.copier.buffer ++ o.pipe = o.written
  complete : o.copier = .counting ∨ o.copier = .ended →
    o.failed = true ∨ o.pipe = [] ∧ o.held = false
  stopped : o.failed = true → o.copier = .counting ∨ o.copier = .ended

/-- Where the status that is sent comes from. -/
def Outcome (s : SessionRun) (code : ℤ) : Prop :=
  s.started = false ∧ code = 1 ∨
    s.started = true ∧ s.closes ≠ 0 ∧ ∃ result, s.process = some result ∧ code = statusOf result

/-- The handler's goroutine and the frames it has sent. -/
structure Controlled (s : SessionRun) : Prop where
  early : s.pc.isEarly = true → s.started = false
  started : s.pc = .awaitDone → s.started = true
  waiting : s.pc = .wait → s.started = true ∧ s.closes ≠ 0
  exiting : ∀ result, s.pc = .exitSession result → s.Outcome (statusOf result)
  exit : ∀ code, s.pc = .exit code → s.Outcome code
  unsent : s.pc.isReturned = false → ∀ frame ∈ s.frames, frame.isExit = false
  sent : s.pc.isReturned = true → ∃ before code, s.frames = before ++ [exitFrame code] ∧
    (∀ frame ∈ before, frame.isExit = false) ∧ s.Outcome code

/-- No status has been sent, or one and nothing after it. -/
theorem Controlled.frames (h : s.Controlled) :
    (∀ frame ∈ s.frames, frame.isExit = false) ∨
      ∃ before code, s.frames = before ++ [exitFrame code] := by
  cases hreturned : s.pc.isReturned with
  | false => exact .inl (h.unsent hreturned)
  | true =>
    obtain ⟨before, code, hframes, -⟩ := h.sent hreturned
    exact .inr ⟨before, code, hframes⟩

namespace Copied

variable {o : Output} {got chunk : Bytes}

/-- A goroutine that has not stopped has not failed. -/
theorem not_failed (h : Copied o got) (hcounting : o.copier ≠ .counting)
    (hended : o.copier ≠ .ended) : o.failed = false := by
  by_contra hfailed
  rcases h.stopped (by simpa using hfailed) with hstop | hstop
  · exact hcounting hstop
  · exact hended hstop

theorem read (h : Copied o got) (hreading : o.copier = .reading) (n : ℕ) :
    Copied { o with pipe := o.pipe.drop n, copier := .sending (o.pipe.take n) } got := by
  have hfailed := h.not_failed (by simp [hreading]) (by simp [hreading])
  refine ⟨h.order, fun _ ↦ ?_, by simp, by simp [hfailed]⟩
  simpa [hreading, CopyPc.buffer] using h.pending hfailed

theorem fail (h : Copied o got) : Copied { o with copier := .counting, failed := true } got :=
  ⟨h.order, by simp, by simp, by simp⟩

theorem sent (h : Copied o got) (hsending : o.copier = .sending chunk) :
    Copied { o with copier := .reading } (got ++ chunk) := by
  have hfailed := h.not_failed (by simp [hsending]) (by simp [hsending])
  have hall := h.pending hfailed
  rw [hsending, CopyPc.buffer] at hall
  refine ⟨?_, fun _ ↦ ?_, by simp, by simp [hfailed]⟩
  · rw [← hall]
    exact List.prefix_append _ _
  · simpa [CopyPc.buffer] using hall

theorem sendFailed (h : Copied o got) (hsending : o.copier = .sending chunk) (n : ℕ) :
    Copied { o with copier := .counting, failed := true } (got ++ chunk.take n) := by
  have hall := h.pending (h.not_failed (by simp [hsending]) (by simp [hsending]))
  rw [hsending, CopyPc.buffer] at hall
  refine ⟨?_, by simp, by simp, by simp⟩
  rw [← hall, List.append_assoc]
  exact (List.prefix_append_right_inj _).mpr
    ((List.take_prefix n chunk).trans (List.prefix_append _ _))

theorem eof (h : Copied o got) (hreading : o.copier = .reading) (hpipe : o.pipe = [])
    (hheld : o.held = false) : Copied { o with copier := .counting } got := by
  refine ⟨h.order, fun hfailed ↦ ?_, fun _ ↦ .inr ⟨hpipe, hheld⟩, by simp⟩
  simpa [hreading, CopyPc.buffer] using h.pending hfailed

theorem counted (h : Copied o got) (hcounting : o.copier = .counting) :
    Copied { o with copier := .ended } got := by
  refine ⟨h.order, fun hfailed ↦ ?_, fun _ ↦ h.complete (.inl hcounting), by simp⟩
  simpa [hcounting, CopyPc.buffer] using h.pending hfailed

theorem wrote (h : Copied o got) (hheld : o.held = true) (chunk : Bytes) :
    Copied { o with written := o.written ++ chunk, pipe := o.pipe ++ chunk } got := by
  refine ⟨h.order.trans (List.prefix_append _ _), fun hfailed ↦ ?_, fun hends ↦ ?_, h.stopped⟩
  · rw [← List.append_assoc, h.pending hfailed]
  · rcases h.complete hends with hfailed | ⟨_, hreleased⟩
    · exact .inl hfailed
    · simp [hreleased] at hheld

theorem released (h : Copied o got) : Copied { o with held := false } got := by
  refine ⟨h.order, h.pending, fun hends ↦ ?_, h.stopped⟩
  exact (h.complete hends).imp_right fun hend ↦ ⟨hend.1, rfl⟩

theorem started (h : Copied o got) (hidle : o.copier = .idle) :
    Copied { o with copier := .reading } got := by
  refine ⟨h.order, fun hfailed ↦ ?_, by simp, fun hfailed ↦ ?_⟩
  · simpa [hidle, CopyPc.buffer] using h.pending hfailed
  · simpa [hidle] using h.stopped hfailed

end Copied

theorem received_sendExit (hexit : ExitsOnce sessExit) (h : s.Controlled) (code : ℤ)
    (stream : Stream) : (s.sendExit sessExit code).received stream = s.received stream := by
  unfold sendExit received
  rcases h.frames with hunsent | ⟨before, code', hframes⟩
  · simp [hexit.first _ _ hunsent, exitFrame, Frame.chunk]
  · simp only [hframes, hexit.again]

@[simp] theorem setOutput_self (s : SessionRun) (stream : Stream) (o : Output) :
    (s.setOutput stream o).output stream = o := Function.update_self ..

theorem setOutput_of_ne {i : Stream} (h : i ≠ stream) (s : SessionRun) (o : Output) :
    (s.setOutput stream o).output i = s.output i := Function.update_of_ne h ..

theorem CopyMove.copied (hmove : CopyMove s stream t)
    (h : ∀ i, Copied (s.output i) (s.received i)) (i : Stream) :
    Copied (t.output i) (t.received i) := by
  by_cases hi : i = stream
  · subst hi
    have hi := h i
    have hreceived : ∀ chunk, (s.frames ++ [Frame.data i chunk]).flatMap (Frame.chunk i) =
        s.received i ++ chunk := by
      simp [Frame.chunk, received]
    cases hmove with
    | read n hreading =>
      rw [setOutput_self]
      exact hi.read hreading n
    | readFailed hreading =>
      rw [setOutput_self]
      exact hi.fail
    | sent chunk hsending =>
      simp only [setOutput_self, received, hreceived]
      exact hi.sent hsending
    | sendFailed chunk n hsending =>
      simp only [setOutput_self, received, hreceived]
      exact hi.sendFailed hsending n
    | eof hreading hpipe hheld =>
      rw [setOutput_self]
      exact hi.eof hreading hpipe hheld
    | counted hcounting =>
      simp only [setOutput_self]
      exact hi.counted hcounting
  · have hsame : t.output i = s.output i ∧ t.received i = s.received i := by
      cases hmove <;> simp [setOutput, received, Frame.chunk, hi, Ne.symm hi]
    rw [hsame.1, hsame.2]
    exact h i

theorem ProcessMove.copied (hmove : ProcessMove s t)
    (h : ∀ i, Copied (s.output i) (s.received i)) (i : Stream) :
    Copied (t.output i) (t.received i) := by
  cases hmove with
  | wrote stream chunk _ hheld =>
    by_cases hi : i = stream
    · subst hi
      rw [setOutput_self]
      exact (h i).wrote hheld chunk
    · rw [setOutput_of_ne hi]
      exact h i
  | released stream _ =>
    by_cases hi : i = stream
    · subst hi
      rw [setOutput_self]
      exact (h i).released
    · rw [setOutput_of_ne hi]
      exact h i
  | ended result _ _ => exact h i

theorem MainMove.copied (hexit : ExitsOnce sessExit) (hmove : MainMove sessExit s t)
    (hidle : s.started = false → ∀ stream, (s.output stream).copier = .idle)
    (hcontrolled : s.Controlled) (h : ∀ i, Copied (s.output i) (s.received i)) (i : Stream) :
    Copied (t.output i) (t.received i) := by
  cases hmove with
  | started hpc =>
    exact (h i).started (hidle (hcontrolled.early (by rw [hpc]; rfl)) i)
  | messageSent e _ =>
    have hsame : (s.frames ++ [Frame.message e]).flatMap (Frame.chunk i) = s.received i := by
      simp [Frame.chunk, received]
    simp only [received, hsame]
    exact h i
  | exitSent code _ =>
    have hsame := received_sendExit hexit hcontrolled code i
    simp only [received] at hsame ⊢
    rw [hsame]
    exact h i
  | libraryExit _ =>
    have hsame := received_sendExit hexit hcontrolled 0 i
    simp only [received] at hsame ⊢
    rw [hsame]
    exact h i
  | _ => exact h i

/-- The goroutines, the counter and the channel do not change. -/
theorem Counted.congr (h : s.Counted) (hstarted : t.started = s.started)
    (hcopier : ∀ i, (t.output i).copier = (s.output i).copier)
    (hreceived : ∀ i, t.received i = s.received i) (hstreams : t.streams = s.streams)
    (hcloses : t.closes = s.closes) : t.Counted where
  idle hnot i := by
    rw [hcopier, hreceived]
    exact h.idle (hstarted ▸ hnot) i
  live hyes i := by
    rw [hcopier]
    exact h.live (hstarted ▸ hyes) i
  streams := by
    rw [hstreams, remaining, hcopier, hcopier]
    exact h.streams
  closes := by
    rw [hcloses, hstreams]
    exact h.closes

theorem MainMove.counter (hexit : ExitsOnce sessExit) (hmove : MainMove sessExit s t)
    (hcontrolled : s.Controlled) (h : s.Counted) : t.Counted := by
  cases hmove with
  | started hpc =>
    have hidle := h.idle (hcontrolled.early (by rw [hpc]; rfl))
    refine ⟨by simp, by simp, ?_, h.closes⟩
    simp [h.streams, remaining, (hidle _).1]
  | messageSent e _ =>
    refine h.congr rfl (fun _ ↦ rfl) (fun i ↦ ?_) rfl rfl
    simp [received, Frame.chunk]
  | exitSent code _ =>
    exact h.congr rfl (fun _ ↦ rfl) (received_sendExit hexit hcontrolled code) rfl rfl
  | libraryExit _ =>
    exact h.congr rfl (fun _ ↦ rfl) (received_sendExit hexit hcontrolled 0) rfl rfl
  | _ => exact h.congr rfl (fun _ ↦ rfl) (fun _ ↦ rfl) rfl rfl

/-- A goroutine that copies runs only after the start. -/
theorem Counted.started_of_copier (h : s.Counted) (stream : Stream)
    (hcopier : (s.output stream).copier ≠ .idle) : s.started = true := by
  by_contra hnot
  exact hcopier (h.idle (by simpa using hnot) stream).1

/-- One goroutine moves on without decrementing the counter. -/
theorem Counted.move (h : s.Counted) (stream : Stream) {copier : CopyPc}
    (hstarted : t.started = s.started)
    (hself : (t.output stream).copier = copier)
    (hother : ∀ i, i ≠ stream → t.output i = s.output i) (hstreams : t.streams = s.streams)
    (hcloses : t.closes = s.closes) (hbefore : (s.output stream).copier ≠ .idle)
    (hrunning : (s.output stream).copier ≠ .ended) (hidle : copier ≠ .idle)
    (hended : copier ≠ .ended) : t.Counted := by
  have hyes := h.started_of_copier stream hbefore
  refine ⟨fun hnot ↦ ?_, fun _ i ↦ ?_, ?_, ?_⟩
  · rw [hstarted, hyes] at hnot
    contradiction
  · by_cases hi : i = stream
    · rw [hi, hself]
      exact hidle
    · rw [hother i hi]
      exact h.live hyes i
  · rw [hstreams, h.streams, remaining, remaining]
    cases stream with
    | stdout => simp [hself, hrunning, hended, hother .stderr (by simp)]
    | stderr => simp [hself, hrunning, hended, hother .stdout (by simp)]
  · rw [hcloses, hstreams]
    exact h.closes

theorem CopyMove.counter (hmove : CopyMove s stream t) (h : s.Counted) : t.Counted := by
  cases hmove with
  | read n hreading =>
    exact h.move stream rfl (by simp; rfl) (fun i hi ↦ setOutput_of_ne hi s _) rfl rfl
      (by simp [hreading]) (by simp [hreading]) (by simp) (by simp)
  | readFailed hreading =>
    exact h.move stream rfl (by simp; rfl) (fun i hi ↦ setOutput_of_ne hi s _) rfl rfl
      (by simp [hreading]) (by simp [hreading]) (by simp) (by simp)
  | sent chunk hsending =>
    exact h.move stream rfl (by simp; rfl) (fun i hi ↦ setOutput_of_ne hi s _) rfl rfl
      (by simp [hsending]) (by simp [hsending]) (by simp) (by simp)
  | sendFailed chunk n hsending =>
    exact h.move stream rfl (by simp; rfl) (fun i hi ↦ setOutput_of_ne hi s _) rfl rfl
      (by simp [hsending]) (by simp [hsending]) (by simp) (by simp)
  | eof hreading _ _ =>
    exact h.move stream rfl (by simp; rfl) (fun i hi ↦ setOutput_of_ne hi s _) rfl rfl
      (by simp [hreading]) (by simp [hreading]) (by simp) (by simp)
  | counted hcounting =>
    have hyes := h.started_of_copier stream (by simp [hcounting])
    have hstreams := h.streams
    have hcloses := h.closes
    refine ⟨fun hnot ↦ ?_, fun _ i ↦ ?_, ?_, ?_⟩
    · exact absurd (hnot.symm.trans hyes) (by simp)
    · by_cases hi : i = stream
      · simp [hi]
      · simp only [setOutput_of_ne hi]
        exact h.live hyes i
    · simp only [remaining] at hstreams ⊢
      cases stream with
      | stdout => simp_all [setOutput]
      | stderr => simp_all [setOutput]
    · have hpositive : s.streams ≠ 0 := by
        rw [hstreams, remaining]
        cases stream <;> simp [hcounting]
      simp only [hcloses, hpositive, if_false]

theorem ProcessMove.counter (hmove : ProcessMove s t) (h : s.Counted) : t.Counted := by
  have hkeep : ∀ stream o, o.copier = (s.output stream).copier →
      (s.setOutput stream o).Counted := by
    intro stream o ho
    refine h.congr rfl (fun i ↦ ?_) (fun _ ↦ rfl) rfl rfl
    by_cases hi : i = stream
    · rw [hi, setOutput_self, ho]
    · rw [setOutput_of_ne hi]
  cases hmove with
  | wrote stream chunk _ _ => exact hkeep stream _ rfl
  | released stream _ => exact hkeep stream _ rfl
  | ended result _ _ => exact h.congr rfl (fun _ ↦ rfl) (fun _ ↦ rfl) rfl rfl

theorem MainMove.controlled (hexit : ExitsOnce sessExit) (hmove : MainMove sessExit s t)
    (h : s.Controlled) : t.Controlled := by
  cases hmove with
  | piped pc hearly hpc =>
    have hnot := h.early hearly
    have hsent : ∀ frame ∈ s.frames, frame.isExit = false := by
      refine h.unsent ?_
      cases hpcs : s.pc <;> simp_all [SessionPc.isEarly, SessionPc.isReturned]
    cases pc <;> constructor <;> simp_all [SessionPc.isEarly, SessionPc.isReturned]
  | refused e hearly =>
    have hnot := h.early hearly
    have hsent : ∀ frame ∈ s.frames, frame.isExit = false := by
      refine h.unsent ?_
      cases hpcs : s.pc <;> simp_all [SessionPc.isEarly, SessionPc.isReturned]
    refine ⟨by simp [SessionPc.isEarly], by simp, by simp, ?_, by simp, fun _ ↦ hsent,
      by simp [SessionPc.isReturned]⟩
    rintro result ⟨⟩
    exact .inl ⟨hnot, rfl⟩
  | started hpc =>
    exact ⟨by simp [SessionPc.isEarly], fun _ ↦ rfl, by simp, by simp, by simp,
      fun _ ↦ h.unsent (by rw [hpc]; rfl), by simp [SessionPc.isReturned]⟩
  | doneReceived hpc hcloses =>
    exact ⟨by simp [SessionPc.isEarly], by simp, fun _ ↦ ⟨h.started hpc, hcloses⟩, by simp,
      by simp, fun _ ↦ h.unsent (by rw [hpc]; rfl), by simp [SessionPc.isReturned]⟩
  | waited result hpc hprocess =>
    obtain ⟨hstarted, hcloses⟩ := h.waiting hpc
    refine ⟨by simp [SessionPc.isEarly], by simp, by simp, ?_, by simp,
      fun _ ↦ h.unsent (by rw [hpc]; rfl), by simp [SessionPc.isReturned]⟩
    rintro result' ⟨⟩
    exact .inr ⟨hstarted, hcloses, result, hprocess, rfl⟩
  | messageSent e hpc =>
    refine ⟨by simp [SessionPc.isEarly], by simp, by simp, by simp, ?_, fun _ ↦ ?_,
      by simp [SessionPc.isReturned]⟩
    · rintro code ⟨⟩
      exact h.exiting _ hpc
    · have hunsent := h.unsent (by rw [hpc]; rfl)
      simpa [or_imp, forall_and, Frame.isExit] using hunsent
  | exitSent code hpc =>
    have houtcome : s.Outcome code := by
      rcases hpc with ⟨result, hpc, rfl⟩ | hpc
      · exact h.exiting result hpc
      · exact h.exit code hpc
    have hunsent : ∀ frame ∈ s.frames, frame.isExit = false := by
      refine h.unsent ?_
      rcases hpc with ⟨result, hpc, rfl⟩ | hpc <;> rw [hpc] <;> rfl
    refine ⟨by simp [SessionPc.isEarly], by simp, by simp, by simp, by simp,
      by simp [SessionPc.isReturned], fun _ ↦ ⟨s.frames, code, hexit.first _ _ hunsent, hunsent,
        houtcome⟩⟩
  | libraryExit hpc =>
    obtain ⟨before, code, hframes, hbefore, houtcome⟩ := h.sent (by rw [hpc]; rfl)
    have hsame : sessExit s.frames 0 = before ++ [exitFrame code] := by
      rw [hframes, hexit.again]
    exact ⟨by simp [SessionPc.isEarly], by simp, by simp, by simp, by simp,
      by simp [SessionPc.isReturned], fun _ ↦ ⟨before, code, hsame, hbefore, houtcome⟩⟩

/-- The status is decided only when no goroutine copies. -/
theorem Outcome.not_copying {code : ℤ} (h : s.Outcome code) (hcounted : s.Counted)
    (stream : Stream) : (s.output stream).copier = .idle ∨ (s.output stream).copier = .ended := by
  rcases h with ⟨hnot, _⟩ | ⟨_, hcloses, _⟩
  · exact .inl (hcounted.idle hnot stream).1
  · have hzero : s.streams = 0 := by
      by_contra hpositive
      exact hcloses (by rw [hcounted.closes, if_neg hpositive])
    rw [hcounted.streams, remaining] at hzero
    right
    cases stream <;> by_contra hrunning <;> simp [hrunning] at hzero

/-- A step of another goroutine, which sends no status and never after one. -/
theorem Controlled.congr (h : s.Controlled) (hcounted : s.Counted) (hpc : t.pc = s.pc)
    (hstarted : t.started = s.started) (hcloses : s.closes ≠ 0 → t.closes ≠ 0)
    (hprocess : s.process ≠ none → t.process = s.process)
    (hframes : t.frames = s.frames ∨ ∃ stream chunk, t.frames = s.frames ++ [.data stream chunk] ∧
      (s.output stream).copier ≠ .idle ∧ (s.output stream).copier ≠ .ended) : t.Controlled := by
  have houtcome : ∀ code, s.Outcome code → t.Outcome code := by
    rintro code (⟨hnot, hcode⟩ | ⟨hyes, hdone, result, hresult, hcode⟩)
    · exact .inl ⟨hstarted.trans hnot, hcode⟩
    · refine .inr ⟨hstarted.trans hyes, hcloses hdone, result, ?_, hcode⟩
      rw [hprocess (by simp [hresult]), hresult]
  refine ⟨?_, ?_, ?_, ?_, ?_, ?_, ?_⟩ <;> rw [hpc]
  · exact fun hearly ↦ hstarted.trans (h.early hearly)
  · exact fun hawait ↦ hstarted.trans (h.started hawait)
  · exact fun hwait ↦ ⟨hstarted.trans (h.waiting hwait).1, hcloses (h.waiting hwait).2⟩
  · exact fun result hexit ↦ houtcome _ (h.exiting result hexit)
  · exact fun code hexit ↦ houtcome _ (h.exit code hexit)
  · intro hnot
    rcases hframes with hsame | ⟨stream, chunk, hmore, _⟩
    · rw [hsame]
      exact h.unsent hnot
    · rw [hmore]
      simpa [or_imp, forall_and, Frame.isExit] using h.unsent hnot
  · intro hreturned
    obtain ⟨before, code, hall, hbefore, hcode⟩ := h.sent hreturned
    rcases hframes with hsame | ⟨stream, chunk, _, hidle, hended⟩
    · exact ⟨before, code, hsame.trans hall, hbefore, houtcome code hcode⟩
    · rcases hcode.not_copying hcounted stream with hstop | hstop
      · exact absurd hstop hidle
      · exact absurd hstop hended

theorem CopyMove.controlled (hmove : CopyMove s stream t) (hcounted : s.Counted)
    (h : s.Controlled) : t.Controlled := by
  cases hmove with
  | sent chunk hsending =>
    exact h.congr hcounted rfl rfl id (fun _ ↦ rfl)
      (.inr ⟨stream, chunk, rfl, by simp [hsending], by simp [hsending]⟩)
  | sendFailed chunk n hsending =>
    exact h.congr hcounted rfl rfl id (fun _ ↦ rfl)
      (.inr ⟨stream, chunk.take n, rfl, by simp [hsending], by simp [hsending]⟩)
  | counted _ =>
    refine h.congr hcounted rfl rfl (fun hcloses ↦ ?_) (fun _ ↦ rfl) (.inl rfl)
    simp only
    split_ifs
    · simp
    · exact hcloses
  | _ => exact h.congr hcounted rfl rfl id (fun _ ↦ rfl) (.inl rfl)

theorem ProcessMove.controlled (hmove : ProcessMove s t) (hcounted : s.Counted)
    (h : s.Controlled) : t.Controlled := by
  cases hmove with
  | ended result _ hprocess =>
    exact h.congr hcounted rfl rfl id (fun hended ↦ absurd hprocess hended) (.inl rfl)
  | _ => exact h.congr hcounted rfl rfl id (fun _ ↦ rfl) (.inl rfl)

theorem sound_of_reachable (hexit : ExitsOnce sessExit) (h : (machine sessExit).Reachable s) :
    s.Counted ∧ s.Controlled ∧ ∀ i, Copied (s.output i) (s.received i) := by
  refine Machine.invariant (I := fun s ↦ s.Counted ∧ s.Controlled ∧
    ∀ i, Copied (s.output i) (s.received i)) ⟨?_, ?_, fun i ↦ ?_⟩ ?_ h
  · constructor <;> simp [machine, received, remaining]
  · constructor <;> simp [machine, SessionPc.isReturned]
  · constructor <;> simp [machine, received, CopyPc.buffer]
  · rintro s a t _ ⟨hcounted, hcontrolled, hcopied⟩ hstep
    rcases moves_of_step hstep with hmove | ⟨stream, hmove⟩ | hmove
    · exact ⟨hmove.counter hexit hcontrolled hcounted, hmove.controlled hexit hcontrolled,
        hmove.copied hexit (fun hnot i ↦ (hcounted.idle hnot i).1) hcontrolled hcopied⟩
    · exact ⟨hmove.counter hcounted, hmove.controlled hcounted hcontrolled,
        hmove.copied hcopied⟩
    · exact ⟨hmove.counter hcounted, hmove.controlled hcounted hcontrolled,
        hmove.copied hcopied⟩

/-- The only status in a list that ends with it. -/
theorem last_of_unique {before before' after : List Frame} {frame last : Frame}
    (h : before ++ frame :: after = before' ++ [last]) (hexit : frame.isExit = true)
    (hbefore : ∀ frame ∈ before', frame.isExit = false) :
    before = before' ∧ after = [] ∧ frame = last := by
  rcases List.eq_nil_or_concat after with rfl | ⟨rest, final, rfl⟩
  · obtain ⟨hfirst, hlast⟩ := List.append_inj' h rfl
    exact ⟨hfirst, rfl, List.singleton_inj.mp hlast⟩
  · rw [List.concat_eq_append, ← List.cons_append, ← List.append_assoc] at h
    obtain ⟨hfirst, _⟩ := List.append_inj' h rfl
    have hnot := hbefore frame (by simp [← hfirst])
    rw [hexit] at hnot
    contradiction

/-- In every reachable state `done` has been closed at most once, and of each output the client
has received the bytes that were written first, in order. A status is the last frame and the only
one of its kind. If the command was never started it is 1 and no output was sent; otherwise the
command has ended and the status is its own, and of each output the client has received all that
was or ever will be written, unless copying it failed. -/
theorem session_exit_after_output (hexit : ExitsOnce sessExit) {s : SessionRun}
    (h : (machine sessExit).Reachable s) :
    s.closes ≤ 1 ∧ (∀ stream, s.received stream <+: (s.output stream).written) ∧
    ∀ before status after, s.frames = before ++ .exitStatus status :: after →
      after = [] ∧ (∀ frame ∈ before, frame.isExit = false) ∧
      ∃ code, status = (code % 4294967296).toNat ∧
        ((s.started = false ∧ code = 1 ∧ ∀ stream, s.received stream = []) ∨
          (s.started = true ∧ (∃ result, s.process = some result ∧ code = statusOf result) ∧
            ∀ stream, (s.output stream).failed = true ∨
              (s.output stream).held = false ∧
                s.received stream = (s.output stream).written)) := by
  obtain ⟨hcounted, hcontrolled, hcopied⟩ := sound_of_reachable hexit h
  refine ⟨?_, fun stream ↦ (hcopied stream).order, fun before status after hframes ↦ ?_⟩
  · rw [hcounted.closes]
    split_ifs <;> omega
  · have hreturned : s.pc.isReturned = true := by
      by_contra hnot
      have hunsent := hcontrolled.unsent (by simpa using hnot) (.exitStatus status)
        (by simp [hframes])
      contradiction
    obtain ⟨before', code, hall, hbefore, houtcome⟩ := hcontrolled.sent hreturned
    obtain ⟨rfl, rfl, hframe⟩ := last_of_unique (hframes.symm.trans hall) rfl hbefore
    refine ⟨rfl, hbefore, code, Frame.exitStatus.inj hframe, ?_⟩
    have hstop := houtcome.not_copying hcounted
    rcases houtcome with ⟨hnot, hcode⟩ | ⟨hyes, hcloses, hprocess⟩
    · exact .inl ⟨hnot, hcode, fun stream ↦ (hcounted.idle hnot stream).2⟩
    · refine .inr ⟨hyes, hprocess, fun stream ↦ ?_⟩
      have hended := (hstop stream).resolve_left (hcounted.live hyes stream)
      rcases (hcopied stream).complete (.inr hended) with hfailed | ⟨hpipe, hheld⟩
      · exact .inl hfailed
      · by_cases hfailed : (s.output stream).failed = true
        · exact .inl hfailed
        · have hpending := (hcopied stream).pending (by simpa using hfailed)
          exact .inr ⟨hheld, by simpa [hended, hpipe, CopyPc.buffer] using hpending⟩

/-- The command prints, its output is read, and it ends with status 3 and an error on the channel
of its error stream. -/
def chatty : List SessionAct :=
  [.piped none, .piped none, .piped none, .started none, .wrote .stdout [104, 105],
    .wrote .stderr [33], .read .stdout 1, .sent .stdout, .read .stderr 1,
    .processEnded (some (.exit 3)), .sendFailed .stderr 0, .counted .stderr, .read .stdout 1,
    .released .stdout, .sent .stdout, .eof .stdout, .counted .stdout, .doneReceived, .waited,
    .exitSent, .libraryExit]

/-- A status is sent unless there was one. -/
def sampleExit (frames : List Frame) (code : ℤ) : List Frame :=
  if frames.any Frame.isExit then frames else frames ++ [exitFrame code]

theorem sampleExit_exitsOnce : ExitsOnce sampleExit where
  first frames code h := by
    have hnone : frames.any Frame.isExit = false := by simpa using h
    simp [sampleExit, hnone]
  again frames code code' := by
    have hsome : (frames ++ [exitFrame code]).any Frame.isExit = true := by
      simp [exitFrame, Frame.isExit]
    simp [sampleExit, hsome]

theorem session_exit_after_output_chatty :
    ∃ s, (machine sampleExit).Reachable s ∧ s.pc = .closed ∧ s.closes ≤ 1 ∧
      s.frames = [.data .stdout [104], .data .stderr [], .data .stdout [105], .exitStatus 3] ∧
      s.received .stderr <+: (s.output .stderr).written ∧
      s.received .stdout = (s.output .stdout).written := by
  obtain ⟨s, hexec, hpc, hframes, hfailed⟩ := Machine.exists_of_exec (M := machine sampleExit)
    (s := {}) chatty (fun s ↦ s.pc = .closed ∧ s.frames = [.data .stdout [104], .data .stderr [],
      .data .stdout [105]] ++ [.exitStatus 3] ∧ (s.output .stdout).failed = false) rfl
  have hs : (machine sampleExit).Reachable s := Machine.reaches_of_exec chatty hexec
  obtain ⟨hcloses, horder, hstatus⟩ := session_exit_after_output sampleExit_exitsOnce hs
  obtain ⟨-, -, code, -, hnever | hended⟩ := hstatus _ 3 [] hframes
  · simpa [received, hframes, Frame.chunk] using hnever.2.2 .stdout
  · refine ⟨s, hs, hpc, hcloses, hframes, horder .stderr, ?_⟩
    exact ((hended.2.2 .stdout).resolve_left (by simp [hfailed])).2

end SessionRun

/-- How far a goroutine is from its end if nothing more is written. -/
def CopyPc.rank : CopyPc → ℕ
  | sending _ => 3
  | reading => 2
  | counting => 1
  | idle | ended => 0

def Output.rank (o : Output) : ℕ := o.copier.rank + 2 * o.pipe.length + if o.held then 1 else 0

def SessionPc.rank : SessionPc → ℕ
  | stdinPipe => 9
  | stdoutPipe => 8
  | stderrPipe => 7
  | start => 6
  | awaitDone => 5
  | wait => 4
  | exitSession _ => 3
  | exit _ => 2
  | returned => 1
  | closed => 0

namespace SessionRun

variable {sessExit : List Frame → ℤ → List Frame} {s t : SessionRun} {stream : Stream}

/-- A command that ends and lets go of its outputs brings the session closer to its end. -/
def rank (s : SessionRun) : ℕ :=
  5 * s.pc.rank + (s.output .stdout).rank + (s.output .stderr).rank +
    if s.process = none then 1 else 0

/-- A step that changes one output for the better. -/
theorem exists_of_output (stream : Stream) (a : SessionAct) (o : Output)
    (h : o.rank < (s.output stream).rank)
    (hstep : ∃ t, s.step sessExit a = some t ∧ t.output = Function.update s.output stream o ∧
      t.pc = s.pc ∧ t.process = s.process) :
    ∃ a t, s.step sessExit a = some t ∧ t.rank < s.rank := by
  obtain ⟨t, hstep, houtput, hpc, hprocess⟩ := hstep
  refine ⟨a, t, hstep, ?_⟩
  simp only [rank, houtput, hpc, hprocess]
  cases stream <;> simp <;> omega

/-- A goroutine that copies is never stuck, once the output is let go. -/
theorem exists_copy_step (hpc : s.pc = .awaitDone) (hstarted : s.started = true)
    (hidle : (s.output stream).copier ≠ .idle) (hended : (s.output stream).copier ≠ .ended) :
    ∃ a t, s.step sessExit a = some t ∧ t.rank < s.rank := by
  cases hcopier : (s.output stream).copier with
  | idle => exact absurd hcopier hidle
  | ended => exact absurd hcopier hended
  | counting =>
    refine exists_of_output stream (.counted stream) { s.output stream with copier := .ended } ?_ ?_
    · simp [Output.rank, hcopier, CopyPc.rank]
    · simp [step, runWithPipes, hpc, copyOutput, hcopier, setOutput]
  | sending chunk =>
    refine exists_of_output stream (.sent stream) { s.output stream with copier := .reading } ?_ ?_
    · simp [Output.rank, hcopier, CopyPc.rank]
    · simp [step, runWithPipes, hpc, copyOutput, hcopier, setOutput]
  | reading =>
    by_cases hpipe : (s.output stream).pipe = []
    · by_cases hheld : (s.output stream).held = true
      · refine exists_of_output stream (.released stream)
          { s.output stream with held := false } ?_ ?_
        · simp [Output.rank, hheld]
        · simp [step, runWithPipes, hpc, copyOutput, processes, hstarted, hheld, setOutput]
      · refine exists_of_output stream (.eof stream)
          { s.output stream with copier := .counting } ?_ ?_
        · simp [Output.rank, hcopier, CopyPc.rank]
        · simp [step, runWithPipes, hpc, copyOutput, hcopier, hpipe, hheld, setOutput]
    · have hlength : 0 < (s.output stream).pipe.length := List.length_pos_iff.mpr hpipe
      refine exists_of_output stream (.read stream (s.output stream).pipe.length)
        { s.output stream with pipe := [], copier := .sending (s.output stream).pipe } ?_ ?_
      · simp only [Output.rank, hcopier, CopyPc.rank, List.length_nil]
        omega
      · simp [step, runWithPipes, hpc, copyOutput, hcopier, hlength, setOutput]

/-- The handler waits for nothing but the command, its outputs and the client. -/
theorem exists_step (hcounted : s.Counted) (hcontrolled : s.Controlled) (hnot : s.pc ≠ .closed) :
    ∃ a t, s.step sessExit a = some t ∧ t.rank < s.rank := by
  have hlower : ∀ a, (∃ t, s.runWithPipes sessExit a = some t ∧ t.pc.rank < s.pc.rank ∧
      t.output = s.output ∧ t.process = s.process) →
      ∃ a t, s.step sessExit a = some t ∧ t.rank < s.rank := by
    rintro a ⟨t, hstep, hpc, houtput, hprocess⟩
    refine ⟨a, t, by simp [step, hstep], ?_⟩
    simp only [rank, houtput, hprocess]
    omega
  cases hpc : s.pc with
  | stdinPipe => exact hlower (.piped none) (by simp [runWithPipes, hpc, SessionPc.rank])
  | stdoutPipe => exact hlower (.piped none) (by simp [runWithPipes, hpc, SessionPc.rank])
  | stderrPipe => exact hlower (.piped none) (by simp [runWithPipes, hpc, SessionPc.rank])
  | start =>
    have hidle := hcounted.idle (hcontrolled.early (by rw [hpc]; rfl))
    refine ⟨.started none, { s with
      pc := .awaitDone
      started := true
      output := fun stream ↦ { s.output stream with copier := .reading } }, ?_, ?_⟩
    · simp [step, runWithPipes, hpc]
    · simp only [rank, hpc, SessionPc.rank, Output.rank, (hidle _).1, CopyPc.rank]
      omega
  | awaitDone =>
    have hstarted := hcontrolled.started hpc
    by_cases hcloses : s.closes = 0
    · have hremaining : s.remaining ≠ 0 := by
        intro hzero
        simp [hcounted.closes, hcounted.streams, hzero] at hcloses
      obtain ⟨stream, hrunning⟩ : ∃ stream, (s.output stream).copier ≠ .ended := by
        by_contra hall
        push Not at hall
        exact hremaining (by simp [remaining, hall])
      exact exists_copy_step hpc hstarted (hcounted.live hstarted stream) hrunning
    · exact hlower .doneReceived (by simp [runWithPipes, hpc, hcloses, SessionPc.rank])
  | wait =>
    cases hprocess : s.process with
    | none =>
      refine ⟨.processEnded none, { s with process := some none }, ?_, ?_⟩
      · simp [step, runWithPipes, copyOutput, processes, hpc, hprocess,
          (hcontrolled.waiting hpc).1]
      · simp [rank, hprocess]
    | some result =>
      exact hlower .waited (by simp [runWithPipes, hpc, hprocess, SessionPc.rank])
  | exitSession result =>
    match result with
    | none =>
      exact hlower .exitSent (by simp [runWithPipes, exitStep, hpc, SessionPc.rank, sendExit])
    | some (.exit code) =>
      exact hlower .exitSent (by simp [runWithPipes, exitStep, hpc, SessionPc.rank, sendExit])
    | some (.other e) =>
      exact hlower .messageSent (by simp [runWithPipes, exitStep, hpc, SessionPc.rank])
  | exit code =>
    exact hlower .exitSent (by simp [runWithPipes, hpc, SessionPc.rank, sendExit])
  | returned =>
    exact hlower .libraryExit (by simp [runWithPipes, hpc, SessionPc.rank, sendExit])
  | closed => exact absurd hpc hnot

/-- From every reachable state the session can come to its end, with a status as its last frame:
the command has to end and its outputs to be let go. -/
theorem session_can_end (hexit : ExitsOnce sessExit) {s : SessionRun}
    (h : (machine sessExit).Reachable s) :
    ∃ t before status, (machine sessExit).Reaches s t ∧ t.pc = .closed ∧
      t.frames = before ++ [.exitStatus status] := by
  obtain ⟨t, hreaches, hpc⟩ := Machine.exists_reaches_of_rank (P := fun s ↦ s.pc = .closed) rank
    (fun s hs hnot ↦ by
      obtain ⟨hcounted, hcontrolled, -⟩ := sound_of_reachable hexit hs
      exact exists_step hcounted hcontrolled hnot) h
  obtain ⟨-, hcontrolled, -⟩ := sound_of_reachable hexit (h.trans hreaches)
  obtain ⟨before, code, hframes, -⟩ := hcontrolled.sent (by rw [hpc]; rfl)
  exact ⟨t, before, _, hreaches, hpc, hframes⟩

theorem session_can_end_chatty :
    ∃ s t before status, (machine sampleExit).exec {} (chatty.take 9) = some s ∧
      s.pc = .awaitDone ∧ (machine sampleExit).Reaches s t ∧ t.pc = .closed ∧
      t.frames = before ++ [.exitStatus status] := by
  obtain ⟨s, hexec, hpc⟩ := Machine.exists_of_exec (M := machine sampleExit) (s := {})
    (chatty.take 9) (fun s ↦ s.pc = .awaitDone) rfl
  have hs : (machine sampleExit).Reachable s := Machine.reaches_of_exec (chatty.take 9) hexec
  obtain ⟨t, before, status, hreaches, hclosed, hframes⟩ :=
    session_can_end sampleExit_exitsOnce hs
  exact ⟨s, t, before, status, hexec, hpc, hreaches, hclosed, hframes⟩

end SessionRun

end RelayCat.SSHServer
