import RelayCat.AccessCode.Concurrent

/-!
# Retrying after a call that failed

A call of `LoadOrCreate` that finds no file may fail, or its process may be killed, at any of
its steps. The file is created under its final name and filled afterwards, so a call that stops
in between leaves the beginning of a state. A beginning decodes only when nothing but the final
newline is missing, and every later call fails on a shorter one.
-/

namespace RelayCat.AccessCode

open Go Utf8 Json Wire Automaton Posix

section Creating

variable (windows : Bool) (parse : Bytes → Bool) (path relayURL target : Bytes)

/-- One call that runs alone and finds no file. -/
def creating : Machine (Pc × Option File) Act where
  init := (.start, none)
  step s act := procStep windows parse path relayURL target s.2 s.1 act

/-- A call for which the system does everything that it is asked to do. -/
structure Outcome.Smooth (o : Outcome) : Prop where
  read : o.read = none
  stat : o.stat = none
  routeID : ∃ b, o.routeID = .ok b
  psk : ∃ b, o.psk = .ok b
  mkdirAll : o.mkdirAll = none
  openFile : o.openFile = none
  write : o.write = none
  sync : o.sync = none
  close : o.close = none

/-- There is no file or it holds a complete state, and a call that nothing stops succeeds. -/
def Usable (file : Option File) : Prop :=
  (file = none ∨ ∃ f c, file = some f ∧ interpret parse f.content relayURL target = .ok c) ∧
  ∀ (o : Outcome) (fs : FileSystem), fs path = file → o.Smooth →
    ∃ c, (loadOrCreate windows parse o fs path relayURL target).1 = .ok c

/-- A process that is not in the middle of its write: it has not created the file yet, or has
written all but the final newline. -/
def Pc.Whole : Pc → Prop
  | .writing c now written => (stateText target c now).length ≤ written + 1
  | _ => True

/-- The file at each point of a call that runs alone. -/
def Filled (file : Option File) : Pc → Prop
  | .start | .fresh => file = none
  | .mkdirAll c _ | .openFile c _ => file = none ∧ c.relayURL = relayURL ∧ c.validate = .ok ()
  | .writing c now written =>
    (∃ mask, file = some ⟨(stateText target c now).take written, 0o600 &&& mask⟩) ∧
      c.relayURL = relayURL ∧ c.validate = .ok ()
  | .syncing c now | .closing c now =>
    (∃ mask, file = some ⟨stateText target c now, 0o600 &&& mask⟩) ∧
      c.relayURL = relayURL ∧ c.validate = .ok ()
  | .reading _ | .stat _ => False
  | .returned _ | .killed => True

end Creating

section Run

variable {windows : Bool} {parse : Bytes → Bool} {path relayURL target : Bytes}
  {file file' : Option File} {pc pc' : Pc} {act : Act}

theorem filled_of_failed (h : pc.Failed) : Filled relayURL target file pc := by
  cases pc with
  | returned result => trivial
  | killed => trivial
  | _ => cases h

/-- A call that stops leaves the file as it is. -/
theorem file_of_failed (hstep : procStep windows parse path relayURL target file pc act =
    some (pc', file')) (h : pc'.Failed) : file' = file := by
  cases procMove_of_procStep hstep with
  | create hfile => cases h
  | write hfile hpc => rcases hpc with rfl | rfl <;> cases h
  | _ => rfl

/-- Nothing follows the end of a call. -/
theorem procStep_returned (result : Except Err Code) (act : Act) :
    procStep windows parse path relayURL target file (.returned result) act = none := by
  cases act <;> rfl

theorem procStep_killed (act : Act) :
    procStep windows parse path relayURL target file .killed act = none := by
  cases act <;> rfl

theorem Filled.start (hstep : procStep windows parse path relayURL target none .start act =
    some (pc', file')) : Filled relayURL target file' pc' := by
  cases procMove_of_procStep hstep with
  | fail h => exact filled_of_failed h
  | missing _ => rfl
  | found h => cases h

theorem Filled.fresh (hstep : procStep windows parse path relayURL target none .fresh act =
    some (pc', file')) : Filled relayURL target file' pc' := by
  cases act with
  | generate o =>
    unfold procStep at hstep
    cases hnew : new relayURL o with
    | error err =>
      simp only [hnew, Option.some.injEq, Prod.mk.injEq] at hstep
      obtain ⟨rfl, -⟩ := hstep
      trivial
    | ok c =>
      simp only [hnew, Option.some.injEq, Prod.mk.injEq] at hstep
      obtain ⟨rfl, rfl⟩ := hstep
      exact ⟨rfl, new_ok hnew⟩
  | kill =>
    cases hstep
    trivial
  | _ => cases hstep

/-- A piece of the text is written where the last one ended. -/
theorem Filled.writing {c : Code} {now : Time} {written mask : ℕ}
    (hc : c.relayURL = relayURL ∧ c.validate = .ok ())
    (hstep : procStep windows parse path relayURL target
      (some ⟨(stateText target c now).take written, 0o600 &&& mask⟩) (.writing c now written) act =
        some (pc', file')) : Filled relayURL target file' pc' := by
  cases act with
  | write n =>
    simp only [procStep, File.writeAt_take, Option.some.injEq, Prod.mk.injEq] at hstep
    obtain ⟨rfl, rfl⟩ := hstep
    split_ifs with hlength
    · rw [hlength, List.take_length]
      exact ⟨⟨mask, rfl⟩, hc⟩
    · exact ⟨⟨mask, rfl⟩, hc⟩
  | writeFail err =>
    cases hstep
    trivial
  | kill =>
    cases hstep
    trivial
  | _ => cases hstep

theorem Filled.step (h : Filled relayURL target file pc)
    (hstep : procStep windows parse path relayURL target file pc act = some (pc', file')) :
    Filled relayURL target file' pc' := by
  cases pc with
  | start =>
    subst h
    exact Filled.start hstep
  | fresh =>
    subst h
    exact Filled.fresh hstep
  | mkdirAll c now =>
    cases procMove_of_procStep hstep with
    | fail h => exact filled_of_failed h
    | mkdirAll => exact h
  | openFile c now =>
    cases procMove_of_procStep hstep with
    | fail h => exact filled_of_failed h
    | create hfile => exact ⟨⟨_, rfl⟩, h.2⟩
  | writing c now written =>
    obtain ⟨⟨mask, rfl⟩, hc⟩ := h
    exact Filled.writing hc hstep
  | syncing c now =>
    cases procMove_of_procStep hstep with
    | fail h => exact filled_of_failed h
    | sync => exact h
  | closing c now =>
    cases procMove_of_procStep hstep with
    | fail h => exact filled_of_failed h
    | close => trivial
  | reading got => cases h
  | stat got => cases h
  | returned result => simp [procStep_returned] at hstep
  | killed => simp [procStep_killed] at hstep

theorem filled_of_reachable {s : Pc × Option File}
    (hs : (creating windows parse path relayURL target).Reachable s) :
    Filled relayURL target s.2 s.1 := by
  refine Machine.invariant (I := fun s : Pc × Option File ↦ Filled relayURL target s.2 s.1)
    ?_ ?_ hs
  · exact Eq.refl none
  · intro s act t _ h hstep
    exact h.step hstep

end Run

section Retry

variable {windows : Bool} {parse : Bytes → Bool} {path relayURL target : Bytes} {c : Code}
  {now : Time}

/-- The final newline is not needed. -/
theorem interpret_take (relayURL : Bytes) {n : ℕ}
    (hn : (stateText target c now).length ≤ n + 1) (target' : Bytes) :
    interpret parse ((stateText target c now).take n) relayURL target' =
      interpret parse (stateText target c now) relayURL target' := by
  rcases Nat.lt_or_ge n (stateText target c now).length with hlt | hge
  · have hlength : (stateText target c now).length = n + 1 := by omega
    refine interpret_eq_of_unmarshal ?_ relayURL target'
    have hempty : ([] : Bytes).all isSpace = true := rfl
    have hnewline : [(0x0a : UInt8)].all isSpace = true := rfl
    unfold stateText at hlength ⊢
    rw [List.length_append, List.length_singleton, Nat.add_right_cancel_iff] at hlength
    rw [unmarshal_marshalIndent rfl now hnewline, ← hlength, List.take_left,
      ← List.append_nil (StateFile.marshalIndent _ now), unmarshal_marshalIndent rfl now hempty]
  · rw [List.take_of_length_le hge]

/-- In a beginning that decodes nothing but the final newline is missing. -/
theorem length_le_of_interpret {n : ℕ} {d : Code} {target' : Bytes}
    (h : interpret parse ((stateText target c now).take n) relayURL target' = .ok d) :
    (stateText target c now).length ≤ n + 1 := by
  obtain ⟨st, hst⟩ := unmarshal_of_interpret h
  have hspace := (unmarshal_beginning (List.take_append_drop n _) hst).1
  obtain ⟨bs, hbs⟩ : ∃ bs, stateText target c now = bs ++ [rightBrace, 0x0a] := by
    obtain ⟨bs, hbs⟩ := exists_objectText (StateFile.members ⟨protocolVersion, c.relayURL, target,
      Base64.encode c.routeID, Base64.encode c.psk⟩ now)
    exact ⟨bs, by rw [stateText, StateFile.marshalIndent, hbs, List.append_assoc]; rfl⟩
  rw [hbs] at hspace ⊢
  by_contra hshort
  have hn : n ≤ bs.length := by
    simp only [List.length_append, List.length_cons, List.length_nil] at hshort
    omega
  rw [List.drop_append_of_le_length hn, List.all_append] at hspace
  have hbrace : [rightBrace, (0x0a : UInt8)].all isSpace = false := rfl
  rw [hbrace, Bool.and_false] at hspace
  cases hspace

theorem usable_none (hpath : path ≠ []) : Usable windows parse path relayURL target none := by
  refine ⟨Or.inl rfl, ?_⟩
  intro o fs hfs ho
  obtain ⟨route, hroute⟩ := ho.routeID
  obtain ⟨psk, hpsk⟩ := ho.psk
  refine ⟨⟨relayURL, route, psk⟩, ?_⟩
  simp only [loadOrCreate, hpath, if_false, ho.read, hfs, new, hroute, hpsk, ho.mkdirAll,
    ho.openFile, ho.write, ho.sync, ho.close]

/-- A private file that decodes. -/
theorem usable_of_interpret (hpath : path ≠ []) {content : Bytes} (mask : ℕ)
    (h : interpret parse content relayURL target = .ok c) :
    Usable windows parse path relayURL target (some ⟨content, 0o600 &&& mask⟩) := by
  refine ⟨Or.inr ⟨_, c, rfl, h⟩, ?_⟩
  intro o fs hfs ho
  refine ⟨c, ?_⟩
  simp only [loadOrCreate, hpath, if_false, ho.read, hfs, ho.stat, Option.elim_none,
    checkPrivateFile_new, h]

/-- The beginning of a state is usable exactly when at most the final newline is missing. -/
theorem usable_take (hpath : path ≠ []) (hrelay : Valid relayURL) (htarget : Valid target)
    (hc : c.relayURL = relayURL ∧ c.validate = .ok ()) (n mask : ℕ) :
    Usable windows parse path relayURL target
        (some ⟨(stateText target c now).take n, 0o600 &&& mask⟩) ↔
      (stateText target c now).length ≤ n + 1 := by
  constructor
  · rintro ⟨hnone | ⟨f, d, hf, hd⟩, -⟩
    · cases hnone
    · cases hf
      exact length_le_of_interpret hd
  · intro hn
    have hsame : sanitize c.relayURL = relayURL ∧ sanitize target = target := by
      rw [hc.1]
      exact ⟨(sanitize_eq_iff _).mpr hrelay, (sanitize_eq_iff _).mpr htarget⟩
    have hinterpret : interpret parse ((stateText target c now).take n) relayURL target =
        .ok ⟨relayURL, c.routeID, c.psk⟩ := by
      rw [interpret_take relayURL hn, interpret_stateText hc.2, if_pos hsame]
    exact usable_of_interpret hpath mask hinterpret

/-- Wherever a creating call fails or is killed: the state file is usable afterwards exactly
when the call was not in the middle of its write. -/
theorem retry_iff (windows : Bool) (parse : Bytes → Bool) (hpath : path ≠ [])
    (hrelay : Valid relayURL) (htarget : Valid target) {pc pc' : Pc} {file file' : Option File}
    {act : Act} (hs : (creating windows parse path relayURL target).Reachable (pc, file))
    (hstep : (creating windows parse path relayURL target).step (pc, file) act =
      some (pc', file')) (hfailed : pc'.Failed) :
    Usable windows parse path relayURL target file' ↔ pc.Whole target := by
  have hfilled : Filled relayURL target file pc := filled_of_reachable hs
  have hnone (h : file = none) : Usable windows parse path relayURL target file := by
    rw [h]
    exact usable_none hpath
  have hwhole {c : Code} {now : Time}
      (h : ∃ mask, file = some ⟨stateText target c now, 0o600 &&& mask⟩)
      (hc : c.relayURL = relayURL ∧ c.validate = .ok ()) :
      Usable windows parse path relayURL target file := by
    obtain ⟨mask, rfl⟩ := h
    rw [← List.take_length (l := stateText target c now)]
    exact (usable_take hpath hrelay htarget hc _ mask).mpr (Nat.le_succ _)
  rw [file_of_failed hstep hfailed]
  cases pc with
  | writing c now written =>
    obtain ⟨⟨mask, rfl⟩, hc⟩ := hfilled
    exact usable_take hpath hrelay htarget hc written mask
  | syncing c now => exact iff_of_true (hwhole hfilled.1 hfilled.2) trivial
  | closing c now => exact iff_of_true (hwhole hfilled.1 hfilled.2) trivial
  | start => exact iff_of_true (hnone hfilled) trivial
  | fresh => exact iff_of_true (hnone hfilled) trivial
  | mkdirAll c now => exact iff_of_true (hnone hfilled.1) trivial
  | openFile c now => exact iff_of_true (hnone hfilled.1) trivial
  | reading got => cases hfilled
  | stat got => cases hfilled
  | returned result => simp [creating, procStep_returned] at hstep
  | killed => simp [creating, procStep_killed] at hstep

/-- A call up to the exclusive create. -/
def creation : List Act := [.open none, .generate smooth, .mkdirAll none, .openFile none 0o755]

theorem creating_reaches_writing (windows : Bool) (parse : Bytes → Bool) (path target : Bytes) :
    (creating windows parse path (literal "https://relay.example") target).Reachable
      (.writing sampleCode epoch 0, some ⟨[], 0o600⟩) :=
  Machine.reaches_of_exec creation rfl

/-- A call that is killed between its write and its sync leaves a complete state. -/
theorem retry_killed :
    Usable false (fun _ ↦ false) (literal "state") (literal "https://relay.example")
      (literal "localhost:22")
      (some ⟨stateText (literal "localhost:22") sampleCode epoch, 0o600⟩) := by
  have hrelay : Valid (literal "https://relay.example") := valid_encode _
  have htarget : Valid (literal "localhost:22") := valid_encode _
  have hsyncing : (creating false (fun _ ↦ false) (literal "state")
      (literal "https://relay.example") (literal "localhost:22")).Reachable
      (.syncing sampleCode epoch,
        some ⟨stateText (literal "localhost:22") sampleCode epoch, 0o600⟩) := by
    refine (creating_reaches_writing false _ _ _).tail
      (a := .write (stateText (literal "localhost:22") sampleCode epoch).length) ?_
    simp only [creating, procStep_writeAll]
  have hkill : (creating false (fun _ ↦ false) (literal "state")
      (literal "https://relay.example") (literal "localhost:22")).step
      (.syncing sampleCode epoch,
        some ⟨stateText (literal "localhost:22") sampleCode epoch, 0o600⟩) .kill =
      some (.killed, some ⟨stateText (literal "localhost:22") sampleCode epoch, 0o600⟩) := rfl
  exact (retry_iff false (fun _ ↦ false) (by decide) hrelay htarget hsyncing hkill trivial).mpr
    trivial

/-- A call whose write fails after its first 20 bytes leaves a file on which every later call
fails. -/
theorem retry_poisoned :
    ∃ (pc : Pc) (file : File) (err : Err),
      (creating false (fun _ ↦ false) (literal "state") (literal "https://relay.example")
        (literal "localhost:22")).Reachable (pc, some file) ∧
      (creating false (fun _ ↦ false) (literal "state") (literal "https://relay.example")
        (literal "localhost:22")).step (pc, some file)
          (.writeFail (.new "no space left on device")) =
            some (.returned (.error err), some file) ∧
      (∀ o fs, fs (literal "state") = some file → o.Smooth →
        (loadOrCreate false (fun _ ↦ false) o fs (literal "state")
          (literal "https://relay.example") (literal "localhost:22")).1 =
            .error (.errorf "decoding state file" (.new "invalid JSON"))) ∧
      ¬ Usable false (fun _ ↦ false) (literal "state") (literal "https://relay.example")
        (literal "localhost:22") (some file) := by
  have hlength : 20 < (stateText (literal "localhost:22") sampleCode epoch).length := by
    decide +kernel
  have hdecode : StateFile.unmarshal (fun _ ↦ false)
      ((stateText (literal "localhost:22") sampleCode epoch).take 20) = none := by decide +kernel
  have hprivate : checkPrivateFile false (literal "state") (.ok 0o600) = .ok () := by
    decide +kernel
  have hpath : literal "state" ≠ [] := by decide
  have hinterpret : interpret (fun _ ↦ false)
      ((stateText (literal "localhost:22") sampleCode epoch).take 20)
      (literal "https://relay.example") (literal "localhost:22") =
        .error (.errorf "decoding state file" (.new "invalid JSON")) := by
    rw [interpret, hdecode]
  refine ⟨.writing sampleCode epoch 20, ⟨(stateText (literal "localhost:22") sampleCode epoch).take
    20, 0o600⟩, _, ?_, rfl, ?_, ?_⟩
  · refine Machine.Reachable.tail (a := .write 19)
      (creating_reaches_writing false _ (literal "state") _) ?_
    simp [creating, procStep, File.writeAt, Nat.min_eq_left hlength.le, hlength.ne]
  · intro o fs hfs ho
    simp only [loadOrCreate, hpath, if_false, ho.read, hfs, ho.stat, Option.elim_none, hprivate,
      hinterpret]
  · rintro ⟨hnone | ⟨f, d, hf, hd⟩, -⟩
    · cases hnone
    · cases hf
      rw [hinterpret] at hd
      cases hd

end Retry

end RelayCat.AccessCode
