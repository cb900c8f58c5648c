import RelayCat.Cli.SSHOptions

/-!
# The connection code file

`relaycat serve` can write its connection code to a file, which `relaycat ssh` reads. The file is
opened, and emptied, before the output format is looked at, and its permission bits are set only
if it did not exist.

Files belong to the user who runs the commands; a privileged user is not bound by their bits. Of
the bits that a new file is created with, the mask of the process leaves some.
-/

namespace RelayCat.Cli

open Go Utf8 AccessCode Posix

/-- What the system does for one call: the errors that do not come from the permission bits. A
failed write has written a number of bytes. -/
structure CodeOutcome where
  openFile : Option Err
  write : Option (ℕ × Err)
  close : Option Err

def permissionDenied : Err := .new "permission denied"

def plain : Bytes := literal "plain"

def json : Bytes := literal "json"

/-- `json.Marshal` of the map with the code. -/
def codeObject (encoded : Bytes) : Bytes :=
  Json.leftBrace :: Json.appendString (literal "connection_code") ++ Json.colon ::
    Json.appendString encoded ++ [Json.rightBrace]

/-- `writeConnectionCode`, with what it has written. -/
def writeConnectionCode (write : Option (ℕ × Err)) (output encoded : Bytes) :
    Except Err Unit × Bytes :=
  let fprintln (text : Bytes) : Except Err Unit × Bytes :=
    match write with
    | some (n, err) =>
      (.error (.errorf "writing connection code" err), (text ++ literal "\n").take n)
    | none => (.ok (), text ++ literal "\n")
  if output = plain then fprintln encoded
  else if output = json then fprintln (codeObject encoded)
  else (.error (.new "output must be plain or json"), [])

section Serve

variable (privileged : Bool) (mask : ℕ)

def writable (file : File) : Bool := privileged || file.mode &&& 0o200 != 0

def readable (file : File) : Bool := privileged || file.mode &&& 0o400 != 0

/-- `os.OpenFile` with `O_WRONLY|O_CREATE|O_TRUNC` and `0o600`: the file that is then there. -/
def openTruncated (o : CodeOutcome) : Option File → Except Err File
  | none =>
    match o.openFile with
    | some err => .error err
    | none => .ok ⟨[], 0o600 &&& mask⟩
  | some file =>
    match o.openFile with
    | some err => .error err
    | none => if writable privileged file then .ok ⟨[], file.mode⟩ else .error permissionDenied

/-- The step of `serve` that writes the code: its result, the file system it leaves and what it
has written to standard output. -/
def serveCode (userHomeDir : Except Err Bytes) (o : CodeOutcome) (fs : FileSystem)
    (connectionCodeFile output encoded : Bytes) : Except Err Unit × FileSystem × Bytes :=
  if connectionCodeFile = [] then
    let written := writeConnectionCode o.write output encoded
    (written.1, fs, written.2)
  else
    let path := expandHome userHomeDir connectionCodeFile
    match openTruncated privileged mask o (fs path) with
    | .error err => (.error (.errorf "opening connection code file" err), fs, [])
    | .ok file =>
      let written := writeConnectionCode o.write output encoded
      let fs := Function.update fs path (some { file with content := file.content ++ written.2 })
      match written.1 with
      | .error err => (.error err, fs, [])
      | .ok () =>
        match o.close with
        | some err => (.error (.errorf "closing connection code file" err), fs, [])
        | none => (.ok (), fs, [])

/-- The system as `relaycat ssh` finds it, on Unix. -/
def hostOf (userHomeDir : Except Err Bytes) (getenv : String → Bytes) (fs : FileSystem) :
    Host where
  windows := false
  userHomeDir := userHomeDir
  getenv := getenv
  stat path :=
    match fs path with
    | none => .error (.new "no such file or directory")
    | some file => .ok file.mode
  readFile path :=
    match fs path with
    | none => .error (.new "no such file or directory")
    | some file => if readable privileged file then .ok file.content else .error permissionDenied

/-- `relaycat ssh --code-file` resolves to a code, with whatever remote command. -/
def ReadsBack (userHomeDir : Except Err Bytes) (fs : FileSystem) (codeFile encoded : Bytes) :
    Prop :=
  ∀ (getenv : String → Bytes) (o : SSHOptions) (args : List Bytes), o.codeFile = codeFile →
    o.connectionCode = [] → validSSHUser o.user = true → (∀ arg ∈ args.head?, ¬HasCode arg) →
    ∃ o', o.resolveInput (hostOf privileged userHomeDir getenv fs) args = .ok o' ∧
      o'.connectionCode = encoded

/-- The error comes from opening the file or from the output format. -/
def EarlyError (err : Err) : Prop :=
  (∃ cause, err = .errorf "opening connection code file" cause) ∨
    err = .new "output must be plain or json"

/-- Whatever the system does, a plain code is written to a private file from which it is read
back, and an early error leaves the content of the file. -/
def KeepsCode (userHomeDir : Except Err Bytes) (fs : FileSystem)
    (connectionCodeFile output encoded : Bytes) : Prop :=
  ∀ o, let path := expandHome userHomeDir connectionCodeFile
    let after := serveCode privileged mask userHomeDir o fs connectionCodeFile output encoded
    (output = plain → after.1 = .ok () →
      (∃ file, after.2.1 path = some file ∧ file.mode &&& 0o077 = 0) ∧
        ReadsBack privileged userHomeDir after.2.1 connectionCodeFile encoded) ∧
    (∀ err, after.1 = .error err → EarlyError err →
      ∀ file, fs path = some file →
        ∃ file', after.2.1 path = some file' ∧ file'.content = file.content)

/-- No file is there and a new one is readable if the output is plain; or a file cannot be opened,
or it is private and readable if the output is plain, and empty if the output is neither plain
nor json. -/
def Fit (file : Option File) (output : Bytes) : Prop :=
  (file = none → output = plain → readable privileged ⟨[], 0o600 &&& mask⟩ = true) ∧
    ∀ f, file = some f → writable privileged f = true →
      (output = plain → f.mode &&& 0o077 = 0 ∧ readable privileged f = true) ∧
        (output ≠ plain → output ≠ json → f.content = [])

end Serve

section Writing

variable {privileged : Bool} {mask : ℕ} {userHomeDir : Except Err Bytes} {o : CodeOutcome}
  {fs : FileSystem} {connectionCodeFile output encoded : Bytes}

theorem openTruncated_eq_ok {old : Option File} {file : File}
    (h : openTruncated privileged mask o old = .ok file) :
    file.content = [] ∧ (old = none ∧ file.mode = 0o600 &&& mask ∨
      ∃ f, old = some f ∧ writable privileged f = true ∧ file.mode = f.mode) := by
  rw [openTruncated.eq_def] at h
  cases old with
  | none =>
    cases hopen : o.openFile with
    | some err => simp [hopen] at h
    | none =>
      simp only [hopen, Except.ok.injEq] at h
      rw [← h]
      exact ⟨rfl, Or.inl ⟨rfl, rfl⟩⟩
  | some f =>
    cases hopen : o.openFile with
    | some err => simp [hopen] at h
    | none =>
      simp only [hopen] at h
      split_ifs at h with hwritable
      rw [← Except.ok.inj h]
      exact ⟨rfl, Or.inr ⟨f, rfl, hwritable, rfl⟩⟩

theorem serveCode_not_opened (hfile : connectionCodeFile ≠ []) {err : Err}
    (h : openTruncated privileged mask o (fs (expandHome userHomeDir connectionCodeFile)) =
      .error err) :
    serveCode privileged mask userHomeDir o fs connectionCodeFile output encoded =
      (.error (.errorf "opening connection code file" err), fs, []) := by
  simp only [serveCode, hfile, if_false, h]

/-- What was written stands in the opened file, and the errors are those of writing and
closing. -/
theorem serveCode_opened (output encoded : Bytes) (hfile : connectionCodeFile ≠ []) {file : File}
    (h : openTruncated privileged mask o (fs (expandHome userHomeDir connectionCodeFile)) =
      .ok file) :
    let after := serveCode privileged mask userHomeDir o fs connectionCodeFile output encoded
    let written := writeConnectionCode o.write output encoded
    after.2.1 (expandHome userHomeDir connectionCodeFile) = some ⟨written.2, file.mode⟩ ∧
      after.1 =
        match written.1, o.close with
        | .error err, _ => .error err
        | .ok (), some err => .error (.errorf "closing connection code file" err)
        | .ok (), none => .ok () := by
  have hempty : file.content = [] := (openTruncated_eq_ok h).1
  simp only [serveCode, hfile, if_false, h, hempty, List.nil_append]
  cases (writeConnectionCode o.write output encoded).1 with
  | error err => exact ⟨Function.update_self .., rfl⟩
  | ok =>
    cases o.close with
    | some err => exact ⟨Function.update_self .., rfl⟩
    | none => exact ⟨Function.update_self .., rfl⟩

/-- A private file with the code on a line is read back. -/
theorem readsBack_of_private {c : AccessCode.Code} (hfile : connectionCodeFile ≠ [])
    (hcode : encode c = .ok encoded) {file : File}
    (h : fs (expandHome userHomeDir connectionCodeFile) = some file)
    (hcontent : file.content = encoded ++ literal "\n") (hprivate : file.mode &&& 0o077 = 0)
    (hreadable : readable privileged file = true) :
    ReadsBack privileged userHomeDir fs connectionCodeFile encoded := by
  intro getenv opts args hcodeFile hnone huser hargs
  have htrim : trimSpace file.content = encoded := by
    rw [hcontent, trimSpace_encoded hcode]
  have hencoded : encoded ≠ [] := by
    obtain ⟨-, b, -, rfl⟩ := encode_eq_ok.mp hcode
    exact List.cons_ne_nil _ _
  have hcheck : checkPrivateFile false (expandHome userHomeDir opts.codeFile)
      ((hostOf privileged userHomeDir getenv fs).stat (expandHome userHomeDir opts.codeFile)) =
        .ok () := by
    simp [checkPrivateFile, hostOf, hcodeFile, h, hprivate]
  have hread : (hostOf privileged userHomeDir getenv fs).readFile
      (expandHome userHomeDir opts.codeFile) = .ok file.content := by
    simp [hostOf, hcodeFile, h, hreadable]
  exact ⟨_, resolveInput_file hargs hnone (hcodeFile ▸ hfile) huser hcheck hread (htrim ▸ hencoded),
    htrim⟩

/-- A file that cannot be read is not read back. -/
theorem readable_of_readsBack (hfile : connectionCodeFile ≠ []) {file : File}
    (h : fs (expandHome userHomeDir connectionCodeFile) = some file)
    (hprivate : file.mode &&& 0o077 = 0)
    (hback : ReadsBack privileged userHomeDir fs connectionCodeFile encoded) :
    readable privileged file = true := by
  by_contra hreadable
  obtain ⟨o', hresolve, -⟩ :=
    hback (fun _ ↦ []) (codeFileOptions connectionCodeFile) [] rfl rfl validSSHUser_default
      (by simp)
  have hcheck : checkPrivateFile false (expandHome userHomeDir connectionCodeFile)
      ((hostOf privileged userHomeDir (fun _ ↦ []) fs).stat
        (expandHome userHomeDir connectionCodeFile)) = .ok () := by
    simp [checkPrivateFile, hostOf, h, hprivate]
  have hread : (hostOf privileged userHomeDir (fun _ ↦ []) fs).readFile
      (expandHome userHomeDir connectionCodeFile) = .error permissionDenied := by
    simp [hostOf, h, hreadable]
  rw [resolveInput_unreadable (by simp) rfl hfile hcheck hread] at hresolve
  cases hresolve

theorem writeConnectionCode_eq_ok {write : Option (ℕ × Err)}
    (h : (writeConnectionCode write plain encoded).1 = .ok ()) :
    (writeConnectionCode write plain encoded).2 = encoded ++ literal "\n" := by
  cases write with
  | none => rfl
  | some failure => cases h

/-- The only early error of writing is that of the output format, and then nothing is
written. -/
theorem writeConnectionCode_early {write : Option (ℕ × Err)} {err : Err}
    (h : (writeConnectionCode write output encoded).1 = .error err) (hearly : EarlyError err) :
    output ≠ plain ∧ output ≠ json ∧ (writeConnectionCode write output encoded).2 = [] := by
  have hwriting (cause : Err) : ¬EarlyError (.errorf "writing connection code" cause) := by
    simp [EarlyError]
  by_cases hplain : output = plain
  · subst hplain
    cases write with
    | none => cases h
    | some failure =>
      cases h
      exact absurd hearly (hwriting _)
  · by_cases hjson : output = json
    · subst hjson
      cases write with
      | none => cases h
      | some failure =>
        cases h
        exact absurd hearly (hwriting _)
    · exact ⟨hplain, hjson, by simp [writeConnectionCode, hplain, hjson]⟩

/-- A plain code that is kept is in a private file that can be read. -/
theorem private_of_keepsCode (hfile : connectionCodeFile ≠ [])
    (h : KeepsCode privileged mask userHomeDir fs connectionCodeFile plain encoded) {file : File}
    (hopen : openTruncated privileged mask ⟨none, none, none⟩
      (fs (expandHome userHomeDir connectionCodeFile)) = .ok file) :
    file.mode &&& 0o077 = 0 ∧ readable privileged file = true := by
  obtain ⟨hafter, hresult⟩ := serveCode_opened plain encoded hfile hopen
  obtain ⟨⟨file', hfs, hprivate⟩, hback⟩ := (h ⟨none, none, none⟩).1 rfl hresult
  cases hafter.symm.trans hfs
  have hreadable := readable_of_readsBack hfile hafter hprivate hback
  exact ⟨hprivate, hreadable⟩

theorem fit_of_keepsCode (hfile : connectionCodeFile ≠ [])
    (h : KeepsCode privileged mask userHomeDir fs connectionCodeFile output encoded) :
    Fit privileged mask (fs (expandHome userHomeDir connectionCodeFile)) output := by
  refine ⟨fun hnone hplain ↦ ?_, fun f hold hwritable ↦ ?_⟩
  · subst hplain
    have hopen : openTruncated privileged mask ⟨none, none, none⟩
        (fs (expandHome userHomeDir connectionCodeFile)) = .ok ⟨[], 0o600 &&& mask⟩ := by
      simp [openTruncated, hnone]
    exact (private_of_keepsCode hfile h hopen).2
  · have hopen : openTruncated privileged mask ⟨none, none, none⟩
        (fs (expandHome userHomeDir connectionCodeFile)) = .ok ⟨[], f.mode⟩ := by
      simp [openTruncated, hold, hwritable]
    constructor
    · intro hplain
      subst hplain
      have hprivate := private_of_keepsCode hfile h hopen
      exact hprivate
    · intro hplain hjson
      obtain ⟨hafter, hresult⟩ := serveCode_opened output encoded hfile hopen
      have hwritten : writeConnectionCode none output encoded =
          (.error (.new "output must be plain or json"), []) := by
        simp [writeConnectionCode, hplain, hjson]
      rw [hwritten] at hafter hresult
      obtain ⟨file, hfs, hcontent⟩ := (h ⟨none, none, none⟩).2 _ hresult (Or.inr rfl) f hold
      cases hafter.symm.trans hfs
      exact hcontent.symm

/-- With a fit file the code goes to a private one. -/
theorem Fit.opened {old : Option File} {file : File} (h : Fit privileged mask old plain)
    (hopen : openTruncated privileged mask o old = .ok file) :
    file.mode &&& 0o077 = 0 ∧ readable privileged file = true := by
  obtain ⟨-, ⟨hnone, hmode⟩ | ⟨f, hold, hwritable, hmode⟩⟩ := openTruncated_eq_ok hopen
  · rw [readable, hmode]
    exact ⟨private_new mask, h.1 hnone rfl⟩
  · rw [readable, hmode]
    exact (h.2 f hold hwritable).1 rfl

theorem keepsCode_of_fit {c : AccessCode.Code} (hcode : encode c = .ok encoded)
    (hfile : connectionCodeFile ≠ [])
    (h : Fit privileged mask (fs (expandHome userHomeDir connectionCodeFile)) output) :
    KeepsCode privileged mask userHomeDir fs connectionCodeFile output encoded := by
  intro o
  cases hopen : openTruncated privileged mask o
      (fs (expandHome userHomeDir connectionCodeFile)) with
  | error err =>
    simp only [serveCode_not_opened hfile hopen]
    exact ⟨nofun, fun _ _ _ file hold ↦ ⟨file, hold, rfl⟩⟩
  | ok file =>
    obtain ⟨hafter, hresult⟩ := serveCode_opened output encoded hfile hopen
    constructor
    · intro hplain hok
      subst hplain
      obtain ⟨hprivate, hreadable⟩ := h.opened hopen
      have hwritten : (writeConnectionCode o.write plain encoded).1 = .ok () := by
        cases hwrite : (writeConnectionCode o.write plain encoded).1 with
        | ok => rfl
        | error err =>
          rw [hresult, hwrite] at hok
          cases hok
      exact ⟨⟨_, hafter, hprivate⟩, readsBack_of_private hfile hcode hafter
        (writeConnectionCode_eq_ok hwritten) hprivate hreadable⟩
    · intro err herr hearly f hold
      have hwritten : (writeConnectionCode o.write output encoded).1 = .error err := by
        rw [hresult] at herr
        split at herr
        · rename_i err' hwrite
          cases herr
          exact hwrite
        · cases herr
          simp [EarlyError] at hearly
        · cases herr
      obtain ⟨hplain, hjson, hnothing⟩ := writeConnectionCode_early hwritten hearly
      obtain ⟨-, ⟨hnone, -⟩ | ⟨f', hold', hwritable, -⟩⟩ := openTruncated_eq_ok hopen
      · cases hnone.symm.trans hold
      · cases hold'.symm.trans hold
        rw [hnothing] at hafter
        exact ⟨_, hafter, ((h.2 f hold hwritable).2 hplain hjson).symm⟩

end Writing

section Main

variable (privileged : Bool) (mask : ℕ) (userHomeDir : Except Err Bytes) (fs : FileSystem)

/-- The code file is private, is read back and is kept on failure, exactly if the file that was
there before was fit, or a new one is. -/
theorem keepsCode_iff {c : AccessCode.Code} {connectionCodeFile output encoded : Bytes}
    (hcode : encode c = .ok encoded) (hfile : connectionCodeFile ≠ []) :
    KeepsCode privileged mask userHomeDir fs connectionCodeFile output encoded ↔
      Fit privileged mask (fs (expandHome userHomeDir connectionCodeFile)) output :=
  ⟨fit_of_keepsCode hfile, keepsCode_of_fit hcode hfile⟩

end Main

/-- A private file is replaced, and a missing one is created. -/
theorem keepsCode_existing :
    ∃ encoded, encode sampleCode = .ok encoded ∧
      KeepsCode false 0o755 (.ok (literal "/home/relaycat"))
        (fun _ ↦ some ⟨literal "rc1_old\n", 0o600⟩) (literal "~/code") plain encoded ∧
      KeepsCode false 0o755 (.ok (literal "/home/relaycat")) (fun _ ↦ none) (literal "~/code")
        plain encoded := by
  obtain ⟨encoded, hcode⟩ := exists_encode_sampleCode
  refine ⟨encoded, hcode, (keepsCode_iff false _ _ _ hcode (by decide)).mpr ⟨nofun, ?_⟩,
    (keepsCode_iff false _ _ _ hcode (by decide)).mpr ⟨fun _ _ ↦ rfl, nofun⟩⟩
  rintro f ⟨⟩ -
  exact ⟨fun _ ↦ ⟨rfl, rfl⟩, fun hplain ↦ absurd rfl hplain⟩

/-- A file that others may read stays so, and an output format that does not exist empties the
file. -/
theorem not_keepsCode_samples :
    ∃ encoded, encode sampleCode = .ok encoded ∧
      ¬KeepsCode false 0o755 (.ok (literal "/home/relaycat"))
        (fun _ ↦ some ⟨literal "rc1_old\n", 0o644⟩) (literal "~/code") plain encoded ∧
      ¬KeepsCode false 0o755 (.ok (literal "/home/relaycat"))
        (fun _ ↦ some ⟨literal "rc1_old\n", 0o600⟩) (literal "~/code") (literal "yaml")
        encoded := by
  obtain ⟨encoded, hcode⟩ := exists_encode_sampleCode
  refine ⟨encoded, hcode, ?_, ?_⟩
  · intro h
    have hfit := (fit_of_keepsCode (by decide) h).2 _ rfl rfl
    exact absurd (hfit.1 rfl).1 (by decide)
  · intro h
    have hfit := (fit_of_keepsCode (by decide) h).2 _ rfl rfl
    exact absurd (hfit.2 (by decide) (by decide)) (by decide)

end RelayCat.Cli
