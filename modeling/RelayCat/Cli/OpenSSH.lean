import RelayCat.Cli.SSH
import RelayCat.Go.Exec

/-!
# What OpenSSH is run with

`runOpenSSH` passes its own environment on to OpenSSH, without the variables that hold the
connection code and the token. Names are compared with `strings.EqualFold`, so that variants in
case are left out too. OpenSSH then runs commands that its configuration names, and those see
what it sees.
-/

namespace RelayCat.Cli

open Go Utf8 Exec Cobra

/-- The class of a rune under simple case folding, for runes that fold to ASCII. Two letters have
a third member: the Kelvin sign and the long s. -/
def foldRune (r : Char) : Char :=
  if r.toNat = 0x212a then 'k' else if r.toNat = 0x17f then 's' else r.toLower

/-- `strings.EqualFold` of a text and an ASCII text. -/
def equalFold (s t : Bytes) : Bool := (runes s).map foldRune = (runes t).map foldRune

def withoutEnvironment (environment names : List Bytes) : List Bytes :=
  environment.filter fun entry ↦ !names.any (equalFold (Url.cut equalSign entry).1)

/-- The variables that hold the connection code and the token. -/
def secretNames : List Bytes := [literal "RELAYCAT_CODE", literal "RELAYCAT_TOKEN"]

/-- The arguments and the environment that `runOpenSSH` gives to OpenSSH. -/
def runOpenSSH (env : Environment) (environ : List Bytes) (addr : Bytes) (code : AccessCode.Code)
    (o : SSHOptions) : Except Err (List Bytes × List Bytes) :=
  (buildOpenSSHArgs env addr code o).map fun args ↦ (args, withoutEnvironment environ secretNames)

/-- The name is one of a secret variable, up to case. -/
def Secret (name : Bytes) : Prop := ∃ secret ∈ secretNames, equalFold name secret = true

instance : DecidablePred Secret := fun name ↦
  inferInstanceAs (Decidable (∃ secret ∈ secretNames, equalFold name secret = true))

/-- Two entries of environments that differ in secrets only. -/
def SameButSecret (entry entry' : Bytes) : Prop :=
  entry = entry' ∨ Secret (Url.cut equalSign entry).1 ∧ Secret (Url.cut equalSign entry').1

/-- Options that differ in where the connection code and the token come from. -/
def SSHOptions.sameButSecret (o o' : SSHOptions) : Prop :=
  { o with codeFile := [], connectionCode := [], tokenFile := [] } =
    { o' with codeFile := [], connectionCode := [], tokenFile := [] }

section Secrets

variable {environ environ' : List Bytes} {name entry entry' : Bytes}

/-- An entry is passed on unless its key is secret. -/
theorem passes_iff (entry : Bytes) :
    (!secretNames.any (equalFold (Url.cut equalSign entry).1)) = true ↔
      ¬ Secret (Url.cut equalSign entry).1 := by
  simp [Secret]

theorem key_of_valueOf (hvalue : valueOf name entry ≠ none) :
    (Url.cut equalSign entry).1 = name := by
  by_contra hkey
  exact hvalue (if_neg hkey)

theorem lastValue_withoutEnvironment (environ : List Bytes) (name : Bytes) :
    lastValue (withoutEnvironment environ secretNames) name =
      if Secret name then none else lastValue environ name := by
  unfold withoutEnvironment
  split_ifs with hsecret
  · refine lastValue_eq_none fun entry hentry ↦ ?_
    have hpasses := (passes_iff entry).mp (List.mem_filter.mp hentry).2
    by_contra hvalue
    rw [key_of_valueOf hvalue] at hpasses
    exact hpasses hsecret
  · refine lastValue_filter _ fun entry _ hvalue ↦ (passes_iff entry).mpr ?_
    rwa [key_of_valueOf hvalue]

/-- The entries that are passed on do not tell environments apart that differ in secrets. -/
theorem withoutEnvironment_congr (h : List.Forall₂ SameButSecret environ environ') :
    withoutEnvironment environ secretNames = withoutEnvironment environ' secretNames := by
  unfold withoutEnvironment
  induction h with
  | nil => rfl
  | cons hentry _ ih =>
    rcases hentry with rfl | ⟨hsecret, hsecret'⟩
    · rw [List.filter_cons, List.filter_cons, ih]
    · rw [List.filter_cons_of_neg, List.filter_cons_of_neg, ih]
      · rw [passes_iff]
        exact not_not.mpr hsecret'
      · rw [passes_iff]
        exact not_not.mpr hsecret

end Secrets

/-- OpenSSH, and what it runs, learn nothing of the secrets: its arguments and its environment are
the same for codes with one route, options that differ in where code and token come from, and
environments that differ in the values of the secret variables, however these are written. It
sees no secret variable, and every other variable as the command itself had it. -/
theorem openSSH_learns_no_secret (env : Environment) (addr : Bytes)
    {environ environ' : List Bytes} (henviron : List.Forall₂ SameButSecret environ environ')
    {code code' : AccessCode.Code} (hroute : code.routeID = code'.routeID)
    {o o' : SSHOptions} (ho : o.sameButSecret o') :
    runOpenSSH env environ addr code o = runOpenSSH env environ' addr code' o' ∧
    ∀ args passed given, runOpenSSH env environ addr code o = .ok (args, passed) →
      dedupEnv passed = .ok given → ∀ name, IsName name →
        getenv given name = if Secret name then none else lastValue environ name := by
  refine ⟨?_, fun args passed given hrun hgiven name hname ↦ ?_⟩
  · have hargs : buildOpenSSHArgs env addr code o = buildOpenSSHArgs env addr code' o' := by
      simp only [SSHOptions.sameButSecret, SSHOptions.mk.injEq] at ho
      simp only [buildOpenSSHArgs, fixedArgs, hroute, ho]
    rw [runOpenSSH, runOpenSSH, hargs, withoutEnvironment_congr henviron]
  · obtain ⟨args', -, heq⟩ := map_eq_ok_iff.mp hrun
    obtain ⟨-, rfl⟩ := Prod.mk.inj heq
    rw [getenv_of_dedupEnv hgiven hname, lastValue_withoutEnvironment]

/-- The environment of a user who has written one of the names in lower case. -/
def sampleEnviron (code token : Bytes) : List Bytes :=
  [literal "RELAYCAT_CODE=" ++ code, literal "LANG=C", literal "relaycat_token=" ++ token]

theorem openSSH_learns_no_secret_sampleEnviron :
    runOpenSSH sampleEnvironment (sampleEnviron (literal "a") (literal "b"))
        (literal "127.0.0.1:40022") AccessCode.sampleCode (codeFileOptions (literal "code")) =
      runOpenSSH sampleEnvironment (sampleEnviron (literal "c") (literal "d"))
        (literal "127.0.0.1:40022") ⟨[], AccessCode.sampleCode.routeID, []⟩
        (codeFileOptions (literal "other")) ∧
    ∀ args passed given,
      runOpenSSH sampleEnvironment (sampleEnviron (literal "a") (literal "b"))
        (literal "127.0.0.1:40022") AccessCode.sampleCode
        (codeFileOptions (literal "code")) = .ok (args, passed) →
      dedupEnv passed = .ok given →
        getenv given (literal "LANG") = some (literal "C") ∧
          getenv given (literal "relaycat_token") = none := by
  have hsame : List.Forall₂ SameButSecret (sampleEnviron (literal "a") (literal "b"))
      (sampleEnviron (literal "c") (literal "d")) :=
    .cons (.inr (by decide +kernel)) (.cons (.inl rfl) (.cons (.inr (by decide +kernel)) .nil))
  obtain ⟨hrun, hvisible⟩ := openSSH_learns_no_secret sampleEnvironment (literal "127.0.0.1:40022")
    hsame (show AccessCode.sampleCode.routeID =
      (⟨[], AccessCode.sampleCode.routeID, []⟩ : AccessCode.Code).routeID from rfl)
    (show (codeFileOptions (literal "code")).sameButSecret (codeFileOptions (literal "other"))
      from rfl)
  refine ⟨hrun, fun args passed given hargs hgiven ↦ ?_⟩
  have hname := hvisible args passed given hargs hgiven
  exact ⟨(hname _ (by decide)).trans (by decide +kernel),
    (hname _ (by decide)).trans (by decide +kernel)⟩

end RelayCat.Cli
