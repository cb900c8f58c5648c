import RelayCat.AccessCode.Code
import RelayCat.Go.Time
import RelayCat.Json.Scanner
import RelayCat.Posix.Directory

/-!
# Persisted connection codes

`LoadOrCreate` keeps the code of an exposed target in a JSON file that also names the relay
URL and the target. A later call compares its own two strings with those of the file. The
strings in the file went through JSON, which has no way to write a byte outside UTF-8, so the
comparison succeeds for the strings that the file was created with exactly when both are UTF-8.
-/

namespace RelayCat.AccessCode

open Go Utf8 Json Wire Posix

structure StateFile where
  version : ℕ
  relayURL : Bytes
  target : Bytes
  routeID : Bytes
  psk : Bytes
  deriving DecidableEq, Repr

namespace StateFile

/-- The members that `json.MarshalIndent` writes. -/
def members (st : StateFile) (createdAt : Time) : List (Bytes × Bytes) :=
  [(literal "version", literal (toString st.version)),
    (literal "relay_url", appendString st.relayURL), (literal "target", appendString st.target),
    (literal "route_id", appendString st.routeID),
    (literal "preshared_key", appendString st.psk),
    (literal "created_at", quoteMark :: createdAt.format ++ [quoteMark])]

/-- `json.MarshalIndent(st, "", "  ")`. -/
def marshalIndent (st : StateFile) (createdAt : Time) : Bytes := objectText (st.members createdAt)

inductive Field where
  | version
  | relayURL
  | target
  | routeID
  | psk
  | createdAt
  deriving DecidableEq, Repr

def fields : List (Bytes × Field) :=
  [(literal "version", .version), (literal "relay_url", .relayURL), (literal "target", .target),
    (literal "route_id", .routeID), (literal "preshared_key", .psk),
    (literal "created_at", .createdAt)]

/-- `foldRune`, for comparison with names in ASCII. -/
def foldRune (c : Char) : Char :=
  if c.toNat = 0x17f then 'S' else if c.toNat = 0x212a then 'K' else c.toUpper

/-- The field of a member: by its exact name, else by its name up to case. -/
def field (name : Bytes) : Option Field :=
  match fields.find? fun f ↦ f.1 == name with
  | some f => some f.2
  | none =>
    (fields.find? fun f ↦ (runes f.1).map foldRune == (runes name).map foldRune).map (·.2)

/-- The string of a text that is a JSON string. -/
def asString : Bytes → Option Bytes
  | [] => none
  | c :: rest => if c = quoteMark then unquote rest.dropLast else none

variable (parse : Bytes → Bool)

/-- One member stored into the struct; `null` stores nothing. -/
def store (st : StateFile) (f : Field) (text : Bytes) : Option StateFile :=
  if text = literal "null" then some st
  else
    match f with
    | .version =>
      ((Time.digits 0 text).filter fun v ↦ v < 2 ^ 32).map fun v ↦ { st with version := v }
    | .relayURL => (asString text).map fun v ↦ { st with relayURL := v }
    | .target => (asString text).map fun v ↦ { st with target := v }
    | .routeID => (asString text).map fun v ↦ { st with routeID := v }
    | .psk => (asString text).map fun v ↦ { st with psk := v }
    | .createdAt => if Time.unmarshalJSON parse text then some st else none

def storeMember (st : StateFile) (m : Bytes × Bytes) : Option StateFile :=
  match (asString m.1).bind field with
  | none => some st
  | some f => st.store parse f m.2

def zero : StateFile := ⟨0, [], [], [], []⟩

/-- `json.Unmarshal`; `parse` is the general parser of times. -/
def unmarshal (b : Bytes) : Option StateFile :=
  match document b with
  | none => none
  | some (.other text) => if text = literal "null" then some zero else none
  | some (.object members) => members.foldlM (storeMember parse) zero

end StateFile

/-- What `LoadOrCreate` makes of the content of an existing file. -/
def interpret (parse : Bytes → Bool) (b relayURL target : Bytes) : Except Err Code :=
  match StateFile.unmarshal parse b with
  | none => .error (.errorf "decoding state file" (.new "invalid JSON"))
  | some st =>
    if st.version ≠ protocolVersion ∨ st.relayURL ≠ relayURL ∨ st.target ≠ target then
      .error (.new "state file does not match protocol version, relay URL, and target")
    else
      match Base64.decode st.routeID with
      | none => .error (.new "invalid route ID in state file")
      | some route =>
        match Base64.decode st.psk with
        | none => .error (.new "invalid preshared key in state file")
        | some psk =>
          match Code.validate ⟨relayURL, route, psk⟩ with
          | .error err => .error err
          | .ok () => .ok ⟨relayURL, route, psk⟩

/-- The content of a new file. -/
def stateText (target : Bytes) (c : Code) (now : Time) : Bytes :=
  StateFile.marshalIndent
    ⟨protocolVersion, c.relayURL, target, Base64.encode c.routeID, Base64.encode c.psk⟩ now ++ [0x0a]

section Text

open StateFile

variable {parse : Bytes → Bool}

@[simp] theorem asString_appendString (s : Bytes) :
    asString (appendString s) = some (sanitize s) := by
  simp [appendString, asString]

theorem quoted_ne_null (bs : Bytes) : quoteMark :: bs ≠ literal "null" := by
  intro h
  have hhead : some quoteMark = (literal "null").head? := congrArg List.head? h
  rw [literal_ofList] at hhead
  exact absurd hhead (by decide)

theorem stringRun_format (t : Time) : stringRun .inString t.format = some .inString := by
  refine stringRun_plain fun b hb ↦ ?_
  rcases Time.plain_of_mem_format hb with hdigit | hmark
  · simp only [Time.isDigit, Bool.and_eq_true, decide_eq_true_eq] at hdigit
    have hlow : 0x30 ≤ b.toNat := hdigit.1
    have hhigh : b.toNat ≤ 0x39 := hdigit.2
    refine ⟨?_, ?_, by omega⟩
    · rintro rfl
      exact absurd hlow (by decide)
    · rintro rfl
      exact absurd hhigh (by decide)
  · have hall : ∀ b ∈ [0x2d, 0x54, 0x3a, 0x2e, 0x5a],
        b ≠ quoteMark ∧ b ≠ backslash ∧ 0x20 ≤ b.toNat := List.all_iff_forall_prop.mp (by decide)
    exact hall b hmark

theorem isValue_members {st : StateFile} (hversion : st.version = protocolVersion) (now : Time) :
    ∀ m ∈ st.members now, IsValue m.2 := by
  have hone : IsValue (literal (toString st.version)) := by
    rw [hversion]
    exact isValue_one
  simp only [members, List.forall_mem_cons, List.not_mem_nil, IsEmpty.forall_iff, implies_true,
    and_true]
  exact ⟨hone, isValue_appendString _, isValue_appendString _, isValue_appendString _,
    isValue_appendString _, isValue_quoted (stringRun_format now)⟩

/-- A member whose name is that of a field. -/
theorem storeMember_field {st : StateFile} {name : String} {text : Bytes} {f : Field}
    (h : field (literal name) = some f) :
    storeMember parse st (appendString (literal name), text) = st.store parse f text := by
  have hname : sanitize (literal name) = literal name := (sanitize_eq_iff _).mpr (valid_encode _)
  rw [storeMember, asString_appendString, hname, Option.bind_some, h]

theorem store_version (st : StateFile) :
    st.store parse .version (literal (toString protocolVersion)) =
      some { st with version := protocolVersion } := by
  have hone : (Time.digits 0 (literal (toString protocolVersion))).filter (· < 2 ^ 32) =
      some protocolVersion := by decide +kernel
  have hnull : literal (toString protocolVersion) ≠ literal "null" := by decide +kernel
  simp only [store, hnull, if_false, hone, Option.map_some]

theorem store_createdAt (st : StateFile) (now : Time) :
    st.store parse .createdAt (quoteMark :: now.format ++ [quoteMark]) = some st := by
  have hnull : quoteMark :: now.format ++ [quoteMark] ≠ literal "null" := quoted_ne_null _
  have hlast : (quoteMark :: now.format ++ [quoteMark]).getLast? = some quoteMark :=
    List.getLast?_concat
  have hparse : Time.unmarshalJSON parse (quoteMark :: now.format ++ [quoteMark]) = true := by
    rw [Time.unmarshalJSON, hlast]
    simp [Time.parseRFC3339_format, quoteMark]
  simp only [store, hnull, if_false, hparse, if_true]

theorem field_names :
    field (literal "version") = some .version ∧
      field (literal "relay_url") = some .relayURL ∧
      field (literal "target") = some .target ∧
      field (literal "route_id") = some .routeID ∧
      field (literal "preshared_key") = some .psk ∧
      field (literal "created_at") = some .createdAt := by
  decide +kernel

/-- The strings of a written file are those that were written, up to invalid bytes. -/
theorem unmarshal_marshalIndent {st : StateFile} (hversion : st.version = protocolVersion)
    (now : Time) {space : Bytes} (hspace : space.all isSpace = true) :
    unmarshal parse (st.marshalIndent now ++ space) =
      some ⟨protocolVersion, sanitize st.relayURL, sanitize st.target, sanitize st.routeID,
        sanitize st.psk⟩ := by
  have hdoc : document (st.marshalIndent now ++ space) =
      some (.object ((st.members now).map fun m ↦ (appendString m.1, m.2))) :=
    document_objectText (isValue_members hversion now) hspace
  have hnull (s : Bytes) : appendString s ≠ literal "null" := quoted_ne_null _
  obtain ⟨h1, h2, h3, h4, h5, h6⟩ := field_names
  rw [unmarshal, hdoc]
  simp only [members, hversion, List.map_cons, List.map_nil, List.foldlM_cons, List.foldlM_nil,
    storeMember_field h1, storeMember_field h2, storeMember_field h3, storeMember_field h4,
    storeMember_field h5, storeMember_field h6, store_version, store_createdAt,
    Option.bind_eq_bind, Option.bind_some]
  simp only [store, hnull, if_false, asString_appendString, Option.map_some, Option.bind_some]
  rfl

/-- What a call makes of a file that a call wrote. -/
theorem interpret_stateText {c : Code} (hc : c.validate = .ok ()) (target : Bytes) (now : Time)
    (relayURL' target' : Bytes) :
    interpret parse (stateText target c now) relayURL' target' =
      if sanitize c.relayURL = relayURL' ∧ sanitize target = target' then
        .ok ⟨relayURL', c.routeID, c.psk⟩
      else .error (.new "state file does not match protocol version, relay URL, and target") := by
  have hroute : sanitize (Base64.encode c.routeID) = Base64.encode c.routeID :=
    (sanitize_eq_iff _).mpr (Base64.valid_encode _)
  have hpsk : sanitize (Base64.encode c.psk) = Base64.encode c.psk :=
    (sanitize_eq_iff _).mpr (Base64.valid_encode _)
  have hvalidate : Code.validate ⟨relayURL', c.routeID, c.psk⟩ = .ok () :=
    validate_eq_ok.mpr (validate_eq_ok.mp hc)
  have hspace : [(0x0a : UInt8)].all isSpace = true := rfl
  rw [interpret, stateText, unmarshal_marshalIndent rfl now hspace]
  simp only [ne_eq, not_true_eq_false, false_or, hroute, hpsk, Base64.decode_encode, hvalidate]
  split_ifs <;> simp_all

end Text

section Calls

abbrev FileSystem := Bytes → Option File

/-- What the system does for one call: the error of each operation, if it fails, the random
bytes, the time and the permissions that are left to a new file. A failed write has written a
number of bytes. -/
structure Outcome where
  read : Option Err
  stat : Option Err
  routeID : Except Err { b : Bytes // b.length = routeIDSize }
  psk : Except Err { b : Bytes // b.length = pskSize }
  now : Time
  mkdirAll : Option Err
  openFile : Option Err
  mask : ℕ
  write : Option (ℕ × Err)
  sync : Option Err
  close : Option Err

/-- `New`. -/
def new (relayURL : Bytes) (o : Outcome) : Except Err Code :=
  match o.routeID with
  | .error err => .error (.errorf "generating route ID" err)
  | .ok routeID =>
    match o.psk with
    | .error err => .error (.errorf "generating preshared key" err)
    | .ok psk => .ok ⟨relayURL, routeID, psk⟩

/-- `CheckPrivateFile`, with what `os.Stat` returns. -/
def checkPrivateFile (windows : Bool) (path : Bytes) (stat : Except Err ℕ) : Except Err Unit :=
  if path = [] ∨ windows then .ok ()
  else
    match stat with
    | .error err => .error err
    | .ok mode =>
      if mode &&& 0o077 ≠ 0 then
        .error (.new (String.ofList (runes path) ++ " is accessible by group or other users"))
      else .ok ()

variable (windows : Bool) (parse : Bytes → Bool)

/-- `LoadOrCreate`: its result and the file system it leaves. -/
def loadOrCreate (o : Outcome) (fs : FileSystem) (path relayURL target : Bytes) :
    Except Err Code × FileSystem :=
  if path = [] then (new relayURL o, fs)
  else
    match o.read with
    | some err => (.error (.errorf "reading state file" err), fs)
    | none =>
      match fs path with
      | some file =>
        match checkPrivateFile windows path (o.stat.elim (.ok file.mode) .error) with
        | .error err => (.error err, fs)
        | .ok () => (interpret parse file.content relayURL target, fs)
      | none =>
        match new relayURL o with
        | .error err => (.error err, fs)
        | .ok c =>
          match o.mkdirAll with
          | some err => (.error (.errorf "creating state directory" err), fs)
          | none =>
            match o.openFile with
            | some err => (.error (.errorf "writing state file" err), fs)
            | none =>
              let text := stateText target c o.now
              match o.write with
              | some (n, err) =>
                (.error (.errorf "writing state file" err),
                  Function.update fs path (some ⟨text.take n, 0o600 &&& o.mask⟩))
              | none =>
                let fs := Function.update fs path (some ⟨text, 0o600 &&& o.mask⟩)
                match o.sync with
                | some err => (.error (.errorf "syncing state file" err), fs)
                | none =>
                  match o.close with
                  | some err => (.error (.errorf "closing state file" err), fs)
                  | none => (.ok c, fs)

structure Call where
  outcome : Outcome
  relayURL : Bytes
  target : Bytes

/-- The file system after calls with one path. -/
def afterCalls (path : Bytes) (fs : FileSystem) : List Call → FileSystem
  | [] => fs
  | call :: calls =>
    afterCalls path
      (loadOrCreate windows parse call.outcome fs path call.relayURL call.target).2 calls

/-- The code that a call creates with these strings is what every later call with the same
strings returns, while every later call with others fails, and no later call changes a file.
A later call is one for which the existing file can be read. -/
def Stable (relayURL target : Bytes) : Prop :=
  ∀ (o : Outcome) (fs fs' : FileSystem) (path : Bytes) (c : Code), path ≠ [] → fs path = none →
    loadOrCreate windows parse o fs path relayURL target = (.ok c, fs') →
    ∀ (calls : List Call) (call : Call), call.outcome.read = none → call.outcome.stat = none →
      afterCalls windows parse path fs' calls = fs' ∧
      (call.relayURL = relayURL ∧ call.target = target →
        loadOrCreate windows parse call.outcome fs' path call.relayURL call.target = (.ok c, fs')) ∧
      (¬ (call.relayURL = relayURL ∧ call.target = target) →
        ∃ err, loadOrCreate windows parse call.outcome fs' path call.relayURL call.target =
          (.error err, fs'))

variable {windows parse} {o : Outcome} {fs fs' : FileSystem} {path relayURL target : Bytes}
  {c : Code}

theorem new_ok (h : new relayURL o = .ok c) : c.relayURL = relayURL ∧ c.validate = .ok () := by
  unfold new at h
  split at h
  · cases h
  · rename_i routeID _
    split at h
    · cases h
    · rename_i psk _
      cases h
      exact ⟨rfl, validate_eq_ok.mpr ⟨routeID.2, psk.2⟩⟩

/-- A call that finds a file changes nothing. -/
theorem loadOrCreate_existing {file : File} (hfile : fs path = some file) (hpath : path ≠ []) :
    (loadOrCreate windows parse o fs path relayURL target).2 = fs := by
  rw [loadOrCreate, if_neg hpath]
  split
  · rfl
  · rw [hfile]
    simp only
    split <;> rfl

theorem afterCalls_existing {file : File} (hfile : fs path = some file) (hpath : path ≠ [])
    (calls : List Call) : afterCalls windows parse path fs calls = fs := by
  induction calls with
  | nil => rfl
  | cons call calls ih => rw [afterCalls, loadOrCreate_existing hfile hpath, ih]

/-- A call that creates a file has written the whole text of its code. -/
theorem loadOrCreate_created (hpath : path ≠ []) (hfs : fs path = none)
    (h : loadOrCreate windows parse o fs path relayURL target = (.ok c, fs')) :
    c.relayURL = relayURL ∧ c.validate = .ok () ∧
      fs' path = some ⟨stateText target c o.now, 0o600 &&& o.mask⟩ := by
  rw [loadOrCreate, if_neg hpath] at h
  split at h
  · cases h
  · simp only [hfs] at h
    split at h
    · cases h
    · rename_i c' hnew
      obtain ⟨hurl, hvalidate⟩ := new_ok hnew
      split at h
      · cases h
      · split at h
        · cases h
        · split at h
          · cases h
          · split at h
            · cases h
            · split at h
              · cases h
              · cases h
                exact ⟨hurl, hvalidate, Function.update_self ..⟩

/-- A new file is private. -/
theorem private_new (mask : ℕ) : 0o600 &&& mask &&& 0o077 = 0 := by
  rw [Nat.and_assoc, Nat.and_comm mask, ← Nat.and_assoc]
  exact Nat.zero_and mask

theorem checkPrivateFile_new (windows : Bool) (path : Bytes) (mask : ℕ) :
    checkPrivateFile windows path (.ok (0o600 &&& mask)) = .ok () := by
  simp [checkPrivateFile, private_new]

/-- A call that can read the text of a code. -/
theorem loadOrCreate_stateText (relayURL target : Bytes) {now : Time} (hpath : path ≠ [])
    (hc : c.validate = .ok ()) {target' : Bytes} {mask : ℕ}
    (hfile : fs path = some ⟨stateText target' c now, 0o600 &&& mask⟩)
    (hread : o.read = none) (hstat : o.stat = none) :
    loadOrCreate windows parse o fs path relayURL target =
      (if sanitize c.relayURL = relayURL ∧ sanitize target' = target then
        .ok ⟨relayURL, c.routeID, c.psk⟩
      else .error (.new "state file does not match protocol version, relay URL, and target"),
      fs) := by
  rw [loadOrCreate, if_neg hpath]
  simp only [hread, hfile, hstat, Option.elim_none, checkPrivateFile_new, interpret_stateText hc]

/-- The start of 1970. -/
def epoch : Time where
  year := 1970
  month := 1
  day := 1
  hour := 0
  minute := 0
  second := 0
  nanosecond := 0
  year_le := by decide
  month_range := by decide
  day_range := by decide
  hour_lt := by decide
  minute_lt := by decide
  second_lt := by decide
  nanosecond_lt := by decide

/-- A system in which nothing fails. -/
def smooth : Outcome where
  read := none
  stat := none
  routeID := .ok ⟨List.replicate 16 7, rfl⟩
  psk := .ok ⟨List.replicate 32 9, rfl⟩
  now := epoch
  mkdirAll := none
  openFile := none
  mask := 0o755
  write := none
  sync := none
  close := none

theorem loadOrCreate_smooth (windows : Bool) (parse : Bytes → Bool) (relayURL target : Bytes)
    (hpath : path ≠ []) (hfs : fs path = none) :
    ∃ fs', loadOrCreate windows parse smooth fs path relayURL target =
      (.ok ⟨relayURL, List.replicate 16 7, List.replicate 32 9⟩, fs') := by
  rw [loadOrCreate, if_neg hpath]
  simp only [smooth, hfs, new]
  exact ⟨_, rfl⟩

/-- Persisted codes are stable and bound to their strings exactly for strings that are
UTF-8: of others the file holds an altered copy. -/
theorem stable_iff (windows : Bool) (parse : Bytes → Bool) (relayURL target : Bytes) :
    Stable windows parse relayURL target ↔ Valid relayURL ∧ Valid target := by
  constructor
  · intro h
    have hpath : literal "state" ≠ [] := by decide
    obtain ⟨fs, hnone⟩ : ∃ fs : FileSystem, fs (literal "state") = none := ⟨fun _ ↦ none, rfl⟩
    obtain ⟨fs', hcreate⟩ := loadOrCreate_smooth windows parse relayURL target hpath hnone
    obtain ⟨hurl, hvalidate, hfile⟩ := loadOrCreate_created hpath hnone hcreate
    have hsame := (h _ _ _ _ _ hpath hnone hcreate [] ⟨smooth, relayURL, target⟩ rfl rfl).2.1
      ⟨rfl, rfl⟩
    rw [loadOrCreate_stateText _ _ hpath hvalidate hfile rfl rfl] at hsame
    by_cases hmatch : sanitize relayURL = relayURL ∧ sanitize target = target
    · exact ⟨(sanitize_eq_iff _).mp hmatch.1, (sanitize_eq_iff _).mp hmatch.2⟩
    · simp [hmatch] at hsame
  · rintro ⟨hrelay, htarget⟩ o fs fs' path c hpath hfs hcreate calls call hread hstat
    obtain ⟨hurl, hvalidate, hfile⟩ := loadOrCreate_created hpath hfs hcreate
    have hrelay : sanitize c.relayURL = relayURL := by
      rw [hurl]
      exact (sanitize_eq_iff _).mpr hrelay
    have htarget : sanitize target = target := (sanitize_eq_iff _).mpr htarget
    rw [loadOrCreate_stateText _ _ hpath hvalidate hfile hread hstat, hrelay, htarget]
    refine ⟨afterCalls_existing hfile hpath calls, ?_, ?_⟩
    · rintro ⟨hsameURL, hsameTarget⟩
      rw [if_pos ⟨hsameURL.symm, hsameTarget.symm⟩, hsameURL, ← hurl]
    · intro hdiffers
      rw [if_neg fun hsame ↦ hdiffers ⟨hsame.1.symm, hsame.2.symm⟩]
      exact ⟨_, rfl⟩

/-- The target `\xff:22` is not UTF-8: the call that created the file succeeds, and the same
call again is told that the file belongs to another target. -/
theorem loadOrCreate_altered_target :
    (∃ fs', loadOrCreate false (fun _ ↦ false) smooth (fun _ ↦ none) (literal "state")
        (literal "https://relay.example") (0xff :: literal ":22") =
          (.ok ⟨literal "https://relay.example", List.replicate 16 7, List.replicate 32 9⟩, fs') ∧
      (loadOrCreate false (fun _ ↦ false) smooth fs' (literal "state")
        (literal "https://relay.example") (0xff :: literal ":22")).1 =
          .error (.new "state file does not match protocol version, relay URL, and target")) ∧
    ¬ Stable false (fun _ ↦ false) (literal "https://relay.example") (0xff :: literal ":22") := by
  have hpath : literal "state" ≠ [] := by decide
  obtain ⟨fs, hnone, hfs⟩ : ∃ fs : FileSystem, fs (literal "state") = none ∧ fs = fun _ ↦ none :=
    ⟨fun _ ↦ none, rfl, rfl⟩
  obtain ⟨fs', hcreate⟩ := loadOrCreate_smooth false (fun _ ↦ false)
    (literal "https://relay.example") (0xff :: literal ":22") hpath hnone
  obtain ⟨-, hvalidate, hfile⟩ := loadOrCreate_created hpath hnone hcreate
  have haltered : sanitize (0xff :: literal ":22") ≠ 0xff :: literal ":22" := by
    rw [literal_ofList]
    decide +kernel
  have hagain : loadOrCreate false (fun _ ↦ false) smooth fs' (literal "state")
      (literal "https://relay.example") (0xff :: literal ":22") =
        (.error (.new "state file does not match protocol version, relay URL, and target"), fs') := by
    rw [loadOrCreate_stateText _ _ hpath hvalidate hfile rfl rfl, if_neg fun h ↦ haltered h.2]
  refine ⟨⟨fs', by rw [← hfs]; exact hcreate, by rw [hagain]⟩, fun hstable ↦ ?_⟩
  have hsame := (hstable _ _ _ _ _ hpath hnone hcreate []
    ⟨smooth, literal "https://relay.example", 0xff :: literal ":22"⟩ rfl rfl).2.1 ⟨rfl, rfl⟩
  rw [hagain] at hsame
  cases hsame

end Calls

end RelayCat.AccessCode
