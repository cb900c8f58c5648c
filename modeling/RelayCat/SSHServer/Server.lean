import RelayCat.Go.Errors
import RelayCat.Go.Utf8

/-!
# Who may log in

`New` configures the built-in SSH server. Without a list of authorized keys it takes everybody,
and only if that was asked for; with one it takes the keys that stand in its texts, line by line.
Any line that cannot be read, or that carries options, makes it fail, and so does a list without
a key.

`gossh.ParseAuthorizedKey` and `key.Marshal` are parameters, and so is the result of
`loadOrCreateHostKey`.
-/

namespace RelayCat.SSHServer

open Go Utf8

variable {Key Signer : Type}

/-- What `gossh.ParseAuthorizedKey` returns, without the comment. -/
structure AuthorizedKey (Key : Type) where
  key : Key
  options : List Bytes
  rest : Bytes

/-- A nil list of authorized keys is `none`. -/
structure Config where
  hostKeyPath : Bytes
  authorizedKeys : Option (List Bytes)
  noClientAuth : Bool
  deriving DecidableEq, Repr

/-- The parts of the server that decide who may log in; a nil handler is `none`. -/
@[ext]
structure Server (Key Signer : Type) where
  hostSigner : Signer
  publicKeyHandler : Option (Key → Bool)

/-- `strings.TrimSuffix(line, "\r")`. -/
def trimReturn (line : Bytes) : Bytes :=
  if line.getLast? = some 0x0d then line.dropLast else line

/-- A line without the white space around it. -/
def cleanLine (line : Bytes) : Bytes := trimSpace (trimReturn line)

/-- A line that is skipped. -/
def isSkipped (line : Bytes) : Bool := line.isEmpty || line.head? == some 0x23

def position (textIndex lineIndex : ℕ) : String :=
  "authorized keys entry " ++ toString (textIndex + 1) ++ ", line " ++ toString (lineIndex + 1)

section Handler

variable (parseAuthorizedKey : Bytes → Except Err (AuthorizedKey Key)) (marshal : Key → Bytes)

/-- The inner loop of `publicKeyHandler`, with the keys so far. -/
def readLines (textIndex : ℕ) : ℕ → List Bytes → List Bytes → Except Err (List Bytes)
  | _, [], allowed => .ok allowed
  | lineIndex, line :: rest, allowed =>
    if isSkipped (cleanLine line) then readLines textIndex (lineIndex + 1) rest allowed
    else
      match parseAuthorizedKey (cleanLine line) with
      | .error err => .error (.errorf (position textIndex lineIndex) err)
      | .ok entry =>
        if trimSpace entry.rest ≠ [] then
          .error (.errorf (position textIndex lineIndex) (.new "unexpected trailing data"))
        else if entry.options ≠ [] then
          .error (.new (position textIndex lineIndex ++ ": options are not supported"))
        else readLines textIndex (lineIndex + 1) rest (marshal entry.key :: allowed)

/-- `strings.Split(text, "\n")`. -/
def textLines (text : Bytes) : List Bytes := text.splitOn 0x0a

/-- The outer loop. -/
def readTexts : ℕ → List Bytes → List Bytes → Except Err (List Bytes)
  | _, [], allowed => .ok allowed
  | textIndex, text :: rest, allowed =>
    match readLines parseAuthorizedKey marshal textIndex 0 (textLines text) allowed with
    | .error err => .error err
    | .ok allowed => readTexts (textIndex + 1) rest allowed

def publicKeyHandler : Option (List Bytes) → Except Err (Option (Key → Bool))
  | none => .ok none
  | some texts =>
    match readTexts parseAuthorizedKey marshal 0 texts [] with
    | .error err => .error err
    | .ok allowed =>
      if allowed = [] then .error (.new "no SSH public keys found")
      else .ok (some fun key ↦ allowed.contains (marshal key))

/-- `New`, with the result of `loadOrCreateHostKey`. -/
def new (hostKey : Except Err Signer) (cfg : Config) : Except Err (Server Key Signer) :=
  if cfg.noClientAuth = true ∧ cfg.authorizedKeys ≠ none then
    .error (.new "authorized keys cannot be combined with no client authentication")
  else if cfg.noClientAuth = false ∧ cfg.authorizedKeys = none then
    .error (.new "at least one authorized key is required")
  else
    match hostKey with
    | .error err => .error err
    | .ok signer =>
      match publicKeyHandler parseAuthorizedKey marshal cfg.authorizedKeys with
      | .error err => .error err
      | .ok handler => .ok ⟨signer, handler⟩

end Handler

section Lines

/-- The lines that are read, of a list of lines. -/
def entries (lines : List Bytes) : List Bytes :=
  (lines.map cleanLine).filter fun line ↦ !isSkipped line

variable {parse : Bytes → Except Err (AuthorizedKey Key)} {marshal : Key → Bytes}

/-- A line gives a key: it is read without options and without anything behind it. -/
def Gives (parse : Bytes → Except Err (AuthorizedKey Key)) (line : Bytes) (key : Key) : Prop :=
  ∃ entry, parse line = .ok entry ∧ trimSpace entry.rest = [] ∧ entry.options = [] ∧
    entry.key = key

/-- The keys of some lines were added, and each line gave one. -/
structure Collects (parse : Bytes → Except Err (AuthorizedKey Key)) (marshal : Key → Bytes)
    (lines allowed allowed' : List Bytes) : Prop where
  gives : ∀ line ∈ lines, ∃ key, Gives parse line key
  mem : ∀ b, b ∈ allowed' ↔
    b ∈ allowed ∨ ∃ line ∈ lines, ∃ key, Gives parse line key ∧ marshal key = b

theorem Gives.unique {line : Bytes} {key key' : Key} (h : Gives parse line key)
    (h' : Gives parse line key') : key = key' := by
  obtain ⟨entry, hparse, -, -, rfl⟩ := h
  obtain ⟨entry', hparse', -, -, rfl⟩ := h'
  cases hparse.symm.trans hparse'
  rfl

theorem entries_cons_skipped {line : Bytes} (h : isSkipped (cleanLine line) = true)
    (lines : List Bytes) : entries (line :: lines) = entries lines := by
  simp [entries, h]

theorem entries_cons {line : Bytes} (h : isSkipped (cleanLine line) = false)
    (lines : List Bytes) : entries (line :: lines) = cleanLine line :: entries lines := by
  simp [entries, h]

theorem Collects.refl (allowed : List Bytes) : Collects parse marshal [] allowed allowed where
  gives := nofun
  mem b := by simp

/-- Lines are read one after the other. -/
theorem Collects.append {lines lines' allowed allowed' allowed'' : List Bytes}
    (h : Collects parse marshal lines allowed allowed')
    (h' : Collects parse marshal lines' allowed' allowed'') :
    Collects parse marshal (lines ++ lines') allowed allowed'' where
  gives line hline := (List.mem_append.mp hline).elim (h.gives line) (h'.gives line)
  mem b := by
    rw [h'.mem, h.mem]
    simp only [List.mem_append, or_and_right, exists_or, or_assoc]

theorem collects_singleton {line : Bytes} {key : Key} (h : Gives parse line key)
    (allowed : List Bytes) : Collects parse marshal [line] allowed (marshal key :: allowed) where
  gives line' hline' := by
    rw [List.mem_singleton.mp hline']
    exact ⟨key, h⟩
  mem b := by
    rw [List.mem_cons, or_comm]
    apply or_congr Iff.rfl
    constructor
    · intro hb
      exact ⟨line, List.mem_singleton_self line, key, h, hb.symm⟩
    · rintro ⟨line', hline', key', h', rfl⟩
      rw [List.mem_singleton.mp hline'] at h'
      rw [h.unique h']

theorem collects_of_readLines {textIndex lineIndex : ℕ} {lines allowed allowed' : List Bytes}
    (h : readLines parse marshal textIndex lineIndex lines allowed = .ok allowed') :
    Collects parse marshal (entries lines) allowed allowed' := by
  induction lines generalizing lineIndex allowed with
  | nil =>
    cases h
    exact Collects.refl _
  | cons line lines ih =>
    rw [readLines] at h
    cases hskip : isSkipped (cleanLine line) with
    | true =>
      rw [entries_cons_skipped hskip]
      simp only [hskip, if_true] at h
      exact ih h
    | false =>
      rw [entries_cons hskip]
      simp only [hskip, Bool.false_eq_true, if_false] at h
      split at h
      · cases h
      · rename_i entry hentry
        split_ifs at h with hrest hoptions
        have hgives : Gives parse (cleanLine line) entry.key :=
          ⟨entry, hentry, not_not.mp hrest, not_not.mp hoptions, rfl⟩
        exact (collects_singleton hgives allowed).append (ih h)

/-- Lines that all give a key are read to the end. -/
theorem exists_readLines (marshal : Key → Bytes) {lines : List Bytes}
    (h : ∀ line ∈ entries lines, ∃ key, Gives parse line key) (textIndex lineIndex : ℕ)
    (allowed : List Bytes) :
    ∃ allowed', readLines parse marshal textIndex lineIndex lines allowed = .ok allowed' := by
  induction lines generalizing lineIndex allowed with
  | nil => exact ⟨allowed, rfl⟩
  | cons line lines ih =>
    rw [readLines]
    cases hskip : isSkipped (cleanLine line) with
    | true =>
      rw [entries_cons_skipped hskip] at h
      simp only [if_true]
      exact ih h _ _
    | false =>
      rw [entries_cons hskip, List.forall_mem_cons] at h
      obtain ⟨⟨key, entry, hentry, hrest, hoptions, -⟩, hlines⟩ := h
      simp only [Bool.false_eq_true, if_false, hentry, hrest, hoptions, ne_eq, not_true_eq_false]
      exact ih hlines _ _

/-- The lines that are read, of all texts. -/
def textEntries (texts : List Bytes) : List Bytes := entries (texts.flatMap textLines)

theorem textEntries_cons (text : Bytes) (texts : List Bytes) :
    textEntries (text :: texts) = entries (textLines text) ++ textEntries texts := by
  simp [textEntries, entries]

theorem collects_of_readTexts {textIndex : ℕ} {texts allowed allowed' : List Bytes}
    (h : readTexts parse marshal textIndex texts allowed = .ok allowed') :
    Collects parse marshal (textEntries texts) allowed allowed' := by
  induction texts generalizing textIndex allowed with
  | nil =>
    cases h
    exact Collects.refl _
  | cons text texts ih =>
    rw [readTexts] at h
    split at h
    · cases h
    · rename_i between hlines
      rw [textEntries_cons]
      exact (collects_of_readLines hlines).append (ih h)

theorem exists_readTexts (marshal : Key → Bytes) {texts : List Bytes}
    (h : ∀ line ∈ textEntries texts, ∃ key, Gives parse line key) (textIndex : ℕ)
    (allowed : List Bytes) :
    ∃ allowed', readTexts parse marshal textIndex texts allowed = .ok allowed' := by
  induction texts generalizing textIndex allowed with
  | nil => exact ⟨allowed, rfl⟩
  | cons text texts ih =>
    rw [textEntries_cons, List.forall_mem_append] at h
    obtain ⟨between, hlines⟩ := exists_readLines marshal h.1 textIndex 0 allowed
    rw [readTexts, hlines]
    exact ih h.2 _ _

/-- The keys that `accept` takes are those of some lines, and each line gives one. -/
structure Admits (parse : Bytes → Except Err (AuthorizedKey Key)) (lines : List Bytes)
    (accept : Key → Bool) : Prop where
  nonempty : lines ≠ []
  gives : ∀ line ∈ lines, ∃ key, Gives parse line key
  accepts : ∀ key, accept key = true ↔ ∃ line ∈ lines, Gives parse line key

theorem Admits.congr {lines lines' : List Bytes} {accept : Key → Bool}
    (h : Admits parse lines accept) (hlines : lines.Perm lines') : Admits parse lines' accept where
  nonempty hnil := h.nonempty (List.perm_nil.mp (hnil ▸ hlines))
  gives line hline := h.gives line (hlines.mem_iff.mpr hline)
  accepts key := by simp only [h.accepts, hlines.mem_iff]

theorem Admits.unique {lines : List Bytes} {accept accept' : Key → Bool}
    (h : Admits parse lines accept) (h' : Admits parse lines accept') : accept = accept' := by
  funext key
  rw [Bool.eq_iff_iff, h.accepts, h'.accepts]

/-- What was collected decides who is let in. -/
theorem Collects.admits {lines allowed : List Bytes} (hmarshal : Function.Injective marshal)
    (h : Collects parse marshal lines [] allowed) (hne : allowed ≠ []) :
    Admits parse lines fun key ↦ allowed.contains (marshal key) where
  nonempty := by
    rintro rfl
    apply hne
    rw [List.eq_nil_iff_forall_not_mem]
    intro b hb
    simpa using (h.mem b).mp hb
  gives := h.gives
  accepts key := by
    rw [List.contains_iff_mem, h.mem]
    constructor
    · rintro (hnil | ⟨line, hline, key', hgives, hkey⟩)
      · cases hnil
      · exact ⟨line, hline, hmarshal hkey ▸ hgives⟩
    · rintro ⟨line, hline, hgives⟩
      exact Or.inr ⟨line, hline, key, hgives, rfl⟩

theorem Collects.ne_nil {lines allowed : List Bytes}
    (h : Collects parse marshal lines [] allowed) (hne : lines ≠ []) : allowed ≠ [] := by
  obtain ⟨line, hline⟩ := List.exists_mem_of_ne_nil lines hne
  obtain ⟨key, hgives⟩ := h.gives line hline
  exact List.ne_nil_of_mem ((h.mem (marshal key)).mpr (Or.inr ⟨line, hline, key, hgives, rfl⟩))

theorem publicKeyHandler_eq_ok {texts : List Bytes} (hmarshal : Function.Injective marshal)
    {handler : Option (Key → Bool)} :
    publicKeyHandler parse marshal (some texts) = .ok handler ↔
      ∃ accept, handler = some accept ∧ Admits parse (textEntries texts) accept := by
  constructor
  · intro h
    rw [publicKeyHandler] at h
    split at h
    · cases h
    · rename_i allowed hread
      split_ifs at h with hnil
      cases h
      exact ⟨_, rfl, (collects_of_readTexts hread).admits hmarshal hnil⟩
  · rintro ⟨accept, rfl, hadmits⟩
    obtain ⟨allowed, hread⟩ := exists_readTexts marshal hadmits.gives 0 []
    have hcollects := collects_of_readTexts hread
    have hne : allowed ≠ [] := hcollects.ne_nil hadmits.nonempty
    rw [hadmits.unique (hcollects.admits hmarshal hne)]
    simp only [publicKeyHandler, hread, hne, if_false]

/-- Exactly when `New` succeeds, and with what. -/
theorem new_eq_ok {hostKey : Except Err Signer} {cfg : Config} {server : Server Key Signer}
    (hmarshal : Function.Injective marshal) :
    new parse marshal hostKey cfg = .ok server ↔ hostKey = .ok server.hostSigner ∧
      (cfg.noClientAuth = true ∧ cfg.authorizedKeys = none ∧ server.publicKeyHandler = none ∨
        cfg.noClientAuth = false ∧ ∃ texts accept, cfg.authorizedKeys = some texts ∧
          server.publicKeyHandler = some accept ∧ Admits parse (textEntries texts) accept) := by
  cases hkeys : cfg.authorizedKeys with
  | none =>
    cases hauth : cfg.noClientAuth with
    | false => simp [new, hkeys, hauth]
    | true =>
      cases hostKey with
      | error err => simp [new, hkeys, hauth]
      | ok signer => simp [new, hkeys, hauth, publicKeyHandler, Server.ext_iff, eq_comm]
  | some texts =>
    cases hauth : cfg.noClientAuth with
    | true => simp [new, hkeys, hauth]
    | false =>
      cases hostKey with
      | error err => simp [new, hkeys, hauth]
      | ok signer =>
        have hnew : new parse marshal (.ok signer) cfg = .ok server ↔
            signer = server.hostSigner ∧
              publicKeyHandler parse marshal (some texts) = .ok server.publicKeyHandler := by
          cases hhandler : publicKeyHandler parse marshal (some texts) with
          | error err => simp [new, hkeys, hauth, hhandler]
          | ok handler => simp [new, hkeys, hauth, hhandler, Server.ext_iff]
        rw [hnew, publicKeyHandler_eq_ok hmarshal]
        simp

/-- The oracle reads a key from a line, without options. -/
def Reads (parse : Bytes → Except Err (AuthorizedKey Key)) (line : Bytes) (key : Key) : Prop :=
  ∃ entry, parse line = .ok entry ∧ entry.options = [] ∧ entry.key = key

/-- The oracle rejects a line, or reads options in it. -/
def Refused (parse : Bytes → Except Err (AuthorizedKey Key)) (line : Bytes) : Prop :=
  ∀ entry, parse line = .ok entry → entry.options ≠ []

theorem Gives.reads {line : Bytes} {key : Key} (h : Gives parse line key) :
    Reads parse line key := by
  obtain ⟨entry, hparse, -, hoptions, hkey⟩ := h
  exact ⟨entry, hparse, hoptions, hkey⟩

theorem Gives.not_refused {line : Bytes} {key : Key} (h : Gives parse line key) :
    ¬Refused parse line := by
  obtain ⟨entry, hparse, -, hoptions, -⟩ := h
  intro hrefused
  exact hrefused entry hparse hoptions

/-- Where a line gives a key, it is the one that is read. -/
theorem Gives.of_reads {line : Bytes} {key key' : Key} (h : Gives parse line key)
    (hreads : Reads parse line key') : Gives parse line key' := by
  obtain ⟨entry, hparse, hrest, hoptions, -⟩ := h
  obtain ⟨entry', hparse', -, rfl⟩ := hreads
  cases hparse.symm.trans hparse'
  exact ⟨entry, hparse, hrest, hoptions, rfl⟩

theorem Admits.accepts_iff_reads {lines : List Bytes} {accept : Key → Bool}
    (h : Admits parse lines accept) (key : Key) :
    accept key = true ↔ ∃ line ∈ lines, Reads parse line key := by
  rw [h.accepts]
  constructor
  · rintro ⟨line, hline, hgives⟩
    exact ⟨line, hline, hgives.reads⟩
  · rintro ⟨line, hline, hreads⟩
    obtain ⟨key', hgives⟩ := h.gives line hline
    exact ⟨line, hline, hgives.of_reads hreads⟩

theorem Admits.exists_accepted {lines : List Bytes} {accept : Key → Bool}
    (h : Admits parse lines accept) : ∃ key, accept key = true := by
  obtain ⟨line, hline⟩ := List.exists_mem_of_ne_nil lines h.nonempty
  obtain ⟨key, hgives⟩ := h.gives line hline
  exact ⟨key, (h.accepts key).mpr ⟨line, hline, hgives⟩⟩

theorem entries_perm {lines lines' : List Bytes} (h : lines.Perm lines') :
    (entries lines).Perm (entries lines') :=
  (h.map cleanLine).filter _

/-- The key texts of a configuration. -/
def Config.texts (cfg : Config) : List Bytes := cfg.authorizedKeys.getD []

/-- The server lets in exactly the listed keys, refuses a list with a line that it cannot use,
does not look at the order of the lines, and lets everybody in only without a list. -/
theorem new_authorizes_listed (parse : Bytes → Except Err (AuthorizedKey Key))
    (marshal : Key → Bytes) (hmarshal : Function.Injective marshal)
    (hostKey : Except Err Signer) (cfg : Config) :
    (∀ server, new parse marshal hostKey cfg = .ok server → cfg.noClientAuth = false →
      ∃ accept, server.publicKeyHandler = some accept ∧
        (∀ key, accept key = true ↔ ∃ line ∈ textEntries cfg.texts, Reads parse line key) ∧
        ∃ key, accept key = true) ∧
    ((∃ line ∈ textEntries cfg.texts, Refused parse line) →
      ∃ err, new parse marshal hostKey cfg = .error err) ∧
    (∀ texts texts', cfg.authorizedKeys = some texts →
      (texts.flatMap textLines).Perm (texts'.flatMap textLines) →
      ∀ server, new parse marshal hostKey cfg = .ok server ↔
        new parse marshal hostKey { cfg with authorizedKeys := some texts' } = .ok server) ∧
    ((∃ server, new parse marshal hostKey cfg = .ok server ∧ server.publicKeyHandler = none) ↔
      cfg.noClientAuth = true ∧ cfg.authorizedKeys = none ∧ ∃ signer, hostKey = .ok signer) := by
  refine ⟨?_, ?_, ?_, ?_⟩
  · intro server hserver hauth
    rw [new_eq_ok hmarshal, hauth] at hserver
    obtain ⟨-, ⟨hfalse, -⟩ | ⟨-, texts, accept, hkeys, haccept, hadmits⟩⟩ := hserver
    · cases hfalse
    · rw [Config.texts, hkeys]
      exact ⟨accept, haccept, hadmits.accepts_iff_reads, hadmits.exists_accepted⟩
  · rintro ⟨line, hline, hrefused⟩
    cases hnew : new parse marshal hostKey cfg with
    | error err => exact ⟨err, rfl⟩
    | ok server =>
      rw [new_eq_ok hmarshal] at hnew
      obtain ⟨-, ⟨-, hkeys, -⟩ | ⟨-, texts, accept, hkeys, -, hadmits⟩⟩ := hnew
      · rw [Config.texts, hkeys] at hline
        cases hline
      · rw [Config.texts, hkeys] at hline
        obtain ⟨key, hgives⟩ := hadmits.gives line hline
        exact absurd hrefused hgives.not_refused
  · intro texts texts' hkeys hperm server
    have hentries : (textEntries texts).Perm (textEntries texts') := entries_perm hperm
    have hadmits (accept : Key → Bool) :
        Admits parse (textEntries texts) accept ↔ Admits parse (textEntries texts') accept :=
      ⟨fun h ↦ h.congr hentries, fun h ↦ h.congr hentries.symm⟩
    simp [new_eq_ok hmarshal, hkeys, hadmits]
  · simp only [new_eq_ok hmarshal]
    constructor
    · rintro ⟨server, ⟨hhost, ⟨hauth, hkeys, -⟩ | ⟨-, texts, accept, -, haccept, -⟩⟩, hnone⟩
      · exact ⟨hauth, hkeys, server.hostSigner, hhost⟩
      · cases hnone.symm.trans haccept
    · rintro ⟨hauth, hkeys, signer, hhost⟩
      exact ⟨⟨signer, none⟩, ⟨hhost, Or.inl ⟨hauth, hkeys, rfl⟩⟩, rfl⟩

end Lines

/-- The wire form of an Ed25519 public key. -/
def sampleKey : Bytes :=
  [0, 0, 0, 11] ++ literal "ssh-ed25519" ++ [0, 0, 0, 32] ++ List.replicate 32 0

/-- The key as a line of an authorized keys file. -/
def sampleLine : Bytes :=
  literal "ssh-ed25519 AAAAC3NzaC1lZDI1NTE5AAAAI" ++ List.replicate 43 0x41

/-- `gossh.ParseAuthorizedKey` on lines with the sample key, which is its own wire form. -/
def sampleParse (line : Bytes) : Except Err (AuthorizedKey Bytes) :=
  if line = sampleLine then .ok ⟨sampleKey, [], []⟩ else .error (.new "ssh: no key found")

def sampleConfig : Config where
  hostKeyPath := literal "host_key"
  authorizedKeys := some [literal "# laptop\r\n\r\n" ++ sampleLine ++ literal "\n"]
  noClientAuth := false

theorem textEntries_sample : textEntries sampleConfig.texts = [sampleLine] := by
  unfold sampleConfig sampleLine
  repeat rw [literal_ofList]
  decide +kernel

theorem exists_new_sample :
    ∃ server : Server Bytes Unit, new sampleParse id (.ok ()) sampleConfig = .ok server := by
  have hok : (new sampleParse id (.ok () : Except Err Unit) sampleConfig).isOk = true := by
    unfold sampleParse sampleConfig sampleLine
    repeat rw [literal_ofList]
    decide +kernel
  cases hnew : new sampleParse id (.ok () : Except Err Unit) sampleConfig with
  | error err =>
    rw [hnew] at hok
    cases hok
  | ok server => exact ⟨server, rfl⟩

theorem reads_sample {key : Bytes} : Reads sampleParse sampleLine key ↔ key = sampleKey := by
  simp [Reads, sampleParse, eq_comm]

/-- The lines of the sample in another order and in two texts. -/
def sampleTexts : List Bytes := [sampleLine, literal "\r\n\n# laptop\r"]

theorem perm_sampleTexts :
    (sampleConfig.texts.flatMap textLines).Perm (sampleTexts.flatMap textLines) := by
  unfold sampleConfig sampleTexts sampleLine
  repeat rw [literal_ofList]
  decide +kernel

theorem new_authorizes_sample :
    ∃ (server anybody : Server Bytes Unit) (accept : Bytes → Bool) (err : Err),
      new sampleParse id (.ok ()) sampleConfig = .ok server ∧
      server.publicKeyHandler = some accept ∧
      (∀ key, accept key = true ↔ key = sampleKey) ∧
      new sampleParse id (.ok () : Except Err Unit)
        { sampleConfig with authorizedKeys := some [literal "laptop"] } = .error err ∧
      new sampleParse id (.ok ())
        { sampleConfig with authorizedKeys := some sampleTexts } = .ok server ∧
      new sampleParse id (.ok ()) ⟨literal "host_key", none, true⟩ = .ok anybody ∧
      anybody.publicKeyHandler = none := by
  have hlisted :=
    new_authorizes_listed sampleParse id Function.injective_id (.ok () : Except Err Unit)
  obtain ⟨server, hnew⟩ := exists_new_sample
  obtain ⟨accept, haccept, hreads, -⟩ := (hlisted sampleConfig).1 server hnew rfl
  have hrefused : Refused sampleParse (literal "laptop") := by
    intro entry hentry
    have hline : literal "laptop" ≠ sampleLine := by decide +kernel
    rw [sampleParse, if_neg hline] at hentry
    cases hentry
  obtain ⟨err, herr⟩ := (hlisted { sampleConfig with
    authorizedKeys := some [literal "laptop"] }).2.1 ⟨_, by decide +kernel, hrefused⟩
  obtain ⟨anybody, hanybody, hnone⟩ :=
    (hlisted ⟨literal "host_key", none, true⟩).2.2.2.mpr ⟨rfl, rfl, (), rfl⟩
  refine ⟨server, anybody, accept, err, hnew, haccept, fun key ↦ ?_, herr,
    ((hlisted sampleConfig).2.2.1 _ sampleTexts rfl perm_sampleTexts server).mp hnew,
    hanybody, hnone⟩
  rw [hreads, textEntries_sample]
  simp [reads_sample]

/-- A list without texts counts as given: with it even a server that asks for no authentication
is refused. -/
theorem new_refuses_empty_list :
    let cfg : Config := ⟨literal "host_key", some [], true⟩
    ¬((∃ server : Server Bytes Unit, new sampleParse id (.ok ()) cfg = .ok server ∧
        server.publicKeyHandler = none) ↔
      cfg.noClientAuth = true ∧ cfg.texts = []) := by
  intro cfg h
  obtain ⟨server, hnew, -⟩ := h.mpr ⟨rfl, rfl⟩
  cases hnew

end RelayCat.SSHServer
