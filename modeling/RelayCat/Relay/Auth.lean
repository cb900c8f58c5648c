import RelayCat.Go.Utf8

/-!
# The relay's bearer token

The relay command reads a token, and both kinds of RPC pass through an interceptor that
compares it with the caller's. The interceptors differ only in what they return on a
rejection. A handler is any computation on the state of the server, so that "the handler is
not run" is said by the state it leaves.
-/

namespace RelayCat

open Go Utf8

namespace Endpoint

/-- `metadata.MD`: the values of each key. -/
abbrev Metadata := String → List Bytes

def bearer : Bytes := literal "Bearer "

/-- `AuthContext`, on the outgoing metadata of the context. -/
def authContext (md : Metadata) (token : Bytes) : Metadata :=
  if token = [] then md
  else Function.update md "authorization" (md "authorization" ++ [bearer ++ token])

/-- `ReadToken`. -/
def readToken (readFile : Bytes → Except Err Bytes) (getenv : String → Bytes) (path : Bytes)
    (envName : String) : Except Err Bytes :=
  if path = [] then .ok (trimSpace (getenv envName))
  else
    match readFile path with
    | .error err => .error (.errorf "reading token file" err)
    | .ok b => .ok (trimSpace b)

end Endpoint

namespace Relay

open Endpoint

/-- The state of the server: the counter of rejected requests, and all the rest. -/
structure World (σ : Type) where
  authRejects : ℕ
  rest : σ

variable {σ β δ : Type} [DecidableEq δ] (sum256 : Bytes → δ)

/-- `observability.AuthRejects.Inc()`, then the rejection. -/
def refuse (rejection : Err → β) (message : String) : StateM (World σ) β := fun w ↦
  (rejection (.status .unauthenticated message), { w with authRejects := w.authRejects + 1 })

/-- The common body of the two interceptors. -/
def authInterceptor (rejection : Err → β) (expected : Bytes) (noAuth : Bool)
    (md : Option Metadata) (handler : StateM (World σ) β) : StateM (World σ) β :=
  if noAuth || expected = [] then handler
  else
    match md with
    | none => refuse rejection "missing authorization"
    | some md =>
      match md "authorization" with
      | [value] =>
        if bearer <+: value then
          if sum256 (value.drop bearer.length) = sum256 expected then handler
          else refuse rejection "invalid authorization"
        else refuse rejection "invalid authorization"
      | _ => refuse rejection "invalid authorization"

/-- `StreamAuthInterceptor`. -/
def streamAuthInterceptor (expected : Bytes) (noAuth : Bool) (md : Option Metadata)
    (handler : StateM (World σ) (Option Err)) : StateM (World σ) (Option Err) :=
  authInterceptor sum256 some expected noAuth md handler

/-- `UnaryAuthInterceptor`. -/
def unaryAuthInterceptor {ρ : Type} (expected : Bytes) (noAuth : Bool) (md : Option Metadata)
    (handler : StateM (World σ) (Option ρ × Option Err)) :
    StateM (World σ) (Option ρ × Option Err) :=
  authInterceptor sum256 (fun err ↦ (none, some err)) expected noAuth md handler

/-- The fields of `ServerConfig` that `RunServer` hands to both interceptors. -/
structure ServerConfig where
  token : Bytes
  noAuth : Bool
  deriving DecidableEq, Repr

/-- The relay command from its `--auth-token-file` and `--no-auth` values to `RunServer`. -/
def relayCommand (readFile : Bytes → Except Err Bytes) (getenv : String → Bytes)
    (tokenFile : Bytes) (noAuth : Bool) : Except Err ServerConfig :=
  match readToken readFile getenv tokenFile "RELAYCAT_AUTH_TOKEN" with
  | .error err => .error err
  | .ok token => .ok { token := token, noAuth := noAuth }

/-- There is exactly one authorization value, and it is the token's. -/
def Authorized (token : Bytes) (md : Option Metadata) : Prop :=
  ∃ values, md = some values ∧ values "authorization" = [bearer ++ token]

/-- Both interceptors of a server are the handler on this metadata. -/
def RunsHandler (cfg : ServerConfig) (md : Option Metadata) : Prop :=
  ∀ (σ ρ : Type),
    (∀ handler : StateM (World σ) (Option Err),
      streamAuthInterceptor sum256 cfg.token cfg.noAuth md handler = handler) ∧
    ∀ handler : StateM (World σ) (Option ρ × Option Err),
      unaryAuthInterceptor sum256 cfg.token cfg.noAuth md handler = handler

/-- Both interceptors of a server answer `Unauthenticated` on this metadata, with the same
message, and change nothing but the counter of rejections. -/
def Refuses (cfg : ServerConfig) (md : Option Metadata) : Prop :=
  ∃ message, ∀ (σ ρ : Type) (w : World σ),
    (∀ handler : StateM (World σ) (Option Err),
      streamAuthInterceptor sum256 cfg.token cfg.noAuth md handler w =
        (some (.status .unauthenticated message), { w with authRejects := w.authRejects + 1 })) ∧
    ∀ handler : StateM (World σ) (Option ρ × Option Err),
      unaryAuthInterceptor sum256 cfg.token cfg.noAuth md handler w =
        ((none, some (.status .unauthenticated message)),
          { w with authRejects := w.authRejects + 1 })

/-- A server for the content of a token file accepts that token and nothing else, and so
every request of an endpoint that read the same content. -/
structure FailsClosed (cfg : ServerConfig) (content : Bytes) : Prop where
  runs : ∀ md, Authorized (trimSpace content) md → RunsHandler sum256 cfg md
  refuses : ∀ md, ¬ Authorized (trimSpace content) md → Refuses sum256 cfg md
  endpoint : ∀ (readFile : Bytes → Except Err Bytes) (getenv : String → Bytes) (path : Bytes)
    (envName : String) (base : Metadata), path ≠ [] → readFile path = .ok content →
    base "authorization" = [] → ∃ token, readToken readFile getenv path envName = .ok token ∧
      RunsHandler sum256 cfg (some (authContext base token))

theorem readToken_file {readFile : Bytes → Except Err Bytes} {getenv : String → Bytes}
    {path content : Bytes} {envName : String} (hpath : path ≠ [])
    (hread : readFile path = .ok content) :
    readToken readFile getenv path envName = .ok (trimSpace content) := by
  simp [readToken, hpath, hread]

variable {sum256}

theorem authInterceptor_open {rejection : Err → β} {noAuth : Bool} {md : Option Metadata}
    (handler : StateM (World σ) β) :
    authInterceptor sum256 rejection [] noAuth md handler = handler := by
  simp [authInterceptor]

theorem authInterceptor_authorized {rejection : Err → β} {expected : Bytes} {noAuth : Bool}
    {md : Option Metadata} (h : Authorized expected md) (handler : StateM (World σ) β) :
    authInterceptor sum256 rejection expected noAuth md handler = handler := by
  obtain ⟨values, rfl, hvalues⟩ := h
  simp [authInterceptor, hvalues]

/-- The message of a rejection depends on the presence of metadata alone. -/
def refusal (md : Option Metadata) : String :=
  if md.isNone then "missing authorization" else "invalid authorization"

theorem authInterceptor_refused (hsum : Function.Injective sum256) {rejection : Err → β}
    {expected : Bytes} (hexpected : expected ≠ []) {md : Option Metadata}
    (h : ¬ Authorized expected md) (handler : StateM (World σ) β) :
    authInterceptor sum256 rejection expected false md handler = refuse rejection (refusal md) := by
  cases md with
  | none => simp [authInterceptor, hexpected, refusal]
  | some values =>
    simp only [authInterceptor, hexpected, Bool.false_or, decide_false, Bool.false_eq_true,
      if_false, refusal, Option.isNone_some]
    split
    · rename_i value hvalue
      split_ifs with hbearer hhash
      · obtain ⟨token, rfl⟩ := hbearer
        rw [List.drop_left] at hhash
        rw [hsum hhash] at hvalue
        exact absurd ⟨values, rfl, hvalue⟩ h
      · rfl
      · rfl
    · rfl

theorem not_authorized_none {token : Bytes} : ¬ Authorized token none := by
  rintro ⟨values, hvalues, -⟩
  cases hvalues

/-- What an endpoint sends for a token is authorized for that token. -/
theorem authorized_authContext {base : Metadata} (hbase : base "authorization" = [])
    {token : Bytes} (htoken : token ≠ []) : Authorized token (some (authContext base token)) := by
  refine ⟨_, rfl, ?_⟩
  simp [authContext, htoken, hbase]

theorem runsHandler_of_authorized {token : Bytes} {noAuth : Bool} {md : Option Metadata}
    (h : Authorized token md) : RunsHandler sum256 ⟨token, noAuth⟩ md := by
  intro σ ρ
  exact ⟨authInterceptor_authorized h, authInterceptor_authorized h⟩

theorem runsHandler_open {noAuth : Bool} {md : Option Metadata} :
    RunsHandler sum256 ⟨[], noAuth⟩ md := by
  intro σ ρ
  exact ⟨authInterceptor_open, authInterceptor_open⟩

theorem not_refuses_open {noAuth : Bool} {md : Option Metadata} :
    ¬ Refuses sum256 ⟨[], noAuth⟩ md := by
  rintro ⟨message, h⟩
  have hstream := (h Unit Unit ⟨0, ()⟩).1 (pure none)
  rw [(runsHandler_open Unit Unit).1] at hstream
  cases hstream

/-- A server that was given a token file authenticates exactly when the file holds more than
white space: with an empty token both interceptors run every handler. -/
theorem relayCommand_failsClosed_iff (hsum : Function.Injective sum256)
    (readFile : Bytes → Except Err Bytes) (getenv : String → Bytes) (path content : Bytes)
    (hpath : path ≠ []) (hread : readFile path = .ok content) :
    ∃ cfg, relayCommand readFile getenv path false = .ok cfg ∧
      (FailsClosed sum256 cfg content ↔ trimSpace content ≠ []) := by
  refine ⟨⟨trimSpace content, false⟩, by simp [relayCommand, readToken_file hpath hread], ?_⟩
  constructor
  · intro h hempty
    have hrefuses := h.refuses none not_authorized_none
    rw [hempty] at hrefuses
    exact not_refuses_open hrefuses
  · intro htoken
    constructor
    · intro md hmd
      exact runsHandler_of_authorized hmd
    · intro md hmd
      refine ⟨refusal md, fun σ ρ w ↦ ⟨fun handler ↦ ?_, fun handler ↦ ?_⟩⟩
      · exact congrFun (authInterceptor_refused hsum htoken hmd handler) w
      · exact congrFun (authInterceptor_refused hsum htoken hmd handler) w
    · intro readFile' getenv' path' envName base hpath' hread' hbase
      refine ⟨trimSpace content, readToken_file hpath' hread', ?_⟩
      exact runsHandler_of_authorized (authorized_authContext hbase htoken)

theorem relayCommand_failsClosed_secret :
    ∃ cfg, relayCommand (fun _ ↦ .ok (literal " s3cret\n")) (fun _ ↦ []) (literal "relay.token")
        false = .ok cfg ∧ cfg.token = literal "s3cret" ∧
      FailsClosed (id : Bytes → Bytes) cfg (literal " s3cret\n") := by
  have hsum : Function.Injective (id : Bytes → Bytes) := Function.injective_id
  obtain ⟨cfg, hcfg, hiff⟩ := relayCommand_failsClosed_iff hsum
    (fun _ ↦ .ok (literal " s3cret\n")) (fun _ ↦ []) (literal "relay.token")
    (literal " s3cret\n") (by decide +kernel) rfl
  refine ⟨cfg, hcfg, ?_, hiff.mpr (by decide +kernel)⟩
  have htoken : relayCommand (fun _ ↦ .ok (literal " s3cret\n")) (fun _ ↦ [])
      (literal "relay.token") false = .ok ⟨literal "s3cret", false⟩ := by decide +kernel
  rw [htoken] at hcfg
  cases hcfg
  rfl

/-- A token file that holds only a line break: a request with no metadata reaches the
handler. -/
theorem relayCommand_blank_token_open :
    ∃ cfg, relayCommand (fun _ ↦ .ok (literal "\n")) (fun _ ↦ []) (literal "relay.token")
        false = .ok cfg ∧
      RunsHandler (id : Bytes → Bytes) cfg none ∧ ¬ FailsClosed id cfg (literal "\n") := by
  refine ⟨⟨[], false⟩, by decide +kernel, runsHandler_open, fun h ↦ ?_⟩
  exact not_refuses_open (h.refuses none not_authorized_none)

end Relay

end RelayCat
