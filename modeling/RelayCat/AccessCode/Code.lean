import RelayCat.Go.Base64
import RelayCat.Protobuf.Reader
import RelayCat.Wire.Messages

/-!
# Connection codes

A connection code carries the relay URL, the route id and the preshared key as a protobuf
message in base64 behind a fixed prefix. `Decode` reads far more texts than `Encode` writes,
but whatever it reads has one canonical text, and that text reads back as the same code.

`url.Parse` is a parameter: nothing here depends on which URLs it accepts.
-/

namespace RelayCat.AccessCode

open Go Utf8 Protobuf Wire

/-- `Prefix`. -/
def codePrefix : Bytes := literal "rc1_"

/-- `PSKSize`. -/
def pskSize : ℕ := 32

structure Code where
  relayURL : Bytes
  routeID : Bytes
  psk : Bytes
  deriving DecidableEq, Repr

def Code.validate (c : Code) : Except Err Unit :=
  if c.routeID.length ≠ routeIDSize then .error (.new "route ID must be 16 bytes")
  else if c.psk.length ≠ pskSize then .error (.new "preshared key must be 32 bytes")
  else .ok ()

structure ConnectionCode where
  protocolVersion : ℕ
  relayUrl : Bytes
  routeId : Bytes
  presharedKey : Bytes
  deriving DecidableEq, Repr

namespace ConnectionCode

def empty : ConnectionCode := ⟨0, [], [], []⟩

def schema : Schema ConnectionCode where
  kind
    | 1 => some .uint32
    | 2 => some .string
    | 3 => some .bytes
    | 4 => some .bytes
    | _ => none
  setUint _ v m := { m with protocolVersion := v }
  setBytes
    | 2, v, m => { m with relayUrl := v }
    | 3, v, m => { m with routeId := v }
    | 4, v, m => { m with presharedKey := v }
    | _, _, m => m

/-- `proto.Marshal`, which refuses a string that is not UTF-8. -/
def marshal (m : ConnectionCode) : Except Err Bytes :=
  if Valid m.relayUrl then
    .ok (uintField 1 m.protocolVersion ++ bytesField 2 m.relayUrl ++ bytesField 3 m.routeId ++
      bytesField 4 m.presharedKey)
  else .error (.new "string field contains invalid UTF-8")

/-- `proto.Unmarshal`. -/
def unmarshal (bs : Bytes) : Option ConnectionCode := Protobuf.unmarshal schema bs empty

end ConnectionCode

/-- `Encode`. -/
def encode (c : Code) : Except Err Bytes :=
  match c.validate with
  | .error err => .error err
  | .ok () =>
    match ConnectionCode.marshal ⟨protocolVersion, c.relayURL, c.routeID, c.psk⟩ with
    | .error err => .error (.errorf "encoding connection code" err)
    | .ok b => .ok (codePrefix ++ Base64.encode b)

/-- The parts of a `url.URL` that are looked at. -/
structure URL where
  scheme : Bytes
  host : Bytes
  path : Bytes
  rawQuery : Bytes
  fragment : Bytes
  deriving DecidableEq, Repr

variable (parse : Bytes → Option URL)

/-- `ValidateRelayURL`. -/
def validateRelayURL (raw : Bytes) (allowInsecure : Bool) : Except Err Unit :=
  match parse raw with
  | none => .error (.new "relay URL must contain only scheme and host")
  | some u =>
    if u.host = [] ∨ (u.path ≠ [] ∧ u.path ≠ literal "/") ∨ u.rawQuery ≠ [] ∨ u.fragment ≠ [] then
      .error (.new "relay URL must contain only scheme and host")
    else if u.scheme = literal "https" then .ok ()
    else if u.scheme = literal "http" ∧ allowInsecure then .ok ()
    else
      .error (.new ("relay URL must use https; use --allow-insecure-relay for trusted " ++
        "development networks"))

/-- `Decode`. -/
def decode (s : Bytes) (allowInsecure : Bool) : Except Err Code :=
  if codePrefix <+: s then
    match Base64.decode (s.drop codePrefix.length) with
    | none => .error (.new "invalid connection code encoding")
    | some b =>
      match ConnectionCode.unmarshal b with
      | none => .error (.new "invalid connection code payload")
      | some msg =>
        if msg.protocolVersion ≠ protocolVersion then
          .error (.new ("unsupported connection code version " ++ toString msg.protocolVersion))
        else
          let c : Code := ⟨msg.relayUrl, msg.routeId, msg.presharedKey⟩
          match c.validate with
          | .error err => .error err
          | .ok () =>
            match validateRelayURL parse c.relayURL allowInsecure with
            | .error err => .error err
            | .ok () => .ok c
  else .error (.new "invalid connection code prefix")

section Message

open ConnectionCode

theorem unmarshal_marshal {m : ConnectionCode} {b : Bytes} (hversion : m.protocolVersion < 2 ^ 32)
    (hurl : m.relayUrl.length < 2 ^ 64) (hroute : m.routeId.length < 2 ^ 64)
    (hkey : m.presharedKey.length < 2 ^ 64) (h : m.marshal = .ok b) :
    ConnectionCode.unmarshal b = some m := by
  unfold marshal at h
  split_ifs at h with hvalid
  cases h
  rw [← List.append_nil (_ ++ bytesField 4 _), List.append_assoc, List.append_assoc,
    List.append_assoc, ConnectionCode.unmarshal,
    unmarshal_uintField _ 1 _ rfl (by decide) (by decide) hversion,
    unmarshal_bytesField _ 2 _ .string rfl (by decide) (by decide) (by decide) hurl
      (fun _ ↦ hvalid),
    unmarshal_bytesField _ 3 _ .bytes rfl (by decide) (by decide) (by decide) hroute nofun,
    unmarshal_bytesField _ 4 _ .bytes rfl (by decide) (by decide) (by decide) hkey nofun,
    unmarshal_nil]
  obtain ⟨version, url, route, key⟩ := m
  simp only [schema, empty]
  split_ifs <;> simp_all

/-- Whatever was read, the URL is UTF-8 and its length was read from a varint. -/
theorem unmarshal_url {b : Bytes} {m : ConnectionCode} (h : ConnectionCode.unmarshal b = some m) :
    Valid m.relayUrl ∧ m.relayUrl.length < 2 ^ 64 := by
  refine unmarshal_invariant (I := fun m ↦ Valid m.relayUrl ∧ m.relayUrl.length < 2 ^ 64)
    ?_ ?_ ?_ h
  · intro number v m hm
    exact hm
  · intro number v m hlength hvalid hm
    simp only [schema]
    split
    · exact ⟨hvalid rfl, hlength⟩
    · exact hm
    · exact hm
    · exact hm
  · exact ⟨valid_encode [], by decide⟩

end Message

section Codec

variable {c : Code} {s : Bytes}

theorem validate_eq_ok :
    c.validate = .ok () ↔ c.routeID.length = routeIDSize ∧ c.psk.length = pskSize := by
  unfold Code.validate
  split_ifs with hroute hpsk
  · simp [hroute]
  · simp [hpsk]
  · simp only [ne_eq, not_not] at hroute hpsk
    simp [hroute, hpsk]

/-- The message that `Encode` writes. -/
def message (c : Code) : ConnectionCode := ⟨protocolVersion, c.relayURL, c.routeID, c.psk⟩

/-- `Encode` succeeds exactly on valid codes whose URL is UTF-8. -/
theorem encode_eq_ok : encode c = .ok s ↔
    c.validate = .ok () ∧ ∃ b, (message c).marshal = .ok b ∧ s = codePrefix ++ Base64.encode b := by
  unfold encode
  split
  · rename_i err hvalidate
    simp [hvalidate]
  · rename_i hvalidate
    change (match (message c).marshal with
      | .error err => _
      | .ok b => _) = _ ↔ _
    split
    · rename_i err hmarshal
      simp [hmarshal]
    · rename_i b hmarshal
      simp only [hvalidate, hmarshal, Except.ok.injEq, true_and, exists_eq_left', eq_comm]

/-- A line with a code is the code. -/
theorem trimSpace_encoded (h : encode c = .ok s) : trimSpace (s ++ literal "\n") = s := by
  have hbegins : ∀ byte ∈ codePrefix,
      byte.toNat < 128 ∧ isSpace (Char.ofUInt8 byte) = false := by
    rw [codePrefix, literal_ofList]
    exact List.all_iff_forall_prop.mp (by decide)
  obtain ⟨-, b, -, rfl⟩ := encode_eq_ok.mp h
  apply trimSpace_line
  intro byte hbyte
  exact (List.mem_append.mp hbyte).elim (hbegins byte) Base64.visible_of_mem_encode

theorem unmarshal_message {b : Bytes} (hurl : c.relayURL.length < 2 ^ 64)
    (hvalidate : c.validate = .ok ()) (h : (message c).marshal = .ok b) :
    ConnectionCode.unmarshal b = some (message c) := by
  obtain ⟨hroute, hpsk⟩ := validate_eq_ok.mp hvalidate
  have hversion : protocolVersion < 2 ^ 32 := by decide
  refine unmarshal_marshal hversion hurl ?_ ?_ h
  · change c.routeID.length < 2 ^ 64
    rw [hroute]
    decide
  · change c.psk.length < 2 ^ 64
    rw [hpsk]
    decide

/-- Decoding what was encoded is the check of the URL. -/
theorem decode_encoded (allowInsecure : Bool) (hurl : c.relayURL.length < 2 ^ 64)
    (h : encode c = .ok s) :
    decode parse s allowInsecure =
      (validateRelayURL parse c.relayURL allowInsecure).map fun _ ↦ c := by
  obtain ⟨hvalidate, b, hmarshal, rfl⟩ := encode_eq_ok.mp h
  have hmessage := unmarshal_message hurl hvalidate hmarshal
  rw [decode, if_pos (List.prefix_append _ _), List.drop_left, Base64.decode_encode]
  simp only [hmessage, message, ne_eq, not_true_eq_false, if_false, hvalidate]
  cases validateRelayURL parse c.relayURL allowInsecure <;> rfl

/-- The message in the text of a code. -/
def payload (s : Bytes) : Option ConnectionCode :=
  (Base64.decode (s.drop codePrefix.length)).bind ConnectionCode.unmarshal

/-- A code that `Decode` returns stands in the text and has passed the checks. -/
theorem exists_payload_of_decode {parse : Bytes → Option URL} {allowInsecure : Bool}
    (h : decode parse s allowInsecure = .ok c) :
    ∃ msg, payload s = some msg ∧ msg.relayUrl = c.relayURL ∧ c.validate = .ok () ∧
      validateRelayURL parse c.relayURL allowInsecure = .ok () := by
  unfold decode at h
  split_ifs at h
  split at h
  · cases h
  · rename_i b hb
    split at h
    · cases h
    · rename_i msg hmsg
      split_ifs at h
      dsimp only at h
      split at h
      · cases h
      · rename_i hvalidate
        split at h
        · cases h
        · rename_i hrelay
          cases h
          exact ⟨msg, Option.bind_eq_some_iff.mpr ⟨b, hb, hmsg⟩, rfl, hvalidate, hrelay⟩

/-- What `Decode` returns can be encoded. -/
theorem exists_encode_of_decode {parse : Bytes → Option URL} {allowInsecure : Bool}
    (h : decode parse s allowInsecure = .ok c) :
    c.relayURL.length < 2 ^ 64 ∧ validateRelayURL parse c.relayURL allowInsecure = .ok () ∧
      ∃ t, encode c = .ok t := by
  obtain ⟨msg, hpayload, hurl, hvalidate, hrelay⟩ := exists_payload_of_decode h
  obtain ⟨b, -, hmsg⟩ := Option.bind_eq_some_iff.mp hpayload
  obtain ⟨hvalid, hlength⟩ := unmarshal_url hmsg
  rw [hurl] at hvalid hlength
  exact ⟨hlength, hrelay, _, encode_eq_ok.mpr ⟨hvalidate, _, if_pos hvalid, rfl⟩⟩

/-- Every encoded code decodes to itself, up to the check of its URL; different codes have
different texts; and decoding is a normalisation: its result encodes, and decodes to itself. -/
theorem connectionCode_round_trip (parse : Bytes → Option URL) :
    (∀ c s allowInsecure, c.relayURL.length < lengthLimit → encode c = .ok s →
      (validateRelayURL parse c.relayURL allowInsecure = .ok () →
        decode parse s allowInsecure = .ok c) ∧
      ∀ err, validateRelayURL parse c.relayURL allowInsecure = .error err →
        decode parse s allowInsecure = .error err) ∧
    (∀ c d s, c.relayURL.length < lengthLimit → d.relayURL.length < lengthLimit →
      encode c = .ok s → encode d = .ok s → c = d) ∧
    ∀ s allowInsecure c, decode parse s allowInsecure = .ok c →
      ∃ t, encode c = .ok t ∧ decode parse t allowInsecure = .ok c := by
  have hlimit : lengthLimit ≤ 2 ^ 64 := by decide
  refine ⟨?_, ?_, ?_⟩
  · intro c s allowInsecure hurl hencode
    have hdecode := decode_encoded parse allowInsecure (hurl.trans_le hlimit) hencode
    constructor
    · intro hrelay
      rw [hdecode, hrelay]
      rfl
    · intro err hrelay
      rw [hdecode, hrelay]
      rfl
  · intro c d s hc hd hencode hencode'
    obtain ⟨hvalidate, b, hmarshal, rfl⟩ := encode_eq_ok.mp hencode
    obtain ⟨hvalidate', b', hmarshal', htext⟩ := encode_eq_ok.mp hencode'
    have hbytes : b = b' := Base64.encode_injective (List.append_cancel_left htext)
    subst hbytes
    have hmessage := unmarshal_message (hc.trans_le hlimit) hvalidate hmarshal
    rw [unmarshal_message (hd.trans_le hlimit) hvalidate' hmarshal'] at hmessage
    obtain ⟨url, route, psk⟩ := c
    obtain ⟨url', route', psk'⟩ := d
    simp only [message, Option.some.injEq, ConnectionCode.mk.injEq, true_and] at hmessage
    obtain ⟨rfl, rfl, rfl⟩ := hmessage
    rfl
  · intro s allowInsecure c hdecode
    obtain ⟨hurl, hrelay, t, hencode⟩ := exists_encode_of_decode hdecode
    refine ⟨t, hencode, ?_⟩
    rw [decode_encoded parse allowInsecure hurl hencode, hrelay]
    rfl

/-- A code as `New` makes it, with fixed bytes for the random ones. -/
def sampleCode : Code :=
  ⟨literal "https://relay.example", List.replicate 16 7, List.replicate 32 9⟩

theorem exists_encode_sampleCode : ∃ s, encode sampleCode = .ok s :=
  ⟨_, encode_eq_ok.mpr ⟨by decide +kernel, _, if_pos (by decide +kernel), rfl⟩⟩

/-- `url.Parse` on one URL. -/
def sampleParse (raw : Bytes) : Option URL :=
  if raw = literal "https://relay.example" then
    some ⟨literal "https", literal "relay.example", [], [], []⟩
  else none

theorem connectionCode_round_trip_relay :
    ∃ s t err, encode sampleCode = .ok s ∧ decode sampleParse s false = .ok sampleCode ∧
      decode (fun _ ↦ none) s false = .error err ∧
      (∀ d, d.relayURL.length < lengthLimit → encode d = .ok s → sampleCode = d) ∧
      encode sampleCode = .ok t ∧ decode sampleParse t false = .ok sampleCode := by
  obtain ⟨s, hs⟩ := exists_encode_sampleCode
  have hlength : sampleCode.relayURL.length < lengthLimit := by decide +kernel
  have hrelay : validateRelayURL sampleParse sampleCode.relayURL false = .ok () := by
    decide +kernel
  have hdecode := ((connectionCode_round_trip sampleParse).1 _ s false hlength hs).1 hrelay
  have hrefused := ((connectionCode_round_trip fun _ ↦ none).1 _ s false hlength hs).2 _ rfl
  obtain ⟨t, ht, hagain⟩ := (connectionCode_round_trip sampleParse).2.2 s false _ hdecode
  exact ⟨s, t, _, hs, hdecode, hrefused,
    fun d hd ↦ (connectionCode_round_trip sampleParse).2.1 _ d s hlength hd hs, ht, hagain⟩

end Codec

end RelayCat.AccessCode
