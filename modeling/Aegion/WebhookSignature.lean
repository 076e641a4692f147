/-
Signatures of webhooks.  `SignPayload` signs the payload before it puts the signature into
it, so what is signed is not what is sent.
-/
import Aegion.CryptoSigning

namespace Aegion.Webhooks

open Go
open Crypto (Hmac cHMACSHA256Hex)

inductive Error where
  | marshal
  | sign (e : Crypto.Error)
deriving Repr, DecidableEq

/-- `json.Marshal` of a string, and of the data of an event; `none` is its error. -/
structure Encoder (Data : Type) where
  string : Bytes → Bytes
  data : Data → Option Bytes

variable {Data : Type} (encoder : Encoder Data) (hmac : Hmac)

section Marshalling

/-- The payload of a webhook, its members in the order of their keys. -/
structure Payload (Data : Type) where
  attempts : Nat
  category : Bytes
  data : Data
  eventType : Bytes
  id : Bytes
  signatures : List (Bytes × Bytes)
  timestamp : Bytes

def comma : UInt8 := 44

def colon : UInt8 := 58

def openBrace : UInt8 := 123

def closeBrace : UInt8 := 125

def marshalMember (member : Bytes × Bytes) : Bytes :=
  encoder.string member.1 ++ colon :: encoder.string member.2

/-- `json.Marshal` of a map from strings to strings. -/
def marshalStrings (members : List (Bytes × Bytes)) : Bytes :=
  openBrace :: ([comma].intercalate (members.map (marshalMember encoder)) ++ [closeBrace])

/-- The text before the signatures. -/
def marshalFront (payload : Payload Data) (data : Bytes) : Bytes :=
  bytesOf "\x7b\"attempts\":" ++ bytesOf (toString payload.attempts) ++
    bytesOf ",\"category\":" ++ encoder.string payload.category ++
    bytesOf ",\"data\":" ++ data ++
    bytesOf ",\"event_type\":" ++ encoder.string payload.eventType ++
    bytesOf ",\"id\":" ++ encoder.string payload.id ++ bytesOf ",\"signatures\":"

def marshalBack (payload : Payload Data) : Bytes :=
  bytesOf ",\"timestamp\":" ++ encoder.string payload.timestamp ++ [closeBrace]

/-- `json.Marshal` of the payload. -/
def marshal (payload : Payload Data) : Option Bytes :=
  (encoder.data payload.data).map fun data =>
    marshalFront encoder payload data ++
      (marshalStrings encoder payload.signatures ++ marshalBack encoder payload)

end Marshalling

section Signing

def sign (secret : Bytes) (payload : Payload Data) : Except Error Bytes :=
  match marshal encoder payload with
  | none => .error .marshal
  | some data =>
      match cHMACSHA256Hex hmac secret data with
      | .error e => .error (.sign e)
      | .ok signature => .ok (bytesOf "sha256=" ++ signature)

def verify (secret : Bytes) (payload : Payload Data) (signature : Bytes) : Bool :=
  match sign encoder hmac secret payload with
  | .error _ => false
  | .ok expected => expected = signature

/-- `X-Aegion-Event-ID`, `X-Aegion-Event-Type`, `X-Aegion-Timestamp`, `X-Aegion-Signature`
and `Content-Type`. -/
structure Headers where
  eventID : Bytes
  eventType : Bytes
  timestamp : Bytes
  signature : Bytes
  contentType : Bytes
deriving DecidableEq

/-- The payload as it is first built. -/
def unsigned (eventID eventType category : Bytes) (data : Data) (timestamp : Bytes) :
    Payload Data :=
  ⟨1, category, data, eventType, eventID, [], timestamp⟩

/-- The two times are those of the payload and of the headers. -/
def signPayload (eventID eventType category : Bytes) (data : Data) (secret : Bytes)
    (builtAt sentAt : Bytes) : Except Error (Payload Data × Headers) :=
  let payload := unsigned eventID eventType category data builtAt
  match sign encoder hmac secret payload with
  | .error e => .error e
  | .ok sig =>
      .ok ({ payload with signatures := [(bytesOf "sha256", sig)] },
        ⟨eventID, eventType, sentAt, sig, bytesOf "application/json"⟩)

/-- What the documentation tells a receiver to do with the body of the request and the
signature header. -/
def receive (secret body signature : Bytes) : Bool :=
  bytesOf "sha256=" ++ encodeHex (hmac.mac secret body) = signature

end Signing

section Verification

variable {encoder hmac} {secret : Bytes} {payload : Payload Data}

theorem sign_eq_ok_iff {signature : Bytes} :
    sign encoder hmac secret payload = .ok signature ↔ secret ≠ [] ∧
      ∃ body, marshal encoder payload = some body ∧
        signature = bytesOf "sha256=" ++ encodeHex (hmac.mac secret body) := by
  rw [sign]
  cases marshal encoder payload with
  | none => simp
  | some body =>
      by_cases hsecret : secret = []
      · simp [cHMACSHA256Hex, hsecret]
      · simp [cHMACSHA256Hex, hsecret, @eq_comm _ signature]

theorem sign_of_marshal (hmac : Hmac) (hsecret : secret ≠ []) {body : Bytes}
    (hbody : marshal encoder payload = some body) :
    sign encoder hmac secret payload =
      .ok (bytesOf "sha256=" ++ encodeHex (hmac.mac secret body)) :=
  sign_eq_ok_iff.mpr ⟨hsecret, body, hbody, rfl⟩

theorem encodeHex_injective : Function.Injective encodeHex := by
  intro left right heq
  have hdecode := decodeHex_encodeHex left
  rw [heq, decodeHex_encodeHex] at hdecode
  exact (Option.some.inj hdecode).symm

theorem marshalStrings_nil_ne (member : Bytes × Bytes) :
    marshalStrings encoder [] ≠ marshalStrings encoder [member] := by
  intro heq
  have hlength := congrArg List.length heq
  simp only [marshalStrings, marshalMember, List.map_cons, List.map_nil,
    List.intercalate_singleton, List.intercalate_nil, List.length_cons, List.length_append,
    List.length_nil] at hlength
  omega

/-- Putting a signature into a payload without one changes its serialisation. -/
theorem marshal_signed (hempty : payload.signatures = []) (member : Bytes × Bytes)
    {before : Bytes} (hbefore : marshal encoder payload = some before) :
    ∃ after, marshal encoder { payload with signatures := [member] } = some after ∧
      before ≠ after := by
  obtain ⟨data, hdata, rfl⟩ := Option.map_eq_some_iff.mp hbefore
  refine ⟨_, Option.map_eq_some_iff.mpr ⟨data, hdata, rfl⟩, fun heq => ?_⟩
  have hmiddle : marshalStrings encoder payload.signatures = marshalStrings encoder [member] :=
    List.append_cancel_right (List.append_cancel_left heq)
  rw [hempty] at hmiddle
  exact marshalStrings_nil_ne member hmiddle

theorem signature_eq_iff {before after : Bytes} :
    bytesOf "sha256=" ++ encodeHex (hmac.mac secret after) =
        bytesOf "sha256=" ++ encodeHex (hmac.mac secret before) ↔
      hmac.mac secret before = hmac.mac secret after := by
  rw [List.append_cancel_left_eq, encodeHex_injective.eq_iff, eq_comm]

variable {eventID eventType category : Bytes} {data : Data} {builtAt sentAt : Bytes}

/-- What `SignPayload` returns, and what the two checks say about it. -/
theorem signPayload_spec (hmac : Hmac) (sentAt : Bytes) (hsecret : secret ≠ []) {before : Bytes}
    (hbefore : marshal encoder (unsigned eventID eventType category data builtAt) = some before) :
    ∃ payload headers after,
      signPayload encoder hmac eventID eventType category data secret builtAt sentAt =
        .ok (payload, headers) ∧
      before ≠ after ∧ marshal encoder payload = some after ∧
      (verify encoder hmac secret payload headers.signature = true ↔
        hmac.mac secret before = hmac.mac secret after) ∧
      (receive hmac secret after headers.signature = true ↔
        hmac.mac secret before = hmac.mac secret after) := by
  obtain ⟨after, hafter, hne⟩ := marshal_signed rfl
    (bytesOf "sha256", bytesOf "sha256=" ++ encodeHex (hmac.mac secret before)) hbefore
  refine ⟨_, ⟨eventID, eventType, sentAt,
    bytesOf "sha256=" ++ encodeHex (hmac.mac secret before), bytesOf "application/json"⟩, after,
    ?_, hne, hafter, ?_, ?_⟩
  · rw [signPayload, sign_of_marshal hmac hsecret hbefore]
  · rw [verify, sign_of_marshal hmac hsecret hafter, decide_eq_true_eq, signature_eq_iff]
  · rw [receive, decide_eq_true_eq, signature_eq_iff]

/-- The signature of `SignPayload` is accepted for the payload that it returns exactly if
HMAC-SHA256 has a collision on two different texts, the one signed and the one sent. -/
theorem signPayload_verify_iff {headers : Headers}
    (hsigned : signPayload encoder hmac eventID eventType category data secret builtAt sentAt =
      .ok (payload, headers)) :
    ∃ before after,
      marshal encoder (unsigned eventID eventType category data builtAt) = some before ∧
      before ≠ after ∧ marshal encoder payload = some after ∧
      (verify encoder hmac secret payload headers.signature = true ↔
        hmac.mac secret before = hmac.mac secret after) ∧
      (receive hmac secret after headers.signature = true ↔
        hmac.mac secret before = hmac.mac secret after) := by
  cases hsign : sign encoder hmac secret (unsigned eventID eventType category data builtAt) with
  | error e =>
      rw [signPayload, hsign] at hsigned
      cases hsigned
  | ok sig =>
      obtain ⟨hsecret, before, hbefore, -⟩ := sign_eq_ok_iff.mp hsign
      obtain ⟨payload', headers', after, hresult, hspec⟩ :=
        signPayload_spec hmac sentAt hsecret hbefore
      rw [hresult] at hsigned
      cases hsigned
      exact ⟨before, after, hbefore, hspec⟩

end Verification

section Sample

/-- Strings in quotes, and no data. -/
def sampleEncoder : Encoder Unit :=
  ⟨fun text => 34 :: (text ++ [34]), fun _ => some (bytesOf "null")⟩

theorem sampleMac_ne_nil (_ message : Bytes) : (0 : UInt8) :: message ≠ [] :=
  List.cons_ne_nil 0 message

/-- A code without collisions. -/
def sampleHmac : Hmac := ⟨fun _ message => 0 :: message, sampleMac_ne_nil⟩

def sampleSigned : Except Error (Payload Unit × Headers) :=
  signPayload sampleEncoder sampleHmac (bytesOf "e1") (bytesOf "login") (bytesOf "auth") ()
    (bytesOf "key") (bytesOf "12:00") (bytesOf "12:01")

theorem bytesOf_key : bytesOf "key" ≠ [] := by decide

def sampleUnsigned : Payload Unit :=
  unsigned (bytesOf "e1") (bytesOf "login") (bytesOf "auth") () (bytesOf "12:00")

theorem marshal_sample : ∃ before, marshal sampleEncoder sampleUnsigned = some before :=
  ⟨_, rfl⟩

theorem sampleHmac_injective (secret : Bytes) : Function.Injective (sampleHmac.mac secret) :=
  fun _ _ heq => (List.cons.inj heq).2

theorem sampleSigned_verify_iff : ∃ payload headers, sampleSigned = .ok (payload, headers) ∧
    ∃ before after, marshal sampleEncoder sampleUnsigned = some before ∧
      before ≠ after ∧ marshal sampleEncoder payload = some after ∧
      (verify sampleEncoder sampleHmac (bytesOf "key") payload headers.signature = true ↔
        sampleHmac.mac (bytesOf "key") before = sampleHmac.mac (bytesOf "key") after) ∧
      (receive sampleHmac (bytesOf "key") after headers.signature = true ↔
        sampleHmac.mac (bytesOf "key") before = sampleHmac.mac (bytesOf "key") after) := by
  obtain ⟨before, hbefore⟩ := marshal_sample
  obtain ⟨payload, headers, after, hsigned, -⟩ :=
    signPayload_spec sampleHmac (bytesOf "12:01") bytesOf_key hbefore
  exact ⟨payload, headers, hsigned, signPayload_verify_iff hsigned⟩

/-- With a code without collisions nobody accepts the signature of what is sent. -/
theorem sampleSigned_rejected :
    (∀ secret, Function.Injective (sampleHmac.mac secret)) ∧
    ∃ payload headers body, sampleSigned = .ok (payload, headers) ∧
      verify sampleEncoder sampleHmac (bytesOf "key") payload headers.signature = false ∧
      marshal sampleEncoder payload = some body ∧
      receive sampleHmac (bytesOf "key") body headers.signature = false := by
  obtain ⟨before, hbefore⟩ := marshal_sample
  obtain ⟨payload, headers, after, hsigned, hne, hafter, hverify, hreceive⟩ :=
    signPayload_spec sampleHmac (bytesOf "12:01") bytesOf_key hbefore
  have hmac := fun heq => hne (sampleHmac_injective (bytesOf "key") heq)
  refine ⟨sampleHmac_injective, payload, headers, after, hsigned, ?_, hafter, ?_⟩
  · exact Bool.eq_false_iff.mpr fun haccepted => hmac (hverify.mp haccepted)
  · exact Bool.eq_false_iff.mpr fun haccepted => hmac (hreceive.mp haccepted)

end Sample

end Aegion.Webhooks
