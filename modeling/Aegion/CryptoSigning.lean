/-
The signed text formats of the crypto package: envelopes, session cookies and internal
tokens.  HMAC-SHA256 is a parameter.
-/
import Aegion.ByteText
import Mathlib.Logic.Basic

namespace Aegion.Crypto

open Go

inductive Error where
  | signatureFailed
  | envelopeFailed
  | sessionCookie
  | internalToken
  | pkceFailed
  | expired
  | invalidSignature
deriving Repr, DecidableEq

/-- HMAC-SHA256; its tags are never empty. -/
structure Hmac where
  mac : Bytes → Bytes → Bytes
  mac_ne_nil : ∀ key message, mac key message ≠ []

def envelopeVersion : Bytes := bytesOf "v1"

def sessionCookieKind : Bytes := bytesOf "session_cookie"

def sessionCookieVer : Bytes := bytesOf "v1"

def internalTokenKind : Bytes := bytesOf "internal_token"

def internalTokenVer : Bytes := bytesOf "v1"

def newline : UInt8 := 10

def dot : UInt8 := 46

def semicolon : UInt8 := 59

/-- `strings.CutPrefix`. -/
def cutPrefix (text start : Bytes) : Option Bytes :=
  if start.isPrefixOf text then some (text.drop start.length) else none

section Signatures

variable (hmac : Hmac)

/-- An empty secret signs nothing. -/
def cHMACSHA256Hex (secret message : Bytes) : Except Error Bytes :=
  if secret = [] then .error .signatureFailed
  else .ok (encodeHex (hmac.mac secret message))

def verifyHMACHex (secret message signatureHex : Bytes) : Bool :=
  match decodeHex signatureHex with
  | none => false
  | some provided =>
      match cHMACSHA256Hex hmac secret message with
      | .error _ => false
      | .ok expectedHex => decodeHex expectedHex = some provided

end Signatures

section Envelope

variable (hmac : Hmac)

/-- What the signature of an envelope is over, line by line. -/
def envelopeMessage (kind : Bytes) (timestamp : Int64) (payload : Bytes) : Bytes :=
  envelopeVersion ++ newline :: (kind ++ newline ::
    (formatInt timestamp ++ newline :: payload))

/-- `v1;t=<timestamp>;s=<signature>`. -/
def cSignEnvelope (kind secret payload : Bytes) (timestampUnix : Int64) : Except Error Bytes :=
  match cHMACSHA256Hex hmac secret (envelopeMessage kind timestampUnix payload) with
  | .error _ => .error .envelopeFailed
  | .ok signature =>
      .ok ([semicolon].intercalate [envelopeVersion,
        bytesOf "t=" ++ formatInt timestampUnix, bytesOf "s=" ++ signature])

def parseEnvelope (envelope : Bytes) : Except Error (Int64 × Bytes) :=
  match envelope.splitOn semicolon with
  | [version, stamp, signed] =>
      if version ≠ envelopeVersion then .error .invalidSignature
      else
        match (cutPrefix stamp (bytesOf "t=")).bind parseInt with
        | none => .error .invalidSignature
        | some timestamp =>
            match cutPrefix signed (bytesOf "s=") with
            | none | some [] => .error .invalidSignature
            | some signature => .ok (timestamp, signature)
  | _ => .error .invalidSignature

/-- Without an age limit the timestamp is not looked at. -/
def cVerifyEnvelope (kind secret payload envelope : Bytes) (maxAgeSeconds : UInt64)
    (nowUnix : Int64) : Bool :=
  match parseEnvelope envelope with
  | .error _ => false
  | .ok (timestamp, signature) =>
      if 0 < maxAgeSeconds ∧ (nowUnix < timestamp ∨
          maxAgeSeconds.toInt64 < nowUnix - timestamp) then false
      else verifyHMACHex hmac secret (envelopeMessage kind timestamp payload) signature

end Envelope

section SessionCookie

variable (hmac : Hmac)

def sessionCookieMessage (encodedToken : Bytes) (timestamp : Int64) : Bytes :=
  sessionCookieKind ++ newline :: (sessionCookieVer ++ newline ::
    (formatInt timestamp ++ newline :: encodedToken))

/-- `v1.<token>.<timestamp>.<signature>`, the token in URL-safe base64. -/
def cSignSessionCookie (secret token : Bytes) (timestampUnix : Int64) : Except Error Bytes :=
  let encoded := encodeRawURL token
  match cHMACSHA256Hex hmac secret (sessionCookieMessage encoded timestampUnix) with
  | .error _ => .error .sessionCookie
  | .ok signature =>
      .ok ([dot].intercalate
        [sessionCookieVer, encoded, formatInt timestampUnix, signature])

def cVerifySessionCookie (secret signed : Bytes) (maxAgeSeconds : UInt64)
    (nowUnix : Int64) : Except Error Bytes :=
  match signed.splitOn dot with
  | [version, encoded, stamp, signature] =>
      if version ≠ sessionCookieVer then .error .invalidSignature
      else
        match parseInt stamp with
        | none => .error .invalidSignature
        | some timestamp =>
            if 0 < maxAgeSeconds ∧ nowUnix < timestamp then .error .invalidSignature
            else if 0 < maxAgeSeconds ∧ maxAgeSeconds.toInt64 < nowUnix - timestamp then
              .error .expired
            else if verifyHMACHex hmac secret
                (sessionCookieMessage encoded timestamp) signature = false then
              .error .invalidSignature
            else
              match decodeRawURL encoded with
              | none => .error .sessionCookie
              | some token => .ok token
  | _ => .error .invalidSignature

end SessionCookie

section InternalToken

variable (hmac : Hmac)

structure ParsedToken where
  moduleID : Bytes
  timestampUnix : Int64
  signatureHex : Bytes
deriving Repr, DecidableEq

/-- `strings.TrimSpace(s) == ""`; a string that is not UTF-8 has a byte that is
not trimmed. -/
def blankBytes (text : Bytes) : Bool := (utf8? text).any blank

def internalTokenMessage (encodedModuleID : Bytes) (timestamp : Int64) : Bytes :=
  internalTokenKind ++ newline :: (internalTokenVer ++ newline ::
    (formatInt timestamp ++ newline :: encodedModuleID))

def cGenerateInternalToken (secret moduleID : Bytes) (timestampUnix : Int64) : Except Error Bytes :=
  if blankBytes moduleID then .error .internalToken
  else
    let encoded := encodeRawURL moduleID
    match cHMACSHA256Hex hmac secret (internalTokenMessage encoded timestampUnix) with
    | .error _ => .error .internalToken
    | .ok signature =>
        .ok ([dot].intercalate
          [internalTokenVer, encoded, formatInt timestampUnix, signature])

/-- A token from the future is refused with or without a lifetime. -/
def cVerifyInternalToken (secret token : Bytes) (ttlMillis : UInt64)
    (nowUnix : Int64) : Except Error ParsedToken :=
  match token.splitOn dot with
  | [version, encoded, stamp, signature] =>
      if version ≠ internalTokenVer then .error .invalidSignature
      else
        match parseInt stamp with
        | none => .error .invalidSignature
        | some timestamp =>
            if nowUnix < timestamp then .error .invalidSignature
            else if 0 < ttlMillis ∧ ttlMillis.toInt64 < nowUnix - timestamp then
              .error .expired
            else if verifyHMACHex hmac secret
                (internalTokenMessage encoded timestamp) signature = false then
              .error .invalidSignature
            else
              match decodeRawURL encoded with
              | none => .error .internalToken
              | some moduleID => .ok ⟨moduleID, timestamp, signature⟩
  | _ => .error .invalidSignature

end InternalToken

section Clock

variable (hmac : Hmac)

/-- `time.Time`, as Unix seconds and the nanoseconds within the second. -/
structure Instant where
  sec : Int64
  nsec : Fin 1000000000
deriving Repr, DecidableEq

/-- The whole seconds of a limit; a limit that is not positive is none. -/
def wholeSeconds (maxAge : Int64) : UInt64 :=
  if 0 < maxAge then (maxAge / 1000000000).toUInt64 else 0

def signEnvelope (kind secret payload : Bytes) (now : Instant) : Except Error Bytes :=
  cSignEnvelope hmac kind secret payload now.sec

def verifyEnvelope (kind secret payload envelope : Bytes) (maxAge : Int64) (now : Instant) : Bool :=
  cVerifyEnvelope hmac kind secret payload envelope (wholeSeconds maxAge) now.sec

def verifySessionCookieValue (secret signed : Bytes) (maxAge : Int64) (now : Instant) :
    Except Error Bytes :=
  cVerifySessionCookie hmac secret signed (wholeSeconds maxAge) now.sec

end Clock

section Verifiers

variable {hmac : Hmac} {secret : Bytes}

theorem verifyHMACHex_eq_true_iff {message signature : Bytes} :
    verifyHMACHex hmac secret message signature = true ↔
      secret ≠ [] ∧ decodeHex signature = some (hmac.mac secret message) := by
  unfold verifyHMACHex cHMACSHA256Hex
  cases hdecode : decodeHex signature with
  | none => simp
  | some provided =>
      by_cases hsecret : secret = []
      · simp [hsecret]
      · simp [hsecret, decodeHex_encodeHex, @eq_comm _ provided]

/-- The check of envelopes and cookies, and the second one of internal tokens. -/
def Fresh (limit : UInt64) (timestamp now : Int64) : Prop :=
  0 < limit → timestamp ≤ now ∧ now - timestamp ≤ limit.toInt64

theorem fresh_iff {limit : UInt64} {timestamp now : Int64} :
    Fresh limit timestamp now ↔ ¬ (0 < limit ∧ now < timestamp) ∧
      ¬ (0 < limit ∧ limit.toInt64 < now - timestamp) := by
  unfold Fresh
  simp only [not_and, Int64.not_lt]
  exact forall_and

theorem cutPrefix_eq_some_iff {text start rest : Bytes} :
    cutPrefix text start = some rest ↔ text = start ++ rest := by
  unfold cutPrefix
  split
  case isTrue hprefix =>
    obtain ⟨more, rfl⟩ := List.isPrefixOf_iff_prefix.mp hprefix
    simp
  case isFalse hprefix =>
    constructor
    · intro hnone
      cases hnone
    · rintro rfl
      exact absurd (List.isPrefixOf_iff_prefix.mpr (List.prefix_append _ _)) hprefix

/-- An envelope is parsed if and only if it has the form that signing gives it. -/
theorem parseEnvelope_eq_ok_iff {envelope signature : Bytes} {timestamp : Int64} :
    parseEnvelope envelope = .ok (timestamp, signature) ↔
      signature ≠ [] ∧ ∃ stamp, parseInt stamp = some timestamp ∧
        envelope.splitOn semicolon = [envelopeVersion, bytesOf "t=" ++ stamp,
          bytesOf "s=" ++ signature] := by
  constructor
  · intro hparse
    unfold parseEnvelope at hparse
    split at hparse
    case h_1 version stamp signed hsplit =>
      split at hparse
      · cases hparse
      · rename_i hversion
        split at hparse
        · cases hparse
        · rename_i time hstamp
          obtain ⟨digits, hcut, hdigits⟩ := Option.bind_eq_some_iff.mp hstamp
          split at hparse
          · cases hparse
          · cases hparse
          · rename_i found hne hsigned
            cases hparse
            rw [not_not.mp hversion, cutPrefix_eq_some_iff.mp hcut,
              cutPrefix_eq_some_iff.mp hsigned] at hsplit
            exact ⟨fun hnil => hne (by rw [hnil]), digits, hdigits, hsplit⟩
    case h_2 => cases hparse
  · rintro ⟨hne, stamp, hstamp, hsplit⟩
    unfold parseEnvelope
    rw [hsplit]
    simp only [ne_eq, not_true_eq_false, if_false]
    rw [cutPrefix_eq_some_iff.mpr rfl, cutPrefix_eq_some_iff.mpr rfl, Option.bind_some, hstamp]
    cases signature with
    | nil => exact absurd rfl hne
    | cons first rest => rfl

/-- What a verifier has checked when it accepts; so for the two below. -/
theorem cVerifyEnvelope_eq_true_iff {kind payload envelope : Bytes} {limit : UInt64} {now : Int64} :
    cVerifyEnvelope hmac kind secret payload envelope limit now = true ↔
      ∃ timestamp signature, parseEnvelope envelope = .ok (timestamp, signature) ∧
        Fresh limit timestamp now ∧
        verifyHMACHex hmac secret (envelopeMessage kind timestamp payload) signature = true := by
  unfold cVerifyEnvelope
  cases parseEnvelope envelope with
  | error e => simp
  | ok parsed =>
      obtain ⟨timestamp, signature⟩ := parsed
      simp only [Except.ok.injEq, Prod.mk.injEq, fresh_iff, and_or_left]
      constructor
      · intro haccept
        split at haccept
        · cases haccept
        · rename_i hfresh
          exact ⟨_, _, ⟨rfl, rfl⟩, not_or.mp hfresh, haccept⟩
      · rintro ⟨_, _, ⟨rfl, rfl⟩, hfresh, haccept⟩
        rw [if_neg (not_or.mpr hfresh), haccept]

/-- A check in a chain of them, each with an error of its own. -/
theorem refuse_eq_ok_iff {α : Type} {p : Prop} [Decidable p] {e : Error}
    {next : Except Error α} {value : α} :
    (if p then .error e else next) = .ok value ↔ ¬p ∧ next = .ok value := by
  by_cases hp : p <;> simp [hp]

theorem cVerifySessionCookie_eq_ok_iff {signed token : Bytes} {limit : UInt64} {now : Int64} :
    cVerifySessionCookie hmac secret signed limit now = .ok token ↔
      ∃ encoded stamp signature timestamp,
        signed.splitOn dot = [sessionCookieVer, encoded, stamp, signature] ∧
        parseInt stamp = some timestamp ∧ Fresh limit timestamp now ∧
        verifyHMACHex hmac secret (sessionCookieMessage encoded timestamp) signature = true ∧
        decodeRawURL encoded = some token := by
  constructor
  · intro hverify
    unfold cVerifySessionCookie at hverify
    split at hverify
    case h_1 version encoded stamp signature hsplit =>
      obtain ⟨hversion, hverify⟩ := refuse_eq_ok_iff.mp hverify
      rw [not_not.mp hversion] at hsplit
      split at hverify
      · cases hverify
      · rename_i timestamp hstamp
        simp only [refuse_eq_ok_iff] at hverify
        obtain ⟨hfuture, hage, hsigned, hverify⟩ := hverify
        split at hverify
        · cases hverify
        · rename_i found hdecode
          cases hverify
          exact ⟨encoded, stamp, signature, timestamp, hsplit, hstamp,
            fresh_iff.mpr ⟨hfuture, hage⟩, by simpa using hsigned, hdecode⟩
    case h_2 => cases hverify
  · rintro ⟨encoded, stamp, signature, timestamp, hsplit, hstamp, hfresh, hsigned, hdecode⟩
    unfold cVerifySessionCookie
    rw [hsplit]
    simp only [ne_eq, not_true_eq_false, if_false, hstamp]
    rw [if_neg (fresh_iff.mp hfresh).1, if_neg (fresh_iff.mp hfresh).2,
      if_neg (by rw [hsigned]; decide), hdecode]

theorem cVerifyInternalToken_eq_ok_iff {token : Bytes} {result : ParsedToken}
    {limit : UInt64} {now : Int64} :
    cVerifyInternalToken hmac secret token limit now = .ok result ↔
      ∃ encoded stamp,
        token.splitOn dot = [internalTokenVer, encoded, stamp, result.signatureHex] ∧
        parseInt stamp = some result.timestampUnix ∧
        result.timestampUnix ≤ now ∧ Fresh limit result.timestampUnix now ∧
        verifyHMACHex hmac secret (internalTokenMessage encoded result.timestampUnix)
          result.signatureHex = true ∧
        decodeRawURL encoded = some result.moduleID := by
  constructor
  · intro hverify
    unfold cVerifyInternalToken at hverify
    split at hverify
    case h_1 version encoded stamp signature hsplit =>
      obtain ⟨hversion, hverify⟩ := refuse_eq_ok_iff.mp hverify
      rw [not_not.mp hversion] at hsplit
      split at hverify
      · cases hverify
      · rename_i timestamp hstamp
        simp only [refuse_eq_ok_iff] at hverify
        obtain ⟨hfuture, hage, hsigned, hverify⟩ := hverify
        split at hverify
        · cases hverify
        · rename_i found hdecode
          cases hverify
          exact ⟨encoded, stamp, hsplit, hstamp, Int64.not_lt.mp hfuture,
            fresh_iff.mpr ⟨fun hlate => hfuture hlate.2, hage⟩, by simpa using hsigned,
            hdecode⟩
    case h_2 => cases hverify
  · rintro ⟨encoded, stamp, hsplit, hstamp, hpast, hfresh, hsigned, hdecode⟩
    unfold cVerifyInternalToken
    rw [hsplit]
    simp only [ne_eq, not_true_eq_false, if_false, hstamp]
    rw [if_neg (Int64.not_lt.mpr hpast), if_neg (fresh_iff.mp hfresh).2,
      if_neg (by rw [hsigned]; decide), hdecode]

end Verifiers

end Aegion.Crypto
