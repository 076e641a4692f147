/-
The three signed formats cannot be confused: what one signer has signed, its verifier
returns within the time limit, and the signed messages determine the format and all
of its fields.
-/
import Aegion.CryptoSigning
import Aegion.Delimited
import Mathlib.Data.Set.Basic

namespace Aegion.Crypto

open Go

section Messages

/-- The kind of an envelope; callers pass no newline. -/
structure Kind where
  text : Bytes
  clean : newline ∉ text

/-- The name of a module that an internal token is made for. -/
structure ModuleID where
  text : Bytes
  named : blankBytes text = false

/-- A call of one of the signers. -/
inductive Signing where
  | envelope (kind : Kind) (payload : Bytes) (timestamp : Int64)
  | sessionCookie (token : Bytes) (timestamp : Int64)
  | internalToken (moduleID : ModuleID) (timestamp : Int64)

/-- The message whose tag the call computes. -/
def Signing.message : Signing → Bytes
  | .envelope kind payload timestamp => envelopeMessage kind.text timestamp payload
  | .sessionCookie token timestamp =>
      sessionCookieMessage (encodeRawURL token) timestamp
  | .internalToken moduleID timestamp =>
      internalTokenMessage (encodeRawURL moduleID.text) timestamp

theorem newline_notMem_constants :
    newline ∉ envelopeVersion ∧ newline ∉ sessionCookieKind ∧
      newline ∉ sessionCookieVer ∧ newline ∉ internalTokenKind ∧
      newline ∉ internalTokenVer := by
  decide

theorem newline_notMem_formatInt (timestamp : Int64) : newline ∉ formatInt timestamp :=
  notMem_formatInt timestamp (by decide) (by decide)

theorem envelopeMessage_inj {kind kind' : Kind} {payload payload' : Bytes}
    {timestamp timestamp' : Int64} (heq : envelopeMessage kind.text timestamp payload =
      envelopeMessage kind'.text timestamp' payload') :
    kind = kind' ∧ timestamp = timestamp' ∧ payload = payload' := by
  obtain ⟨hversion, -⟩ := newline_notMem_constants
  obtain ⟨-, hkind⟩ := (Delimited.append_cons_inj hversion hversion).mp heq
  obtain ⟨htext, htime⟩ :=
    (Delimited.append_cons_inj kind.clean kind'.clean).mp hkind
  obtain ⟨hstamp, hpayload⟩ := (Delimited.append_cons_inj
    (newline_notMem_formatInt _) (newline_notMem_formatInt _)).mp htime
  cases kind
  cases kind'
  cases htext
  exact ⟨rfl, formatInt_injective hstamp, hpayload⟩

/-- A kind and a version without newline, then a number, then a text to the end. -/
theorem stamped_inj {kind version encoded encoded' : Bytes} {timestamp timestamp' : Int64}
    (hkind : newline ∉ kind) (hversion : newline ∉ version)
    (heq : kind ++ newline :: (version ++ newline :: (formatInt timestamp ++ newline :: encoded)) =
      kind ++ newline :: (version ++ newline :: (formatInt timestamp' ++ newline :: encoded'))) :
    timestamp = timestamp' ∧ encoded = encoded' := by
  obtain ⟨-, hrest⟩ := (Delimited.append_cons_inj hkind hkind).mp heq
  obtain ⟨-, htime⟩ := (Delimited.append_cons_inj hversion hversion).mp hrest
  obtain ⟨hstamp, hencoded⟩ := (Delimited.append_cons_inj
    (newline_notMem_formatInt _) (newline_notMem_formatInt _)).mp htime
  exact ⟨formatInt_injective hstamp, hencoded⟩

theorem sessionCookieMessage_inj {encoded encoded' : Bytes} {timestamp timestamp' : Int64}
    (heq : sessionCookieMessage encoded timestamp = sessionCookieMessage encoded' timestamp') :
    timestamp = timestamp' ∧ encoded = encoded' :=
  stamped_inj newline_notMem_constants.2.1 newline_notMem_constants.2.2.1 heq

theorem internalTokenMessage_inj {encoded encoded' : Bytes} {timestamp timestamp' : Int64}
    (heq : internalTokenMessage encoded timestamp = internalTokenMessage encoded' timestamp') :
    timestamp = timestamp' ∧ encoded = encoded' :=
  stamped_inj newline_notMem_constants.2.2.2.1 newline_notMem_constants.2.2.2.2 heq

/-- No two formats share a message: they differ before the first newline. -/
theorem messages_disjoint (kind payload encoded encoded' : Bytes) (timestamp timestamp' : Int64) :
    envelopeMessage kind timestamp payload ≠ sessionCookieMessage encoded timestamp' ∧
      envelopeMessage kind timestamp payload ≠ internalTokenMessage encoded timestamp' ∧
      sessionCookieMessage encoded timestamp ≠ internalTokenMessage encoded' timestamp' := by
  obtain ⟨hversion, hcookie, -, htoken, -⟩ := newline_notMem_constants
  refine ⟨fun heq => ?_, fun heq => ?_, fun heq => ?_⟩
  · exact absurd ((Delimited.append_cons_inj hversion hcookie).mp heq).1 (by decide)
  · exact absurd ((Delimited.append_cons_inj hversion htoken).mp heq).1 (by decide)
  · exact absurd ((Delimited.append_cons_inj hcookie htoken).mp heq).1 (by decide)

theorem encodeRawURL_injective : Function.Injective encodeRawURL := by
  intro left right heq
  have hdecode := decodeRawURL_encodeRawURL left
  rw [heq, decodeRawURL_encodeRawURL] at hdecode
  exact (Option.some.inj hdecode).symm

theorem message_injective : Function.Injective Signing.message := by
  intro left right heq
  cases left with
  | envelope kind payload timestamp =>
      cases right with
      | envelope kind' payload' timestamp' =>
          obtain ⟨rfl, rfl, rfl⟩ := envelopeMessage_inj heq
          rfl
      | sessionCookie token timestamp' =>
          exact absurd heq (messages_disjoint _ _ _ [] _ _).1
      | internalToken moduleID timestamp' =>
          exact absurd heq (messages_disjoint _ _ _ [] _ _).2.1
  | sessionCookie token timestamp =>
      cases right with
      | envelope kind payload timestamp' =>
          exact absurd heq.symm (messages_disjoint _ _ _ [] _ _).1
      | sessionCookie token' timestamp' =>
          obtain ⟨rfl, hencoded⟩ := sessionCookieMessage_inj heq
          rw [encodeRawURL_injective hencoded]
      | internalToken moduleID timestamp' =>
          exact absurd heq (messages_disjoint [] [] _ _ _ _).2.2
  | internalToken moduleID timestamp =>
      cases right with
      | envelope kind payload timestamp' =>
          exact absurd heq.symm (messages_disjoint _ _ _ [] _ _).2.1
      | sessionCookie token timestamp' =>
          exact absurd heq.symm (messages_disjoint [] [] _ _ _ _).2.2
      | internalToken moduleID' timestamp' =>
          obtain ⟨rfl, hencoded⟩ := internalTokenMessage_inj heq
          cases moduleID
          cases moduleID'
          cases encodeRawURL_injective hencoded
          rfl

end Messages

section RoundTrip

variable {hmac : Hmac} {secret : Bytes}

/-- Inside the time limit, without wrapping around; no limit is written as zero. -/
def Within (limit : UInt64) (timestamp now : Int64) : Prop :=
  0 < limit → timestamp ≤ now ∧
    now.toInt - timestamp.toInt ≤ limit.toInt64.toInt

theorem fresh_of_within {limit : UInt64} {timestamp now : Int64}
    (hwithin : Within limit timestamp now) : Fresh limit timestamp now := by
  intro hlimit
  obtain ⟨hpast, hage⟩ := hwithin hlimit
  refine ⟨hpast, ?_⟩
  rw [Int64.le_iff_toInt_le] at hpast ⊢
  have hmax := limit.toInt64.toInt_lt
  rw [Int64.toInt_sub, Int.bmod_eq_of_le_mul_two (by omega) (by omega)]
  exact hage

theorem verifyHMACHex_mac {message : Bytes} (hsecret : secret ≠ []) :
    verifyHMACHex hmac secret message (encodeHex (hmac.mac secret message)) = true :=
  verifyHMACHex_eq_true_iff.mpr ⟨hsecret, decodeHex_encodeHex _⟩

/-- Fields without the separator are split apart again. -/
theorem splitOn_dotted {version : Bytes} (token : Bytes) (timestamp : Int64)
    (tag : Bytes) (hversion : dot ∉ version) :
    ([dot].intercalate [version, encodeRawURL token, formatInt timestamp,
        encodeHex tag]).splitOn dot =
      [version, encodeRawURL token, formatInt timestamp, encodeHex tag] := by
  refine List.splitOn_intercalate _ ?_ (by simp)
  simp only [List.forall_mem_cons, List.not_mem_nil, false_imp_iff, implies_true, and_true]
  exact ⟨hversion, notMem_encodeRawURL token (by decide) (by decide),
    notMem_formatInt timestamp (by decide) (by decide),
    notMem_encodeHex tag (by decide) (by decide)⟩

theorem splitOn_envelope (timestamp : Int64) (tag : Bytes) :
    ([semicolon].intercalate [envelopeVersion, bytesOf "t=" ++ formatInt timestamp,
        bytesOf "s=" ++ encodeHex tag]).splitOn semicolon =
      [envelopeVersion, bytesOf "t=" ++ formatInt timestamp,
        bytesOf "s=" ++ encodeHex tag] := by
  refine List.splitOn_intercalate _ ?_ (by simp)
  simp only [List.forall_mem_cons, List.not_mem_nil, false_imp_iff, implies_true,
    and_true, List.mem_append, not_or]
  exact ⟨by decide, ⟨by decide, notMem_formatInt timestamp (by decide) (by decide)⟩,
    by decide, notMem_encodeHex tag (by decide) (by decide)⟩

theorem signEnvelope_eq_ok_iff {kind payload signed : Bytes} {timestamp : Int64} :
    cSignEnvelope hmac kind secret payload timestamp = .ok signed ↔
      secret ≠ [] ∧ [semicolon].intercalate [envelopeVersion,
        bytesOf "t=" ++ formatInt timestamp, bytesOf "s=" ++ encodeHex
          (hmac.mac secret (envelopeMessage kind timestamp payload))] = signed := by
  unfold cSignEnvelope cHMACSHA256Hex
  by_cases hsecret : secret = []
  · simp [hsecret]
  · simp [hsecret]

theorem parse_signEnvelope {kind payload signed : Bytes} {timestamp : Int64}
    (hsign : cSignEnvelope hmac kind secret payload timestamp = .ok signed) :
    parseEnvelope signed = .ok (timestamp, encodeHex
      (hmac.mac secret (envelopeMessage kind timestamp payload))) := by
  obtain ⟨-, rfl⟩ := signEnvelope_eq_ok_iff.mp hsign
  exact parseEnvelope_eq_ok_iff.mpr ⟨encodeHex_ne_nil (hmac.mac_ne_nil _ _), _,
    parseInt_formatInt timestamp, splitOn_envelope timestamp _⟩

theorem verify_signEnvelope (hsecret : secret ≠ []) (kind payload : Bytes)
    {limit : UInt64} {timestamp now : Int64} (hwithin : Within limit timestamp now) :
    ∃ signed, cSignEnvelope hmac kind secret payload timestamp = .ok signed ∧
      cVerifyEnvelope hmac kind secret payload signed limit now = true := by
  have hsign : cSignEnvelope hmac kind secret payload timestamp = .ok _ :=
    signEnvelope_eq_ok_iff.mpr ⟨hsecret, rfl⟩
  exact ⟨_, hsign, cVerifyEnvelope_eq_true_iff.mpr
    ⟨timestamp, _, parse_signEnvelope hsign, fresh_of_within hwithin, verifyHMACHex_mac hsecret⟩⟩

theorem verify_signSessionCookie (hsecret : secret ≠ []) (token : Bytes)
    {limit : UInt64} {timestamp now : Int64} (hwithin : Within limit timestamp now) :
    ∃ signed, cSignSessionCookie hmac secret token timestamp = .ok signed ∧
      cVerifySessionCookie hmac secret signed limit now = .ok token := by
  unfold cSignSessionCookie cHMACSHA256Hex
  dsimp only
  rw [if_neg hsecret]
  exact ⟨_, rfl, cVerifySessionCookie_eq_ok_iff.mpr
    ⟨_, _, _, timestamp, splitOn_dotted token timestamp _ (by decide),
      parseInt_formatInt timestamp, fresh_of_within hwithin,
      verifyHMACHex_mac hsecret, decodeRawURL_encodeRawURL token⟩⟩

theorem verify_generateInternalToken (hsecret : secret ≠ []) (moduleID : ModuleID)
    {limit : UInt64} {timestamp now : Int64} (hpast : timestamp ≤ now)
    (hwithin : Within limit timestamp now) :
    ∃ signed signature,
      cGenerateInternalToken hmac secret moduleID.text timestamp = .ok signed ∧
      cVerifyInternalToken hmac secret signed limit now =
        .ok ⟨moduleID.text, timestamp, signature⟩ := by
  unfold cGenerateInternalToken cHMACSHA256Hex
  dsimp only
  rw [moduleID.named, if_neg (by decide), if_neg hsecret]
  exact ⟨_, _, rfl, cVerifyInternalToken_eq_ok_iff.mpr
    ⟨_, _, splitOn_dotted moduleID.text timestamp _ (by decide),
      parseInt_formatInt timestamp, hpast, fresh_of_within hwithin,
      verifyHMACHex_mac hsecret, decodeRawURL_encodeRawURL moduleID.text⟩⟩

end RoundTrip

section Origin

variable (hmac : Hmac) (secret : Bytes)

/-- The tag in a signed cookie or token. -/
def dottedTag (signed : Bytes) : Option Bytes :=
  match signed.splitOn dot with
  | [_, _, _, signature] => decodeHex signature
  | _ => none

/-- The tag in an envelope. -/
def envelopeTag (envelope : Bytes) : Option Bytes :=
  match parseEnvelope envelope with
  | .ok (_, signature) => decodeHex signature
  | .error _ => none

/-- The tag was computed by one of these calls. -/
def MadeBy (issued : Set Signing) (tag : Option Bytes) : Prop :=
  ∃ call ∈ issued, tag = some (hmac.mac secret call.message)

variable {hmac secret} {issued : Set Signing}

/-- With an ideal HMAC, the call that made the tag has signed this message. -/
theorem exists_of_madeBy (hideal : ∀ key, Function.Injective (hmac.mac key))
    {message signature : Bytes} (hsigned : verifyHMACHex hmac secret message signature = true)
    (hmade : MadeBy hmac secret issued (decodeHex signature)) :
    ∃ call ∈ issued, call.message = message := by
  obtain ⟨call, hcall, htag⟩ := hmade
  rw [(verifyHMACHex_eq_true_iff.mp hsigned).2] at htag
  exact ⟨call, hcall, (hideal secret (Option.some.inj htag)).symm⟩

theorem envelope_mem (hideal : ∀ key, Function.Injective (hmac.mac key))
    {kind : Kind} {payload envelope : Bytes} {limit : UInt64} {now : Int64}
    (haccept : cVerifyEnvelope hmac kind.text secret payload envelope limit now = true)
    (hmade : MadeBy hmac secret issued (envelopeTag envelope)) :
    ∃ timestamp signature, parseEnvelope envelope = .ok (timestamp, signature) ∧
      .envelope kind payload timestamp ∈ issued := by
  obtain ⟨timestamp, signature, hparse, -, hsigned⟩ :=
    cVerifyEnvelope_eq_true_iff.mp haccept
  rw [envelopeTag, hparse] at hmade
  obtain ⟨call, hcall, hmessage⟩ := exists_of_madeBy hideal hsigned hmade
  have hsame : call = .envelope kind payload timestamp := message_injective hmessage
  exact ⟨timestamp, signature, hparse, hsame ▸ hcall⟩

/-- A signed envelope is accepted for what it was signed for only. -/
theorem eq_of_verify_signEnvelope (hideal : ∀ key, Function.Injective (hmac.mac key))
    (kind kind' : Kind) {payload payload' signed : Bytes} {timestamp : Int64}
    {limit : UInt64} {now : Int64}
    (hsign : cSignEnvelope hmac kind.text secret payload timestamp = .ok signed)
    (haccept : cVerifyEnvelope hmac kind'.text secret payload' signed limit now = true) :
    kind = kind' ∧ payload = payload' := by
  have hmade : MadeBy hmac secret (fun call => call = .envelope kind payload timestamp)
      (envelopeTag signed) := by
    refine ⟨_, rfl, ?_⟩
    rw [envelopeTag, parse_signEnvelope hsign]
    exact decodeHex_encodeHex _
  obtain ⟨timestamp', _, -, hmem⟩ := envelope_mem hideal haccept hmade
  cases hmem
  exact ⟨rfl, rfl⟩

/-- The verified part is the encoding that the call has signed, whatever else the
decoder would take for the token. -/
theorem sessionCookie_mem (hideal : ∀ key, Function.Injective (hmac.mac key))
    {signed token : Bytes} {limit : UInt64} {now : Int64}
    (haccept : cVerifySessionCookie hmac secret signed limit now = .ok token)
    (hmade : MadeBy hmac secret issued (dottedTag signed)) :
    ∃ timestamp, .sessionCookie token timestamp ∈ issued := by
  obtain ⟨encoded, stamp, signature, timestamp, hsplit, -, -, hsigned, hdecode⟩ :=
    cVerifySessionCookie_eq_ok_iff.mp haccept
  rw [dottedTag, hsplit] at hmade
  obtain ⟨call, hcall, hmessage⟩ := exists_of_madeBy hideal hsigned hmade
  cases call with
  | envelope kind payload timestamp' =>
      exact absurd hmessage (messages_disjoint _ _ _ [] _ _).1
  | sessionCookie token' timestamp' =>
      obtain ⟨rfl, rfl⟩ := sessionCookieMessage_inj hmessage
      rw [decodeRawURL_encodeRawURL] at hdecode
      cases hdecode
      exact ⟨_, hcall⟩
  | internalToken moduleID timestamp' =>
      exact absurd hmessage.symm (messages_disjoint [] [] _ _ _ _).2.2

theorem internalToken_mem (hideal : ∀ key, Function.Injective (hmac.mac key))
    {token : Bytes} {result : ParsedToken} {limit : UInt64} {now : Int64}
    (haccept : cVerifyInternalToken hmac secret token limit now = .ok result)
    (hmade : MadeBy hmac secret issued (dottedTag token)) :
    ∃ moduleID : ModuleID, moduleID.text = result.moduleID ∧
      .internalToken moduleID result.timestampUnix ∈ issued := by
  obtain ⟨encoded, stamp, hsplit, -, -, -, hsigned, hdecode⟩ :=
    cVerifyInternalToken_eq_ok_iff.mp haccept
  rw [dottedTag, hsplit] at hmade
  obtain ⟨call, hcall, hmessage⟩ := exists_of_madeBy hideal hsigned hmade
  cases call with
  | envelope kind payload timestamp' =>
      exact absurd hmessage (messages_disjoint _ _ _ [] _ _).2.1
  | sessionCookie token' timestamp' =>
      exact absurd hmessage (messages_disjoint [] [] _ _ _ _).2.2
  | internalToken moduleID timestamp' =>
      obtain ⟨rfl, rfl⟩ := internalTokenMessage_inj hmessage
      rw [decodeRawURL_encodeRawURL] at hdecode
      exact ⟨moduleID, Option.some.inj hdecode, hcall⟩

end Origin

/-- Within the time limit each verifier returns what was signed.  With an ideal HMAC,
whatever carries the tag of a signing call under the secret is accepted only by the
verifier of that call's format and only for its fields; the messages are different
for different formats and fields. -/
theorem signed_values_not_confused (hmac : Hmac)
    (hideal : ∀ key, Function.Injective (hmac.mac key)) (secret : Bytes) (hsecret : secret ≠ []) :
    Function.Injective Signing.message ∧
    (∀ (kind : Kind) (payload : Bytes) (limit : UInt64) (timestamp now : Int64),
      Within limit timestamp now →
      ∃ signed, cSignEnvelope hmac kind.text secret payload timestamp = .ok signed ∧
        cVerifyEnvelope hmac kind.text secret payload signed limit now = true) ∧
    (∀ (token : Bytes) (limit : UInt64) (timestamp now : Int64),
      Within limit timestamp now →
      ∃ signed, cSignSessionCookie hmac secret token timestamp = .ok signed ∧
        cVerifySessionCookie hmac secret signed limit now = .ok token) ∧
    (∀ (moduleID : ModuleID) (limit : UInt64) (timestamp now : Int64),
      timestamp ≤ now → Within limit timestamp now → ∃ signed signature,
        cGenerateInternalToken hmac secret moduleID.text timestamp = .ok signed ∧
        cVerifyInternalToken hmac secret signed limit now =
          .ok ⟨moduleID.text, timestamp, signature⟩) ∧
    ∀ issued : Set Signing,
      (∀ (kind : Kind) (payload envelope : Bytes) (limit : UInt64) (now : Int64),
        cVerifyEnvelope hmac kind.text secret payload envelope limit now = true →
        MadeBy hmac secret issued (envelopeTag envelope) →
        ∃ timestamp signature, parseEnvelope envelope = .ok (timestamp, signature) ∧
          .envelope kind payload timestamp ∈ issued) ∧
      (∀ (signed token : Bytes) (limit : UInt64) (now : Int64),
        cVerifySessionCookie hmac secret signed limit now = .ok token →
        MadeBy hmac secret issued (dottedTag signed) →
        ∃ timestamp, .sessionCookie token timestamp ∈ issued) ∧
      ∀ (token : Bytes) (result : ParsedToken) (limit : UInt64) (now : Int64),
        cVerifyInternalToken hmac secret token limit now = .ok result →
        MadeBy hmac secret issued (dottedTag token) →
        ∃ moduleID : ModuleID, moduleID.text = result.moduleID ∧
          .internalToken moduleID result.timestampUnix ∈ issued := by
  refine ⟨message_injective, ?_, ?_, ?_, fun issued => ⟨?_, ?_, ?_⟩⟩
  · intro kind payload limit timestamp now hwithin
    exact verify_signEnvelope hsecret kind.text payload hwithin
  · intro token limit timestamp now hwithin
    exact verify_signSessionCookie hsecret token hwithin
  · intro moduleID limit timestamp now hpast hwithin
    exact verify_generateInternalToken hsecret moduleID hpast hwithin
  · intro kind payload envelope limit now haccept hmade
    exact envelope_mem hideal haccept hmade
  · intro signed token limit now haccept hmade
    exact sessionCookie_mem hideal haccept hmade
  · intro token result limit now haccept hmade
    exact internalToken_mem hideal haccept hmade

/-- The tag is the message behind one byte. -/
def plainHmac : Hmac := ⟨fun _ message => 0 :: message, by simp⟩

theorem plain_cookie_returned :
    ∃ signed, cSignSessionCookie plainHmac [1] [116] 5 = .ok signed ∧
      cVerifySessionCookie plainHmac [1] signed 60 30 = .ok [116] :=
  (signed_values_not_confused plainHmac (fun _ _ _ heq => (List.cons.inj heq).2) [1]
    (by simp)).2.2.1 [116] 60 5 30 (fun _ => by decide)

end Aegion.Crypto
