/-
The age of signed values.  Limits are cut to whole seconds, and the age is computed in
64 bits, so limits below a second and timestamps far in the past are not enforced.
-/
import Aegion.IdentityHeaders

namespace Aegion.Crypto

open Go

/-- The time since the timestamp, in nanoseconds. -/
def age (timestamp : Int64) (now : Instant) : Int :=
  (now.sec.toInt - timestamp.toInt) * 1000000000 + now.nsec

def InTime (maxAge timestamp : Int64) (now : Instant) : Prop :=
  0 ≤ age timestamp now ∧ age timestamp now ≤ maxAge.toInt

instance (maxAge timestamp : Int64) (now : Instant) : Decidable (InTime maxAge timestamp now) :=
  inferInstanceAs (Decidable (_ ∧ _))

/-- The age in seconds is below 2^63; if it equals the limit in whole seconds, then
the clock is not later within its second than the limit; and for a limit below a second
the timestamp is the current second. -/
def Punctual (maxAge timestamp : Int64) (now : Instant) : Prop :=
  now.sec.toInt - timestamp.toInt < 2 ^ 63 ∧
    (now.sec.toInt - timestamp.toInt = maxAge.toInt / 1000000000 →
      (now.nsec : Int) ≤ maxAge.toInt % 1000000000) ∧
    (maxAge.toInt < 1000000000 → timestamp = now.sec)

instance (maxAge timestamp : Int64) (now : Instant) : Decidable (Punctual maxAge timestamp now) :=
  inferInstanceAs (Decidable (_ ∧ (_ → _) ∧ (_ → _)))

theorem toInt_wholeSeconds {maxAge : Int64} (hmaxAge : 0 < maxAge) :
    (wholeSeconds maxAge).toInt64.toInt = maxAge.toInt / 1000000000 := by
  have hpos : 0 < maxAge.toInt := Int64.lt_iff_toInt_lt.mp hmaxAge
  have hlt := maxAge.toInt_lt
  have hsecond : (1000000000 : Int64).toInt = 1000000000 := rfl
  rw [wholeSeconds, if_pos hmaxAge, Int64.toInt64_toUInt64, Int64.toInt_div, hsecond,
    Int.tdiv_eq_ediv_of_nonneg hpos.le]
  exact Int.bmod_eq_of_le_mul_two (by omega) (by omega)

theorem wholeSeconds_pos_iff {maxAge : Int64} (hmaxAge : 0 < maxAge) :
    0 < wholeSeconds maxAge ↔ 1000000000 ≤ maxAge.toInt := by
  have hseconds := toInt_wholeSeconds hmaxAge
  have hzero : wholeSeconds maxAge = 0 ↔ maxAge.toInt / 1000000000 = 0 := by
    rw [← hseconds]
    constructor
    · intro h
      rw [h]
      rfl
    · intro h
      have hsame : (wholeSeconds maxAge).toInt64 = (0 : UInt64).toInt64 := Int64.toInt_inj.mp h
      exact congrArg Int64.toUInt64 hsame
  have hpos : 0 < maxAge.toInt := Int64.lt_iff_toInt_lt.mp hmaxAge
  rw [UInt64.pos_iff_ne_zero, ne_eq, hzero]
  omega

/-- The check lets exactly the punctual timestamps be in time. -/
theorem inTime_of_fresh_iff {maxAge timestamp : Int64} {now : Instant} (hmaxAge : 0 < maxAge) :
    (Fresh (wholeSeconds maxAge) timestamp now.sec → InTime maxAge timestamp now) ↔
      Punctual maxAge timestamp now := by
  have hnsec := now.nsec.isLt
  have hpos : 0 < maxAge.toInt := Int64.lt_iff_toInt_lt.mp hmaxAge
  have hmax := maxAge.toInt_lt
  have hnow := now.sec.toInt_lt
  have hnow' := now.sec.le_toInt
  have hts := timestamp.toInt_lt
  have hts' := timestamp.le_toInt
  have hsec : timestamp = now.sec ↔ timestamp.toInt = now.sec.toInt :=
    Int64.toInt_inj.symm
  unfold Fresh Punctual InTime age
  rw [wholeSeconds_pos_iff hmaxAge, hsec]
  by_cases hlong : 1000000000 ≤ maxAge.toInt
  · rw [Int64.le_iff_toInt_le, Int64.le_iff_toInt_le, toInt_wholeSeconds hmaxAge,
      Int64.toInt_sub, Int.bmod_def]
    omega
  · simp only [hlong, false_implies, true_implies]
    omega

/-- A verifier that accepts the authentic and fresh values accepts no value out of time
if and only if the timestamps of authentic values are punctual. -/
theorem inTime_of_accepted_iff {maxAge : Int64} {now : Instant} (hmaxAge : 0 < maxAge)
    {stamped authentic : Int64 → Prop} (hstamped : ∀ ts, authentic ts → stamped ts)
    (hunique : ∀ ts ts', stamped ts → stamped ts' → ts = ts') {accepted : Prop}
    (haccepted : accepted ↔
      ∃ ts, authentic ts ∧ Fresh (wholeSeconds maxAge) ts now.sec) :
    (accepted → ∀ ts, stamped ts → InTime maxAge ts now) ↔
      ∀ ts, authentic ts → Punctual maxAge ts now := by
  rw [haccepted]
  constructor
  · intro hin ts hauth
    rw [← inTime_of_fresh_iff hmaxAge]
    exact fun hfresh => hin ⟨ts, hauth, hfresh⟩ ts (hstamped ts hauth)
  · rintro hpunctual ⟨ts, hauth, hfresh⟩ ts' hts'
    rw [hunique ts' ts hts' (hstamped ts hauth)]
    exact (inTime_of_fresh_iff hmaxAge).mpr (hpunctual ts hauth) hfresh

section Stamps

/-- The timestamp an envelope carries. -/
def EnvelopeStamp (envelope : Bytes) (timestamp : Int64) : Prop :=
  ∃ signature, parseEnvelope envelope = .ok (timestamp, signature)

/-- The timestamp a cookie value carries. -/
def CookieStamp (signed : Bytes) (timestamp : Int64) : Prop :=
  ∃ version encoded stamp signature,
    signed.splitOn dot = [version, encoded, stamp, signature] ∧
      parseInt stamp = some timestamp

theorem EnvelopeStamp.unique {envelope : Bytes} {ts ts' : Int64}
    (hts : EnvelopeStamp envelope ts) (hts' : EnvelopeStamp envelope ts') : ts = ts' := by
  obtain ⟨signature, hparse⟩ := hts
  obtain ⟨signature', hparse'⟩ := hts'
  cases hparse.symm.trans hparse'
  rfl

theorem CookieStamp.unique {signed : Bytes} {ts ts' : Int64}
    (hts : CookieStamp signed ts) (hts' : CookieStamp signed ts') : ts = ts' := by
  obtain ⟨version, encoded, stamp, signature, hsplit, hstamp⟩ := hts
  obtain ⟨version', encoded', stamp', signature', hsplit', hstamp'⟩ := hts'
  cases hsplit.symm.trans hsplit'
  cases hstamp.symm.trans hstamp'
  rfl

variable (hmac : Hmac) (secret : Bytes)

/-- The envelope is signed for the payload at this time. -/
def EnvelopeSigned (kind payload envelope : Bytes) (timestamp : Int64) : Prop :=
  ∃ signature, parseEnvelope envelope = .ok (timestamp, signature) ∧
    verifyHMACHex hmac secret (envelopeMessage kind timestamp payload) signature = true

/-- The cookie value is signed at this time and its token can be decoded. -/
def CookieSigned (signed : Bytes) (timestamp : Int64) : Prop :=
  ∃ encoded stamp signature token,
    signed.splitOn dot = [sessionCookieVer, encoded, stamp, signature] ∧
      parseInt stamp = some timestamp ∧
      verifyHMACHex hmac secret (sessionCookieMessage encoded timestamp) signature = true ∧
      decodeRawURL encoded = some token

variable {hmac secret}

theorem EnvelopeSigned.stamp {kind payload envelope : Bytes} {ts : Int64}
    (hsigned : EnvelopeSigned hmac secret kind payload envelope ts) :
    EnvelopeStamp envelope ts := by
  obtain ⟨signature, hparse, -⟩ := hsigned
  exact ⟨signature, hparse⟩

theorem CookieSigned.stamp {signed : Bytes} {ts : Int64}
    (hsigned : CookieSigned hmac secret signed ts) : CookieStamp signed ts := by
  obtain ⟨encoded, stamp, signature, token, hsplit, hstamp, -⟩ := hsigned
  exact ⟨_, encoded, stamp, signature, hsplit, hstamp⟩

theorem verifyEnvelope_eq_true_iff {kind payload envelope : Bytes} {maxAge : Int64}
    {now : Instant} :
    verifyEnvelope hmac kind secret payload envelope maxAge now = true ↔
      ∃ ts, EnvelopeSigned hmac secret kind payload envelope ts ∧
        Fresh (wholeSeconds maxAge) ts now.sec := by
  rw [verifyEnvelope, cVerifyEnvelope_eq_true_iff]
  constructor
  · rintro ⟨ts, signature, hparse, hfresh, hverify⟩
    exact ⟨ts, ⟨signature, hparse, hverify⟩, hfresh⟩
  · rintro ⟨ts, ⟨signature, hparse, hverify⟩, hfresh⟩
    exact ⟨ts, signature, hparse, hfresh, hverify⟩

theorem verifySessionCookieValue_ok_iff {signed : Bytes} {maxAge : Int64} {now : Instant} :
    (∃ token, verifySessionCookieValue hmac secret signed maxAge now = .ok token) ↔
      ∃ ts, CookieSigned hmac secret signed ts ∧
        Fresh (wholeSeconds maxAge) ts now.sec := by
  unfold verifySessionCookieValue
  constructor
  · rintro ⟨token, hverify⟩
    obtain ⟨encoded, stamp, signature, ts, hsplit, hstamp, hfresh, hsigned, hdecode⟩ :=
      cVerifySessionCookie_eq_ok_iff.mp hverify
    exact ⟨ts, ⟨encoded, stamp, signature, token, hsplit, hstamp, hsigned, hdecode⟩, hfresh⟩
  · rintro ⟨ts, ⟨encoded, stamp, signature, token, hsplit, hstamp, hsigned, hdecode⟩, hfresh⟩
    exact ⟨token, cVerifySessionCookie_eq_ok_iff.mpr ⟨encoded, stamp, signature, ts,
      hsplit, hstamp, hfresh, hsigned, hdecode⟩⟩

end Stamps

/-- Accepted values are in time exactly if the timestamp of every signed value is
punctual, for envelopes, for cookies and for identity headers. -/
theorem accepted_in_time_iff (tables : CaseTables) (hmac : Hmac) (secret : Bytes)
    (maxAge : Int64) (hmaxAge : 0 < maxAge) (now : Instant) :
    (∀ kind payload envelope,
      (verifyEnvelope hmac kind secret payload envelope maxAge now = true →
        ∀ ts, EnvelopeStamp envelope ts → InTime maxAge ts now) ↔
      ∀ ts, EnvelopeSigned hmac secret kind payload envelope ts → Punctual maxAge ts now) ∧
    (∀ signed,
      ((∃ token, verifySessionCookieValue hmac secret signed maxAge now = .ok token) →
        ∀ ts, CookieStamp signed ts → InTime maxAge ts now) ↔
      ∀ ts, CookieSigned hmac secret signed ts → Punctual maxAge ts now) ∧
    (∀ header names envelope,
      (verifyIdentityHeaders tables hmac secret header names envelope maxAge now = true →
        ∀ ts, EnvelopeStamp envelope ts → InTime maxAge ts now) ↔
      ∀ ts, EnvelopeSigned hmac secret identityEnvelopeKind
          (canonicalHeaderPayload tables header names) envelope ts →
        Punctual maxAge ts now) := by
  have henvelope : ∀ kind payload envelope,
      (verifyEnvelope hmac kind secret payload envelope maxAge now = true →
        ∀ ts, EnvelopeStamp envelope ts → InTime maxAge ts now) ↔
      ∀ ts, EnvelopeSigned hmac secret kind payload envelope ts →
        Punctual maxAge ts now :=
    fun kind payload envelope => inTime_of_accepted_iff hmaxAge
      (fun ts hsigned => hsigned.stamp) (fun ts ts' => EnvelopeStamp.unique)
      verifyEnvelope_eq_true_iff
  refine ⟨henvelope, fun signed => ?_, fun header names envelope => henvelope _ _ _⟩
  exact inTime_of_accepted_iff hmaxAge (fun ts hsigned => hsigned.stamp)
    (fun ts ts' => CookieStamp.unique) verifySessionCookieValue_ok_iff

section Sample

/-- An envelope of the time 5, read at the time 30 with a limit of a minute. -/
theorem recent_envelope_in_time :
    ∃ envelope, signEnvelope plainHmac [107] [1] [112] ⟨5, 0⟩ = .ok envelope ∧
      verifyEnvelope plainHmac [107] [1] [112] envelope 60000000000 ⟨30, 0⟩ = true ∧
      ∀ ts, EnvelopeStamp envelope ts → InTime 60000000000 ts ⟨30, 0⟩ := by
  refine ⟨_, rfl, by decide, ?_⟩
  refine ((accepted_in_time_iff ⟨id, id⟩ plainHmac [1] 60000000000 (by decide)
    ⟨30, 0⟩).1 [107] [112] _).mpr (fun ts hsigned => ?_) (by decide)
  have hts : ts = 5 :=
    EnvelopeStamp.unique hsigned.stamp ⟨_, rfl⟩
  subst hts
  decide

/-- A limit of half a second is none, and an age of 2^63 seconds is negative. -/
theorem old_envelopes_accepted :
    (∃ envelope, signEnvelope plainHmac [107] [1] [112] ⟨0, 0⟩ = .ok envelope ∧
      verifyEnvelope plainHmac [107] [1] [112] envelope 500000000 ⟨1000000, 0⟩ = true ∧
      EnvelopeStamp envelope 0 ∧ ¬ InTime 500000000 0 ⟨1000000, 0⟩) ∧
    (∃ envelope, signEnvelope plainHmac [107] [1] [112] ⟨Int64.minValue, 0⟩ = .ok envelope ∧
      verifyEnvelope plainHmac [107] [1] [112] envelope 60000000000 ⟨30, 0⟩ = true ∧
      EnvelopeStamp envelope Int64.minValue ∧
      ¬ InTime 60000000000 Int64.minValue ⟨30, 0⟩) :=
  ⟨⟨_, rfl, by decide, ⟨_, rfl⟩, by decide⟩,
    ⟨_, rfl, by decide, ⟨_, rfl⟩, by decide⟩⟩

end Sample

end Aegion.Crypto
