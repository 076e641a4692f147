/-
How an access token is recognised.  A token read back from its compact form
carries the claims of its row, so its JTI leads to that row; the token itself
contains dots, which no identifier the server generates does.
-/
import Aegion.OAuthLaws

namespace Aegion

namespace OAuth

open Go Service History

/-- What the JSON codec and the signature scheme are documented to do. -/
structure Platform.Sound (platform : Platform) : Prop where
  unmarshal_marshal : ∀ members : List (String × Json),
    (members.map Prod.fst).Nodup →
      ∃ read, platform.unmarshal (platform.marshal members) = some read ∧
        ∀ key, read.lookup key = members.lookup key
  verify_sign : ∀ nonce message,
    platform.verifyBytes message (platform.signBytes nonce message) = true

namespace JWT

theorem lookup_textMember_of_ne {key name value : String} (hne : key ≠ name) :
    (textMember name value).lookup key = none := by
  unfold textMember
  split <;> simp [List.lookup_cons, beq_false_of_ne hne]

theorem lookup_numberMember_of_ne {key name : String} {value : Int}
    (hne : key ≠ name) : (numberMember name value).lookup key = none := by
  unfold numberMember
  split <;> simp [List.lookup_cons, beq_false_of_ne hne]

theorem textOf_lookup_textMember (name value : String) :
    textOf ((textMember name value).lookup name) = value := by
  by_cases hvalue : value = "" <;> simp [textMember, hvalue, textOf]

theorem numberToInt64_lookup_numberMember (name : String) (value : Int) :
    numberToInt64 ((numberMember name value).lookup name) = value := by
  by_cases hvalue : value = 0 <;> simp [numberMember, hvalue, numberToInt64]

/-- A custom claim cannot pass for a reserved one. -/
theorem lookup_custom {key : String} (hreserved : key ∈ reservedClaimNames)
    (custom : List (String × Json)) :
    (custom.filter fun member => !decide (member.1 ∈ reservedClaimNames)).lookup key = none := by
  rw [List.lookup_eq_none_iff]
  intro member hmember
  have hfree := (List.mem_filter.mp hmember).2
  simp only [Bool.not_eq_true', decide_eq_false_iff_not] at hfree
  rw [bne_iff_ne]
  rintro rfl
  exact hfree hreserved

/-- Claims survive their JSON form. -/
theorem ofMembers_eq {c : Claims} {read : List (String × Json)}
    (hread : ∀ key, read.lookup key = c.members.lookup key) :
    (Claims.ofMembers read).issuer = c.issuer ∧
      (Claims.ofMembers read).subject = c.subject ∧
      (Claims.ofMembers read).expiresAt = c.expiresAt ∧
      (Claims.ofMembers read).notBefore = c.notBefore ∧
      (Claims.ofMembers read).jwtID = c.jwtID := by
  have hiss := lookup_custom (by decide : "iss" ∈ reservedClaimNames) c.custom
  have hsub := lookup_custom (by decide : "sub" ∈ reservedClaimNames) c.custom
  have hexp := lookup_custom (by decide : "exp" ∈ reservedClaimNames) c.custom
  have hnbf := lookup_custom (by decide : "nbf" ∈ reservedClaimNames) c.custom
  have hjti := lookup_custom (by decide : "jti" ∈ reservedClaimNames) c.custom
  simp [Claims.ofMembers, hread, Claims.members, List.lookup_append,
    lookup_textMember_of_ne, lookup_numberMember_of_ne, textOf_lookup_textMember,
    numberToInt64_lookup_numberMember, hiss, hsub, hexp, hnbf, hjti]

/-- The names of a claim set are distinct if its custom ones are. -/
theorem members_nodup {c : Claims} (hcustom : (c.custom.map Prod.fst).Nodup) :
    (c.members.map Prod.fst).Nodup := by
  have htext : ∀ name value,
      ((textMember name value).map Prod.fst).Sublist [name] := by
    intro name value
    unfold textMember
    split <;> simp
  have hnumber : ∀ name value,
      ((numberMember name value).map Prod.fst).Sublist [name] := by
    intro name value
    unfold numberMember
    split <;> simp
  have hnames : (c.members.map Prod.fst).Sublist (reservedClaimNames ++
      (c.custom.filter fun member => member.1 ∉ reservedClaimNames).map
        Prod.fst) := by
    simp only [Claims.members, List.map_append]
    refine List.Sublist.append ?_ (List.Sublist.refl _)
    exact ((((((((htext _ _).append (htext _ _)).append (htext _ _)).append
      (hnumber _ _)).append (hnumber _ _)).append (hnumber _ _)).append
        (htext _ _)).append (htext _ _))
  refine hnames.nodup ?_
  rw [List.nodup_append']
  refine ⟨by decide, hcustom.sublist (List.filter_sublist.map _), ?_⟩
  intro name hreserved hname
  obtain ⟨member, hmember, rfl⟩ := List.mem_map.mp hname
  exact of_decide_eq_true (List.mem_filter.mp hmember).2 hreserved

variable {platform : Platform}

theorem dot_notMem_encodeRawURL (bytes : List UInt8) :
    '.' ∉ (Base64.encodeRawURL bytes).toList := by
  intro hdot
  exact absurd (Base64.mem_encodeRawURL hdot) (by decide)

/-- A token has three parts. -/
theorem split_compact (c : Claims) (nonce : List UInt8) :
    split (compact platform c nonce) '.' =
      [Base64.encodeRawURL (platform.marshal (headerMembers platform.algorithm platform.keyID)),
        Base64.encodeRawURL (platform.marshal c.members),
        Base64.encodeRawURL (platform.signBytes nonce (bytesOf (signingInput platform c)))] := by
  have hdot : ".".toList = ['.'] := by decide
  simp only [split, compact]
  rw [signingInput, String.toList_append, String.toList_append,
    String.toList_append, String.toList_append, hdot]
  simp only [List.append_assoc, List.cons_append, List.nil_append]
  rw [List.splitOn_append_cons_self_of_not_mem (dot_notMem_encodeRawURL _),
    List.splitOn_append_cons_self_of_not_mem (dot_notMem_encodeRawURL _),
    List.splitOn_eq_singleton (dot_notMem_encodeRawURL _)]
  simp

/-- A signed token is read back as the claims it was signed over. -/
theorem readToken_compact (hsound : platform.Sound) {c : Claims}
    (hcustom : (c.custom.map Prod.fst).Nodup) (nonce : List UInt8) :
    ∃ result, readToken platform (compact platform c nonce) = .ok result ∧
      result.claims.issuer = c.issuer ∧ result.claims.subject = c.subject ∧
      result.claims.expiresAt = c.expiresAt ∧
      result.claims.notBefore = c.notBefore ∧ result.claims.jwtID = c.jwtID := by
  obtain ⟨read, hread, hlookup⟩ :=
    hsound.unmarshal_marshal c.members (members_nodup hcustom)
  have hheader : ((headerMembers platform.algorithm platform.keyID).map Prod.fst).Nodup := by
    unfold headerMembers textMember
    split <;> simp
  obtain ⟨header, hheaderRead, hheaderLookup⟩ :=
    hsound.unmarshal_marshal _ hheader
  refine ⟨⟨Claims.ofMembers read, textOf (header.lookup "kid")⟩, ?_, ofMembers_eq hlookup⟩
  have halg : textOf (header.lookup "alg") = platform.algorithm := by
    rw [hheaderLookup]
    rfl
  have hverify := hsound.verify_sign nonce (bytesOf (signingInput platform c))
  unfold signingInput at hverify
  simp only [readToken, split_compact, Base64.decodeRawURL_encodeRawURL,
    Option.bind_some, hread, hheaderRead, halg, ne_eq, not_true_eq_false,
    ↓reduceIte, signingInput, hverify, Bool.true_eq_false]

end JWT

section Rows

variable {platform : Platform} {jwt : String} {row row' : AccessToken}

/-- A token names the JTI, the subject, the issuer and the expiry of its row. -/
theorem SignedFor.read (hsigned : SignedFor platform jwt row) (hsound : platform.Sound) :
    ∃ result, JWT.readToken platform jwt = .ok result ∧
      result.claims.issuer = row.issuer ∧ result.claims.subject = row.subject ∧
      result.claims.expiresAt = unix row.expiresAt ∧
      result.claims.notBefore = 0 ∧ result.claims.jwtID = row.jti := by
  obtain ⟨audience, issuedAt, nonce, rfl⟩ := hsigned
  have hcustom : ((row.claims audience issuedAt).custom.map Prod.fst).Nodup := by
    simp [AccessToken.claims]
  exact JWT.readToken_compact hsound hcustom nonce

theorem SignedFor.jti_eq (hsigned : SignedFor platform jwt row)
    (hsigned' : SignedFor platform jwt row') (hsound : platform.Sound) : row.jti = row'.jti := by
  obtain ⟨result, hread, -, -, -, -, hjti⟩ := hsigned.read hsound
  obtain ⟨result', hread', -, -, -, -, hjti'⟩ := hsigned'.read hsound
  rw [hread] at hread'
  cases hread'
  exact hjti.symm.trans hjti'

theorem SignedFor.dot_mem (hsigned : SignedFor platform jwt row) : '.' ∈ jwt.toList := by
  obtain ⟨audience, issuedAt, nonce, rfl⟩ := hsigned
  simp [JWT.compact]

theorem SignedFor.not_blank (hsigned : SignedFor platform jwt row) : blank jwt = false :=
  not_blank_of_mem hsigned.dot_mem (by decide)

theorem SignedFor.of_terms_eq (hsigned : SignedFor platform jwt row)
    (hterms : row'.terms = row.terms) : SignedFor platform jwt row' := by
  obtain ⟨audience, issuedAt, nonce, rfl⟩ := hsigned
  have hclaims : row'.claims audience issuedAt = row.claims audience issuedAt := by
    change row'.terms.claims audience issuedAt = row.terms.claims audience issuedAt
    rw [hterms]
  exact ⟨audience, issuedAt, nonce, by rw [hclaims]⟩

/-- The form of a JTI: letters, digits, hyphens and underscores. -/
def IsJTI (jti : String) : Prop :=
  jti ≠ "" ∧ ∀ c ∈ jti.toList, Base64.IsDigit c

theorem Minted.isJTI (hminted : Minted platform row jwt) : IsJTI row.jti := by
  obtain ⟨bytes, hjti⟩ := hminted.jti
  rw [hjti]
  constructor
  · intro hempty
    have hlength := congrArg String.length hempty
    simp at hlength
  · intro c hc
    rw [String.toList_append, List.mem_append] at hc
    rcases hc with hstart | hrest
    · exact Base64.isDigit_of_mem (by decide) hstart
    · exact Base64.mem_encodeRawURL hrest

theorem IsJTI.trimSpace_eq {jti : String} (hjti : IsJTI jti) : trimSpace jti = jti :=
  trimSpace_eq_self fun c hc => Base64.isSpace_of_isDigit (hjti.2 c hc)

/-- A token is never the JTI of a row. -/
theorem IsJTI.ne_token {jti : String} (hjti : IsJTI jti)
    (hsigned : SignedFor platform jwt row) : jti ≠ jwt := by
  rintro rfl
  exact absurd (hjti.2 _ hsigned.dot_mem) (by decide)

end Rows

/-- The access token a response carries, and the scope it announces. -/
def Response.grant : Response → Option (String × String)
  | .tokens resp => some (resp.accessToken, resp.scope)
  | .accessToken resp => some (resp.accessToken, resp.scope)
  | _ => none

/-- The grants that end in `issueTokens`, which stores the fingerprint of the
token. -/
def Request.storesFingerprint : Request → Bool
  | .exchangeAuthorizationCode _ => true
  | .refreshAccessToken .. => true
  | .exchangeDeviceCode _ => true
  | .deviceCodeGrant _ => true
  | _ => false

/-- The row of a granted token. -/
structure Recorded (platform : Platform) (request : Request)
    (jwt scope : String) (row : AccessToken) : Prop where
  signed : SignedFor platform jwt row
  signature : row.signature = if request.storesFingerprint then
    some (accessTokenSignature platform jwt) else none
  scope : request.storesFingerprint = true → scope = join row.scopes " "

section Granted

variable {platform : Platform} {db : Database} {history : Trace}

theorem storesFingerprint_of_basis {request : Request} {past : Past} {g : Grant}
    (hbasis : Basis platform request past g) : request.storesFingerprint = true := by
  cases request <;> first | rfl | exact hbasis.elim

theorem not_storesFingerprint_of_plain {request : Request} {past : Past}
    {client : Client} (hbasis : PlainBasis platform request past client) :
    request.storesFingerprint = false := by
  cases request <;> first | rfl | exact hbasis.elim

/-- What a thread inserted is still there, but for a revocation. -/
theorem accessToken_persists (hlaw : Lawful platform db history) {thread : Nat}
    {request : Request} {step : Step Reply Response} {past : Trace}
    {row : AccessToken} (hentry : ⟨thread, request, step⟩ :: past <:+ history)
    (hinsert : ⟨.insertAccessToken row, .ok ()⟩ ∈ own thread past) :
    ∃ row' ∈ (tablesAfter db history).accessTokens.rows,
      row'.terms = row.terms := by
  obtain ⟨before, -, hbefore⟩ := hlaw.earlier_suffix hentry hinsert
  obtain ⟨row', hrow', hterms, -⟩ := accessTokenLedger.insert_persists
    hlaw.answers hbefore List.suffix_rfl ⟨_, rfl, rfl⟩
  exact ⟨row', hrow', hterms⟩

/-- A granted token has its row, now and for good. -/
theorem recorded_of_grant (hlaw : Lawful platform db history) {thread : Nat}
    {request : Request} {response : Response} {jwt scope : String}
    (hanswer : (thread, request, response) ∈ answers history)
    (hgrant : response.grant = some (jwt, scope)) :
    ∃ row ∈ (tablesAfter db history).accessTokens.rows,
      Recorded platform request jwt scope row := by
  obtain ⟨past, hentry⟩ := exists_past_of_mem (mem_answers_iff.mp hanswer)
  cases response with
  | tokens resp =>
      cases hgrant
      obtain ⟨⟨g, hissued⟩, -⟩ := hlaw.answer hentry
      obtain ⟨row, hinsert, hfor⟩ := hissued.row
      obtain ⟨row', hrow', hterms⟩ := accessToken_persists hlaw hentry hinsert
      have hstores := storesFingerprint_of_basis hissued.basis
      refine ⟨row', hrow', hfor.signed.of_terms_eq hterms, ?_, fun _ => ?_⟩
      · rw [if_pos hstores]
        exact (congrArg AccessToken.signature hterms).trans hfor.signature
      · have hscopes := (congrArg AccessToken.scopes hterms).trans hfor.scopes
        exact hissued.scope.trans (congrArg (join · " ") hscopes.symm)
  | accessToken resp =>
      cases hgrant
      obtain ⟨client, row, hbasis, hinsert, hplain⟩ := hlaw.answer hentry
      obtain ⟨row', hrow', hterms⟩ := accessToken_persists hlaw hentry hinsert
      have hstores := not_storesFingerprint_of_plain hbasis
      refine ⟨row', hrow', hplain.signed.of_terms_eq hterms, ?_, ?_⟩
      · rw [hstores]
        exact (congrArg AccessToken.signature hterms).trans hplain.signature
      · intro hstores'
        rw [hstores] at hstores'
        cases hstores'
  | _ => cases hgrant

/-- Every row is as the grants write it. -/
theorem minted_of_row (hlaw : Lawful platform db history)
    (hempty : db.accessTokens.rows = []) {row : AccessToken}
    (hrow : row ∈ (tablesAfter db history).accessTokens.rows) :
    IsJTI row.jti ∧ row.issuer = platform.issuer := by
  obtain ⟨thread, request, call, past, first, hentry, rfl, hterms, -⟩ :=
    accessTokenLedger.origin_of_empty hempty hrow
  have hminted : ∃ jwt, Minted platform first jwt := by
    rcases hlaw.duty hentry with ⟨g, jwt, -, hissued⟩ | ⟨client, jwt, -, hplain⟩
    · exact ⟨jwt, hissued.toMinted⟩
    · exact ⟨jwt, hplain.toMinted⟩
  obtain ⟨jwt, hminted⟩ := hminted
  refine ⟨?_, (congrArg AccessToken.issuer hterms).trans hminted.issuer⟩
  change IsJTI row.terms.jti
  rw [hterms]
  exact hminted.isJTI

end Granted

end OAuth

end Aegion
