/-
What a token says about its audience and its subject.  The claims of an access
token agree with its row but for the audience, of which only the first member is
signed.  A pairwise subject hashes three texts put together with a bar.
-/
import Aegion.AuthorizationCodeBinding
import Aegion.Delimited
import Aegion.TokenIdentity

namespace Aegion.OAuth

open Go History

/-- The claims and the row describe one token.  A claim without audience has none, since
an empty text is left out of the token. -/
structure Agrees (claims : JWT.Claims) (row : AccessToken) : Prop where
  issuer : claims.issuer = row.issuer
  subject : claims.subject = row.subject
  audience : ∀ name, name ∈ row.audience ↔ name ≠ "" ∧ name = claims.audience
  expiry : claims.expiresAt = unix row.expiresAt
  jti : claims.jwtID = row.jti
  client : claims.custom.lookup "client_id" = some (.string row.clientID)
  scope : claims.custom.lookup "scope" = some (.string (join row.scopes " "))

/-- The audience has one member, possibly more than once, or none. -/
def SoleAudience (audience : List String) : Prop :=
  ∀ name ∈ audience, name ≠ "" ∧ name = audience.headD ""

theorem mem_of_headD_ne {audience : List String} (hne : audience.headD "" ≠ "") :
    audience.headD "" ∈ audience := by
  cases audience with
  | nil => exact absurd rfl hne
  | cons name rest => exact List.mem_cons_self

/-- The claims over the first member agree with the row if there is no other. -/
theorem agrees_iff (row : AccessToken) (issuedAt : Int) :
    Agrees (row.claims (row.audience.headD "") issuedAt) row ↔ SoleAudience row.audience := by
  constructor
  · intro hagrees name hname
    exact (hagrees.audience name).mp hname
  · intro hsole
    refine ⟨rfl, rfl, fun name => ⟨hsole name, ?_⟩, rfl, rfl, rfl, rfl⟩
    rintro ⟨hne, heq⟩
    change name = row.audience.headD "" at heq
    rw [heq] at hne ⊢
    exact mem_of_headD_ne hne

theorem SignedFirst.of_terms_eq {platform : Platform} {jwt : String} {row other : AccessToken}
    (hsigned : SignedFirst platform jwt other) (hterms : row.terms = other.terms) :
    SignedFirst platform jwt row := by
  obtain ⟨issuedAt, nonce, hjwt⟩ := hsigned
  refine ⟨issuedAt, nonce, hjwt.trans ?_⟩
  change JWT.compact platform (other.terms.claims (other.terms.audience.headD "") issuedAt)
    nonce = JWT.compact platform (row.terms.claims (row.terms.audience.headD "") issuedAt) nonce
  rw [hterms]

/-- Every access token that was granted has its row, now and for good. -/
theorem signedFirst_of_grant {platform : Platform} {db : Database} {history : Trace}
    (hlaw : Lawful platform db history) {thread : Nat} {request : Request}
    {response : Response} {jwt scope : String}
    (hanswer : (thread, request, response) ∈ answers history)
    (hgrant : response.grant = some (jwt, scope)) :
    ∃ row ∈ (tablesAfter db history).accessTokens.rows, SignedFirst platform jwt row := by
  obtain ⟨past, hentry⟩ := exists_past_of_mem (mem_answers_iff.mp hanswer)
  have hminted : ∃ row, ⟨.insertAccessToken row, .ok ()⟩ ∈ own thread past ∧
      Minted platform row jwt := by
    cases response with
    | tokens resp =>
        cases hgrant
        obtain ⟨⟨g, hissued⟩, -⟩ := hlaw.answer hentry
        obtain ⟨row, hinsert, hfor⟩ := hissued.row
        exact ⟨row, hinsert, hfor.toMinted⟩
    | accessToken resp =>
        cases hgrant
        obtain ⟨client, row, -, hinsert, hplain⟩ := hlaw.answer hentry
        exact ⟨row, hinsert, hplain.toMinted⟩
    | _ => cases hgrant
  obtain ⟨first, hinsert, hfirst⟩ := hminted
  obtain ⟨row, hrow, hterms⟩ := accessToken_persists hlaw hentry hinsert
  exact ⟨row, hrow, hfirst.signedFirst.of_terms_eq hterms⟩

/-- Signed claims and stored tokens.  In every run, an access token that was granted,
alone or in a token set, is signed over claims that agree with its row exactly if its
audience has at most one member. -/
theorem signed_claims_agree_iff (platform : Platform) (config : DeviceConfig) (db : Database)
    (actions : Schedule) {thread : Nat} {request : Request}
    {response : Response} {jwt scope : String}
    (hanswer : (thread, request, response) ∈ answers (runFrom platform config db actions))
    (hgrant : response.grant = some (jwt, scope)) :
    ∃ row ∈ (tablesOf platform config db actions).accessTokens.rows, ∃ claims nonce,
      jwt = JWT.compact platform claims nonce ∧ claims.jwtID = row.jti ∧
        (Agrees claims row ↔ SoleAudience row.audience) := by
  rw [tablesOf_eq]
  obtain ⟨row, hrow, issuedAt, nonce, hjwt⟩ :=
    signedFirst_of_grant (lawful_of_run platform config db actions) hanswer hgrant
  exact ⟨row, hrow, _, nonce, hjwt, rfl, agrees_iff row issuedAt⟩

/-- The sample flow for two resource servers. -/
def twoAudienceFlow : Schedule :=
  served 0 (.startAuthorization { sampleStart with audience := ["api", "admin"] }) 1 1 ++
    served 1 (.acceptLogin sampleLoginID "alice" "") 2 2 ++
    served 2 (.acceptConsentForIdentity sampleConsentID "alice"
      ["read", "offline_access"] false none) 3 3 ++
    served 3 (.exchangeAuthorizationCode sampleExchange) 4 4

theorem twoAudienceFlow_run :
    (∃ answer ∈ answers (sampleRun twoAudienceFlow),
      answer.2.2.grant.isSome = true) ∧
    ∀ row ∈ (tablesOf samplePlatform sampleConfig sampleTables twoAudienceFlow).accessTokens.rows,
      row.audience = ["api", "admin"] := by
  decide +kernel

/-- The second resource server is missing from the token. -/
theorem second_audience_unsigned :
    ∃ thread request response jwt scope,
      (thread, request, response) ∈ answers (sampleRun twoAudienceFlow) ∧
      response.grant = some (jwt, scope) ∧
      ∃ row ∈ (tablesOf samplePlatform sampleConfig sampleTables twoAudienceFlow).accessTokens.rows,
        ∃ claims nonce,
        jwt = JWT.compact samplePlatform claims nonce ∧ claims.jwtID = row.jti ∧
          row.audience = ["api", "admin"] ∧ claims.audience = "api" ∧ ¬ Agrees claims row := by
  obtain ⟨⟨⟨thread, request, response⟩, hanswer, hgranted⟩, haudience⟩ := twoAudienceFlow_run
  obtain ⟨⟨jwt, scope⟩, hgrant⟩ := Option.isSome_iff_exists.mp hgranted
  obtain ⟨row, hrow, issuedAt, nonce, hjwt⟩ := signedFirst_of_grant
    (lawful_of_run samplePlatform sampleConfig sampleTables twoAudienceFlow) hanswer hgrant
  rw [← tablesOf_eq] at hrow
  have htwo := haudience row hrow
  refine ⟨thread, request, response, jwt, scope, hanswer, hgrant, row, hrow, _, nonce, hjwt,
    rfl, htwo, ?_, ?_⟩
  · show row.audience.headD "" = "api"
    rw [htwo]
    rfl
  · rw [agrees_iff, htwo]
    intro hsole
    exact absurd (hsole "admin" (by decide)).2 (by decide)

theorem twoAudienceFlow_claims :
    ∃ thread request response jwt scope,
      (thread, request, response) ∈ answers (sampleRun twoAudienceFlow) ∧
      response.grant = some (jwt, scope) ∧
      ∃ row ∈ (tablesOf samplePlatform sampleConfig sampleTables twoAudienceFlow).accessTokens.rows,
        ∃ claims nonce,
        jwt = JWT.compact samplePlatform claims nonce ∧ claims.jwtID = row.jti ∧
          (Agrees claims row ↔ SoleAudience row.audience) := by
  obtain ⟨⟨⟨thread, request, response⟩, hanswer, hgranted⟩, -⟩ := twoAudienceFlow_run
  obtain ⟨⟨jwt, scope⟩, hgrant⟩ := Option.isSome_iff_exists.mp hgranted
  exact ⟨thread, request, response, jwt, scope, hanswer, hgrant, signed_claims_agree_iff
    samplePlatform sampleConfig sampleTables twoAudienceFlow hanswer hgrant⟩

section Pairwise

variable {platform : Platform} {client : Client} {identityID : String}

/-- The client asks for pairwise subjects. -/
def Client.isPairwise (platform : Platform) (client : Client) : Bool :=
  platform.tables.toLower (trimSpace client.subjectType) = "pairwise"

/-- The text that is hashed into a pairwise subject. -/
theorem toList_join_three (issuer sector identityID : String) :
    (join [issuer, sector, identityID] "|").toList =
      issuer.toList ++ '|' :: (sector.toList ++ '|' :: identityID.toList) := by
  change (issuer ++ "|" ++ sector ++ "|" ++ identityID).toList = _
  simp only [String.toList_append, List.append_assoc]
  rfl

theorem computePairwiseSubject_inj (hsha : Function.Injective platform.sha256)
    {issuer sector issuer' sector' identityID' : String} :
    computePairwiseSubject platform identityID issuer sector =
        computePairwiseSubject platform identityID' issuer' sector' ↔
      issuer.toList ++ '|' :: (sector.toList ++ '|' :: identityID.toList) =
        issuer'.toList ++ '|' :: (sector'.toList ++ '|' :: identityID'.toList) := by
  rw [← toList_join_three, ← toList_join_three, String.toList_inj]
  constructor
  · intro heq
    exact bytesOf_injective (hsha (Base64.encodeRawURL_injective heq))
  · intro heq
    rw [computePairwiseSubject, heq, computePairwiseSubject]

theorem resolveTokenSubject_of_pairwise (hpairwise : client.isPairwise platform = true)
    (hidentity : blank identityID = false) :
    resolveTokenSubject platform client identityID =
      if resolvePairwiseSector platform client = "" then .error .invalidClient
      else .ok (computePairwiseSubject platform (trimSpace identityID)
        (trimSpace platform.issuer) (resolvePairwiseSector platform client)) := by
  have htype := of_decide_eq_true hpairwise
  have hgiven := of_decide_eq_false hidentity
  simp [resolveTokenSubject, hgiven, htype]

/-- For one identity, pairwise subjects differ exactly where the sectors do. -/
theorem resolveTokenSubject_eq_iff (hsha : Function.Injective platform.sha256)
    {other : Client} (hclient : client.isPairwise platform = true)
    (hother : other.isPairwise platform = true) (hidentity : blank identityID = false) :
    resolveTokenSubject platform client identityID = resolveTokenSubject platform other identityID ↔
      resolvePairwiseSector platform client = resolvePairwiseSector platform other := by
  constructor
  · intro hsame
    rw [resolveTokenSubject_of_pairwise hclient hidentity,
      resolveTokenSubject_of_pairwise hother hidentity] at hsame
    split at hsame <;> split at hsame
    · rename_i hempty hempty'
      rw [hempty, hempty']
    · cases hsame
    · cases hsame
    · have htexts := (computePairwiseSubject_inj hsha).mp (Except.ok.inj hsame)
      rw [List.append_cancel_left_eq, List.cons.injEq, List.append_cancel_right_eq] at htexts
      exact String.toList_inj.mp htexts.2
  · intro hsector
    rw [resolveTokenSubject_of_pairwise hclient hidentity,
      resolveTokenSubject_of_pairwise hother hidentity, hsector]

/-- The first match is the same in every order exactly if all matches are the same. -/
theorem find?_map_perm_iff {α β : Type} [DecidableEq α] {f : α → β} {p : β → Bool} {xs : List α} :
    (∀ ys : List α, ys.Perm xs → (ys.map f).find? p = (xs.map f).find? p) ↔
      ∀ x ∈ xs, ∀ y ∈ xs, p (f x) = true → p (f y) = true → f x = f y := by
  constructor
  · intro hsame
    have hfirst : ∀ x ∈ xs, p (f x) = true → (xs.map f).find? p = some (f x) := by
      intro x hx hp
      rw [← hsame (x :: xs.erase x) (List.perm_cons_erase hx).symm]
      simp [hp]
    intro x hx y hy hpx hpy
    exact Option.some.inj ((hfirst x hx hpx).symm.trans (hfirst y hy hpy))
  · intro hall ys hperm
    cases hfound : (ys.map f).find? p with
    | none =>
        symm
        rw [List.find?_eq_none] at hfound ⊢
        intro value hvalue
        exact hfound value ((hperm.map f).mem_iff.mpr hvalue)
    | some value =>
        obtain ⟨y, hy, rfl⟩ := List.mem_map.mp (List.mem_of_find?_eq_some hfound)
        have hpy := List.find?_some hfound
        have hyx := hperm.mem_iff.mp hy
        obtain ⟨value, hvalue⟩ : ∃ value, (xs.map f).find? p = some value := by
          rw [← Option.isSome_iff_exists, List.find?_isSome]
          exact ⟨f y, List.mem_map_of_mem hyx, hpy⟩
        obtain ⟨x, hx, rfl⟩ := List.mem_map.mp (List.mem_of_find?_eq_some hvalue)
        rw [hvalue, hall x hx y hyx (List.find?_some hvalue) hpy]

/-- The sector identifier URI is usable, or all usable redirect URIs have one sector. -/
def SectorFixed (platform : Platform) (client : Client) : Prop :=
  (∃ uri, client.sectorIdentifierURI = some uri ∧
    normalizeSectorIdentifier platform uri ≠ "") ∨
  ∀ uri ∈ client.redirectURIs, ∀ other ∈ client.redirectURIs,
    normalizeSectorIdentifier platform uri ≠ "" →
    normalizeSectorIdentifier platform other ≠ "" →
      normalizeSectorIdentifier platform uri = normalizeSectorIdentifier platform other

/-- The sector if the sector identifier URI is of no use. -/
theorem resolvePairwiseSector_of_unusable
    (hunusable : ¬ ∃ uri, client.sectorIdentifierURI = some uri ∧
      normalizeSectorIdentifier platform uri ≠ "") :
    resolvePairwiseSector platform client = ((client.redirectURIs.map
      (normalizeSectorIdentifier platform)).find? (· ≠ "")).getD "" := by
  unfold resolvePairwiseSector
  cases hsector : client.sectorIdentifierURI with
  | none => rfl
  | some uri =>
      have hempty : normalizeSectorIdentifier platform uri = "" := by
        by_contra hne
        exact hunusable ⟨uri, hsector, hne⟩
      simp [hempty]

theorem getD_find?_inj {xs ys : List String} :
    (xs.find? (· ≠ "")).getD "" = (ys.find? (· ≠ "")).getD "" ↔
      xs.find? (· ≠ "") = ys.find? (· ≠ "") := by
  refine ⟨fun heq => ?_, fun heq => by rw [heq]⟩
  cases hx : xs.find? (· ≠ "") with
  | none =>
      cases hy : ys.find? (· ≠ "") with
      | none => rfl
      | some y =>
          have hne : y ≠ "" := by simpa using List.find?_some hy
          rw [hx, hy] at heq
          exact absurd heq.symm hne
  | some x =>
      cases hy : ys.find? (· ≠ "") with
      | none =>
          have hne : x ≠ "" := by simpa using List.find?_some hx
          rw [hx, hy] at heq
          exact absurd heq hne
      | some y =>
          rw [hx, hy] at heq
          exact congrArg some heq

/-- The sector is the same for every order of the redirect URIs. -/
theorem sector_perm_iff :
    (∀ uris, uris.Perm client.redirectURIs →
      resolvePairwiseSector platform { client with redirectURIs := uris } =
        resolvePairwiseSector platform client) ↔ SectorFixed platform client := by
  by_cases husable : ∃ uri, client.sectorIdentifierURI = some uri ∧
      normalizeSectorIdentifier platform uri ≠ ""
  · refine iff_of_true ?_ (Or.inl husable)
    obtain ⟨uri, hsector, hne⟩ := husable
    intro uris _
    simp [resolvePairwiseSector, hsector, hne]
  · have hsector : ∀ uris, resolvePairwiseSector platform { client with redirectURIs := uris } =
        ((uris.map (normalizeSectorIdentifier platform)).find? (· ≠ "")).getD "" :=
      fun uris => resolvePairwiseSector_of_unusable husable
    simp only [hsector, getD_find?_inj, find?_map_perm_iff, SectorFixed, husable,
      false_or, decide_eq_true_eq]

end Pairwise

/-- A separator between the texts of the one triple can be moved to give the other. -/
def Collide (triple other : String × String × String) : Prop :=
  let rest (t : String × String × String) := t.2.1.toList ++ '|' :: t.2.2.toList
  triple.1 = other.1 ∧
      (Delimited.Shifts '|' triple.2.1.toList triple.2.2.toList other.2.1.toList other.2.2.toList ∨
        Delimited.Shifts '|' other.2.1.toList other.2.2.toList triple.2.1.toList
          triple.2.2.toList) ∨
    Delimited.Shifts '|' triple.1.toList (rest triple) other.1.toList (rest other) ∨
    Delimited.Shifts '|' other.1.toList (rest other) triple.1.toList (rest triple)

theorem Collide.ne {triple other : String × String × String}
    (hcollide : Collide triple other) : triple ≠ other := by
  rintro rfl
  rcases hcollide with ⟨-, hshift | hshift⟩ | hshift | hshift
  · exact hshift.ne rfl
  · exact hshift.ne rfl
  · exact hshift.ne rfl
  · exact hshift.ne rfl

/-- The hashed texts are the same if the triples are, or they collide. -/
theorem texts_eq_iff (triple other : String × String × String) :
    triple.1.toList ++ '|' :: (triple.2.1.toList ++ '|' :: triple.2.2.toList) =
        other.1.toList ++ '|' :: (other.2.1.toList ++ '|' :: other.2.2.toList) ↔
      triple = other ∨ Collide triple other := by
  rw [Delimited.append_cons_eq_iff, Delimited.append_cons_eq_iff, String.toList_inj,
    String.toList_inj, String.toList_inj, Prod.ext_iff, Prod.ext_iff, Collide]
  tauto

/-- The issuer, the sector and the identity that a pairwise subject stands for. -/
def subjectTriple (platform : Platform) (issuer : String) (client : Client)
    (identityID : String) : String × String × String :=
  (trimSpace issuer, resolvePairwiseSector platform client, trimSpace identityID)

theorem subject_eq_of_resolve {platform : Platform} {client : Client}
    {issuer identityID subject : String} (hclient : client.isPairwise platform = true)
    (hsubject : resolveTokenSubject { platform with issuer := issuer } client identityID =
      .ok subject) :
    subject = computePairwiseSubject platform (trimSpace identityID) (trimSpace issuer)
      (resolvePairwiseSector platform client) := by
  cases hidentity : blank identityID with
  | true =>
      have hempty := of_decide_eq_true hidentity
      simp [resolveTokenSubject, hempty] at hsubject
  | false =>
      have hpairwise : client.isPairwise { platform with issuer := issuer } = true := hclient
      rw [resolveTokenSubject_of_pairwise hpairwise hidentity] at hsubject
      split at hsubject
      · cases hsubject
      · exact (Except.ok.inj hsubject).symm

/-- Pairwise subjects.  The subject of a client does not depend on the order of its
redirect URIs exactly if they leave one sector to choose; and equal subjects stand for
equal triples exactly if moving a bar does not turn the one triple into the other. -/
theorem pairwise_subject_iff (platform : Platform) (hsha : Function.Injective platform.sha256) :
    (∀ client identityID, client.isPairwise platform = true → blank identityID = false →
      ((∀ uris, uris.Perm client.redirectURIs →
        resolveTokenSubject platform { client with redirectURIs := uris } identityID =
          resolveTokenSubject platform client identityID) ↔ SectorFixed platform client)) ∧
    ∀ issuer issuer' client client' identityID identityID' subject subject',
      client.isPairwise platform = true → client'.isPairwise platform = true →
      resolveTokenSubject { platform with issuer := issuer } client identityID =
        .ok subject →
      resolveTokenSubject { platform with issuer := issuer' } client' identityID' =
        .ok subject' →
      ((subject = subject' → subjectTriple platform issuer client identityID =
          subjectTriple platform issuer' client' identityID') ↔
        ¬ Collide (subjectTriple platform issuer client identityID)
          (subjectTriple platform issuer' client' identityID')) := by
  constructor
  · intro client identityID hpairwise hidentity
    rw [← sector_perm_iff]
    refine forall_congr' fun uris => imp_congr_right fun _ => ?_
    exact resolveTokenSubject_eq_iff hsha hpairwise hpairwise hidentity
  · intro issuer issuer' client client' identityID identityID' subject subject' hclient
      hclient' hsubject hsubject'
    have hvalue := subject_eq_of_resolve hclient hsubject
    have hvalue' := subject_eq_of_resolve hclient' hsubject'
    have hiff : subject = subject' ↔
        subjectTriple platform issuer client identityID =
            subjectTriple platform issuer' client' identityID' ∨
          Collide (subjectTriple platform issuer client identityID)
            (subjectTriple platform issuer' client' identityID') := by
      rw [hvalue, hvalue', ← texts_eq_iff]
      exact computePairwiseSubject_inj hsha
    constructor
    · intro hdistinct hcollide
      exact hcollide.ne (hdistinct (hiff.mpr (Or.inr hcollide)))
    · intro hapart hsame
      exact (hiff.mp hsame).resolve_right hapart

/-- A client with pairwise subjects and the given sector identifier. -/
def pairwiseClient (sector : Option String) : Client :=
  { publicClient with
    subjectType := "pairwise"
    sectorIdentifierURI := sector
    redirectURIs := ["one", "two"] }

/-- Swapping two redirect URIs changes the subject, and a bar in a sector can pass for the
one between sector and identity. -/
theorem pairwise_subjects_clash :
    (["two", "one"].Perm (pairwiseClient none).redirectURIs ∧
      resolveTokenSubject samplePlatform
          { pairwiseClient none with redirectURIs := ["two", "one"] } "alice" ≠
        resolveTokenSubject samplePlatform (pairwiseClient none) "alice") ∧
    resolveTokenSubject samplePlatform (pairwiseClient (some "a|b")) "c" =
        resolveTokenSubject samplePlatform (pairwiseClient (some "a")) "b|c" ∧
      (resolveTokenSubject samplePlatform (pairwiseClient (some "a")) "b|c").isOk = true ∧
      subjectTriple samplePlatform "https://id" (pairwiseClient (some "a|b")) "c" ≠
        subjectTriple samplePlatform "https://id" (pairwiseClient (some "a")) "b|c" := by
  decide +kernel

theorem pairwiseClient_subjects :
    Function.Injective samplePlatform.sha256 ∧
    ((∀ uris, uris.Perm (pairwiseClient (some "a")).redirectURIs →
        resolveTokenSubject samplePlatform
            { pairwiseClient (some "a") with redirectURIs := uris } "alice" =
          resolveTokenSubject samplePlatform (pairwiseClient (some "a")) "alice") ↔
      SectorFixed samplePlatform (pairwiseClient (some "a"))) ∧
    ∃ subject subject',
      resolveTokenSubject samplePlatform (pairwiseClient (some "a|b")) "c" = .ok subject ∧
      resolveTokenSubject samplePlatform (pairwiseClient (some "a")) "b|c" = .ok subject' ∧
      ((subject = subject' →
          subjectTriple samplePlatform "https://id" (pairwiseClient (some "a|b")) "c" =
            subjectTriple samplePlatform "https://id" (pairwiseClient (some "a")) "b|c") ↔
        ¬ Collide
          (subjectTriple samplePlatform "https://id" (pairwiseClient (some "a|b")) "c")
          (subjectTriple samplePlatform "https://id" (pairwiseClient (some "a")) "b|c")) := by
  have hsha : Function.Injective samplePlatform.sha256 := Function.injective_id
  obtain ⟨horder, htriples⟩ := pairwise_subject_iff samplePlatform hsha
  refine ⟨hsha, horder _ "alice" (by decide) (by decide), _, _, rfl, rfl, ?_⟩
  exact htriples "https://id" "https://id" _ _ "c" "b|c" _ _ (by decide) (by decide) rfl rfl

end Aegion.OAuth
