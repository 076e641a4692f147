/-
What a validated module token stands for.  Its claims were issued, and the credential
that is stored when it is validated covers them.  A revoked credential stays disabled
until it is rotated; a rotation keeps the id that the tokens name, and so gives the
old tokens back their effect.
-/
import Aegion.ModuleAuth
import Aegion.OAuthTables
import Aegion.WordCodec

namespace Aegion.ModuleAuth

open Go Service History
open Crypto (dot)
open OAuth (Time DBError unix minutes drawBytes mem_inserted_of_mem updated)

abbrev Past := List (Called Reply)

section Duties

variable (platform : Platform) (manager : Manager)

/-- What `Validate` has checked when it accepts: the claims at a clock reading, and
the row against them, with a later clock reading if the row expires. -/
structure Checked (token : Bytes) (audience permission : String) (claims : Claims)
    (row : Credential) (current : Time) (later : Past) : Prop where
  decoded : decodeToken platform manager token = .ok claims
  unexpired : unix current < claims.expiresAt
  audience : claims.audience = trimSpace audience
  permission : permission ∈ claims.permissions
  enabled : row.enabled = true
  live : ∀ expiresAt, row.expiresAt = some expiresAt →
    ∃ time, (⟨.clock, time⟩ : Called Reply) ∈ later ∧ time < expiresAt
  id : row.id = claims.credentialID
  audiences : claims.audience ∈ row.audiences
  permissions : claims.permissions ⊆ row.permissions

/-- The claims are those of the token, and were made for the row that was read. -/
structure Issues (moduleID : String) (token : Bytes) (claims : Claims) (past : Past) :
    Prop where
  token : ∃ tag, signature platform manager (platform.marshal claims) = some tag ∧
    token = tokenText (platform.marshal claims) tag
  row : ∃ row, (⟨.selectCredential (trimSpace moduleID), .ok (some row)⟩ :
    Called Reply) ∈ past ∧ claims.moduleID = row.moduleID

def answerDuty (request : Request) (response : Response) (past : Past) : Prop :=
  match request, response with
  | .validate token audience permission, .valid claims => ∃ current row later,
      past = later ++ [⟨.selectCredential (trimSpace claims.moduleID), .ok (some row)⟩,
        ⟨.clock, current⟩] ∧
      Checked platform manager token audience permission claims row current later
  | .exchange moduleID _ _ _, .issued token claims =>
      Issues platform manager moduleID token claims past
  | _, _ => True

end Duties

section Programs

variable {platform : Platform} {manager : Manager} {past : Past}

/-- No call of this service has a duty. -/
abbrev Yielding {α : Type} (x : Service Reply Error α) (post : α → Past → Prop)
    (past : Past) : Prop :=
  x.Yields (fun _ _ => True) post past

theorem yields_usableCredential {moduleID : String} {post : Credential → Past → Prop}
    (hpost : ∀ row later, row.enabled = true → (∀ expiresAt, row.expiresAt = some expiresAt →
        ∃ time, (⟨.clock, time⟩ : Called Reply) ∈ later ∧ time < expiresAt) →
      post row (later ++ ⟨.selectCredential (trimSpace moduleID), .ok (some row)⟩ :: past)) :
    Yielding (usableCredential moduleID) post past := by
  unfold usableCredential credential
  simp only [bind_eq, yields_bind, yields_statement, yields_rejectIf, true_and]
  rintro (e | _ | row) value hvalue
  · cases hvalue
  · cases hvalue
  · cases hvalue
    intro henabled
    rw [Bool.not_eq_false] at henabled
    cases hexpires : row.expiresAt with
    | none =>
        rw [yields_succeed]
        refine hpost row [] henabled fun expiresAt hsome => ?_
        rw [hexpires] at hsome
        cases hsome
    | some expiresAt =>
        simp only [now, pure_eq, yields_bind, yields_statement, yields_rejectIf,
          yields_succeed, true_and]
        intro time current hcurrent hlive
        cases hcurrent
        refine hpost row [⟨.clock, time⟩] henabled fun other hsome => ?_
        rw [hexpires] at hsome
        cases hsome
        exact ⟨time, List.mem_cons_self, Int.not_le.mp hlive⟩

theorem yields_validate (token : Bytes) (audience permission : String) :
    Yielding (validate platform manager token audience permission)
      (answerDuty platform manager (.validate token audience permission) ∘ .valid) [] := by
  unfold validate parse now
  simp only [bind_eq, pure_eq, yields_bind, yields_ofExcept, yields_statement,
    yields_rejectIf, yields_succeed, true_and]
  intro claims hdecoded current time htime hunexpired _ hasked
  cases htime
  rw [not_or, not_not, not_not] at hasked
  refine yields_usableCredential fun row later henabled hlive hcovered => ?_
  rw [not_or, not_or, not_not, not_not, Bool.not_eq_false] at hcovered
  refine ⟨current, row, later, rfl, hdecoded, Int.not_le.mp hunexpired, hasked.1,
    hasked.2, henabled, hlive, hcovered.1, hcovered.2.1, ?_⟩
  intro permission' hmem
  exact of_decide_eq_true (List.all_eq_true.mp hcovered.2.2 permission' hmem)

theorem yields_exchange (moduleID rawCredential audience : String) (permissions : List String) :
    Yielding (exchange platform manager moduleID rawCredential audience permissions)
      (fun issued later => Issues platform manager moduleID issued.1 issued.2 later) [] := by
  unfold exchange issue randomValue now
  simp only [bind_eq, pure_eq, yields_bind, yields_rejectIf]
  intro _
  refine yields_usableCredential fun row later _ _ _ _ => ?_
  simp only [yields_statement, yields_ofExcept, yields_succeed, true_and]
  intro issuedAt time _ reply tokenID _ tag htag
  refine ⟨⟨tag, ?_, rfl⟩, row, ?_, rfl⟩
  · cases hsigned : signature platform manager (platform.marshal _) with
    | none =>
        rw [hsigned] at htag
        cases htag
    | some found =>
        rw [hsigned] at htag
        cases htag
        rfl
  · rw [trimSpace_trimSpace]
    simp

theorem keeps_serve (request : Request) :
    (serve platform manager request).Keeps (fun _ _ => True)
      (answerDuty platform manager request) [] := by
  cases request with
  | create _ | rotate _ _ _ | revoke _ | changeGrants _ _ _ =>
      exact Program.keeps_trivial _ _
  | exchange moduleID rawCredential audience permissions =>
      exact (yields_exchange moduleID rawCredential audience permissions).finish
        (fun _ _ hissued => hissued) fun _ _ => trivial
  | validate token audience permission =>
      exact (yields_validate token audience permission).finish
        (fun _ _ hchecked => hchecked) fun _ _ => trivial

end Programs

section Formats

variable {platform : Platform} {manager : Manager}

/-- A token text is taken apart again. -/
theorem tokenParts_tokenText (payload tag : Bytes) :
    tokenParts (tokenText payload tag) = some (payload, tag) := by
  have hsplit : (tokenText payload tag).splitOn dot =
      [bytesOf "v2", encodeRawURL payload, encodeRawURL tag] := by
    refine List.splitOn_intercalate _ ?_ (by simp)
    simp only [List.forall_mem_cons, List.not_mem_nil, false_imp_iff, implies_true, and_true]
    exact ⟨by decide, notMem_encodeRawURL payload (by decide) (by decide),
      notMem_encodeRawURL tag (by decide) (by decide)⟩
  unfold tokenParts
  rw [hsplit]
  simp only [↓reduceIte, decodeRawURL_encodeRawURL, Option.bind_some, Option.map_some]

/-- What a token that is accepted by `parse` carries. -/
theorem decodeToken_eq_ok {token : Bytes} {claims : Claims}
    (hdecoded : decodeToken platform manager token = .ok claims) :
    ∃ payload tag, tokenParts token = some (payload, tag) ∧
      signature platform manager payload = some tag ∧
      platform.decode payload = some claims := by
  unfold decodeToken at hdecoded
  split at hdecoded
  · cases hdecoded
  · rename_i payload tag hparts
    split_ifs at hdecoded with hsigned
    split at hdecoded
    · rename_i found hfound
      split_ifs at hdecoded
      cases hdecoded
      exact ⟨payload, tag, hparts, not_not.mp hsigned, hfound⟩
    · cases hdecoded

/-- The claims of an issued token are those that any token with the same payload is
accepted for. -/
theorem Issues.claims_eq {moduleID : String} {token : Bytes}
    {claims claims' : Claims} {past : Past} {payload tag : Bytes}
    (hissues : Issues platform manager moduleID token claims past)
    (hparts : tokenParts token = some (payload, tag))
    (hdecoded : platform.decode payload = some claims') : claims' = claims := by
  obtain ⟨tag', -, rfl⟩ := hissues.token
  rw [tokenParts_tokenText] at hparts
  cases hparts
  rw [platform.decode_marshal] at hdecoded
  exact (Option.some.inj hdecoded).symm

end Formats

section Runs

variable {platform : Platform} {manager : Manager} {db : Database}
  {actions : Schedule}

theorem owes_of_run :
    Throughout (Owes (fun _ _ _ => True) (answerDuty platform manager))
      (runFrom platform manager db actions) :=
  (system platform manager).execute_owes keeps_serve actions db

theorem answers_of_run :
    Throughout (Answers perform effect db) (runFrom platform manager db actions) :=
  ((system platform manager).execute_replay (fun _ _ _ => rfl) actions db).2

theorem coherent_of_run : Throughout Coherent (runFrom platform manager db actions) :=
  (system platform manager).execute_coherent actions db

/-- The credential of a module after the calls of a history. -/
def credentialAfter (db : Database) (moduleID : String) (history : Trace) : Option Credential :=
  (replay effect db history).credentials.find? moduleID

theorem answer_eq_ok {α : Type} {choice : Choice} {value value' : α}
    (hanswer : answer choice value = .ok value') : value = value' := by
  unfold answer at hanswer
  split at hanswer
  · cases hanswer
  · exact Except.ok.inj hanswer

/-- A query answers with what is stored. -/
theorem stored_of_select {thread : Nat} {request : Request} {moduleID : String}
    {row : Credential} {past : Trace}
    (hselect : ⟨thread, request, .called ⟨.selectCredential moduleID, .ok (some row)⟩⟩ ::
      past <:+ runFrom platform manager db actions) :
    credentialAfter db moduleID past = some row := by
  obtain ⟨choice, hreply⟩ := answers_of_run _ past hselect _ rfl
  exact answer_eq_ok hreply.symm

/-- A token is issued for a module under the name by which it is looked up. -/
theorem trimmed_of_issued {thread : Nat} {moduleID rawCredential audience : String}
    {permissions : List String} {token : Bytes} {claims : Claims}
    (hissued : ⟨thread, .exchange moduleID rawCredential audience permissions,
      .answered (.issued token claims)⟩ ∈ runFrom platform manager db actions) :
    claims.moduleID = trimSpace moduleID := by
  obtain ⟨past, hpast⟩ := exists_past_of_mem hissued
  have hissues : Issues platform manager moduleID token claims (own thread past) :=
    owes_of_run _ past hpast
  obtain ⟨row, hread, hmodule⟩ := hissues.row
  obtain ⟨request, hmem⟩ := mem_own_iff.mp hread
  obtain ⟨before, hbefore⟩ := exists_past_of_mem hmem
  have hstored := stored_of_select (hbefore.trans ((List.suffix_cons _ _).trans hpast))
  exact hmodule.trans ((Table.find?_eq_some_iff _ _ _).mp hstored).2

/-- What a `Validate` that accepts has read, and where. -/
theorem exists_select {thread : Nat} {token : Bytes} {audience permission : String}
    {claims : Claims} (hanswered : ⟨thread, .validate token audience permission,
      .answered (.valid claims)⟩ ∈ runFrom platform manager db actions) :
    ∃ current row later past,
      ⟨thread, .validate token audience permission, .called
        ⟨.selectCredential (trimSpace claims.moduleID), .ok (some row)⟩⟩ :: past <:+
          runFrom platform manager db actions ∧
      own thread past = [⟨.clock, current⟩] ∧
      later ⊆ own thread (runFrom platform manager db actions) ∧
      Checked platform manager token audience permission claims row current later := by
  obtain ⟨before, hbefore⟩ := exists_past_of_mem hanswered
  obtain ⟨current, row, later, hcalls, hchecked⟩ := owes_of_run _ before hbefore
  change own thread before = _ at hcalls
  have hrun : before <:+ runFrom platform manager db actions :=
    (List.suffix_cons _ _).trans hbefore
  have hselect : [(⟨.selectCredential (trimSpace claims.moduleID), .ok (some row)⟩ :
      Called Reply), ⟨.clock, current⟩] <:+ own thread before := by
    rw [hcalls]
    exact List.suffix_append later _
  obtain ⟨request, past, hentry, howned⟩ := exists_entry_of_own hselect
  have hsame : request = .validate token audience permission :=
    request_eq coherent_of_run (mem_of_suffix_cons (hentry.trans hrun)) hanswered rfl
  subst hsame
  refine ⟨current, row, later, past, hentry.trans hrun, howned, ?_, hchecked⟩
  refine List.Subset.trans ?_ (own_suffix hrun).subset
  rw [hcalls]
  exact List.subset_append_left later _

end Runs

section Sample

def sampleExchange : Request := .exchange "core" "secret" "registry" []

/-- What the exchange returns. -/
def sampleClaims : Claims :=
  { version := 2
    tokenID := Base64.encodeRawURL (drawBytes 16 [])
    credentialID := "c1"
    moduleID := "core"
    audience := "registry"
    permissions := ["read"]
    issuedAt := 0
    expiresAt := 300 }

/-- Claims written field by field, in the place of JSON. -/
def claimsCodec : Codec Claims :=
  (Codec.int.pair (Codec.string.pair (Codec.string.pair (Codec.string.pair
    (Codec.string.pair (Codec.string.list.pair (Codec.int.pair Codec.int))))))).via
    (fun claims => (claims.version, claims.tokenID, claims.credentialID,
      claims.moduleID, claims.audience, claims.permissions, claims.issuedAt,
      claims.expiresAt))
    (fun (version, tokenID, credentialID, moduleID, audience, permissions, issuedAt,
      expiresAt) => some ⟨version, tokenID, credentialID, moduleID, audience,
        permissions, issuedAt, expiresAt⟩)
    fun _ => rfl

/-- A secret is its own hash, a tag is the message behind one byte, and the claims of
the sample have a short form. -/
def samplePlatform : Platform where
  hmac := ⟨fun _ message => 0 :: message, fun _ message => List.cons_ne_nil 0 message⟩
  verifyPassword rawCredential secretHash := some (rawCredential = secretHash)
  marshal := (claimsCodec.abridge sampleClaims).toBytes
  decode := (claimsCodec.abridge sampleClaims).ofBytes
  decode_marshal := (claimsCodec.abridge sampleClaims).ofBytes_toBytes

def sampleManager : Manager := ⟨[1], minutes 5⟩

def sampleCredential : Credential :=
  ⟨"c1", "core", "secret", ["read"], ["registry"], true, none⟩

def sampleDatabase : Database := ⟨Table.single sampleCredential⟩

def sampleChoice : Choice := ⟨0, some [], "", false⟩

/-- As many steps of one thread. -/
def steps (thread n : Nat) : Schedule :=
  List.replicate n (.step thread sampleChoice)

def sampleToken : Bytes :=
  tokenText (samplePlatform.marshal sampleClaims)
    (0 :: samplePlatform.marshal sampleClaims)

/-- A token is issued, some other requests are served one after the other, and a token
is validated. -/
def sampleHistory (between : List Request) (token : Bytes) (audience : String) : Trace :=
  runFrom samplePlatform sampleManager sampleDatabase
    (Action.start sampleExchange :: steps 0 4 ++
      (between.mapIdx fun i request => Action.start request :: steps (i + 1) 2).flatten ++
      Action.start (Request.validate token audience "read") :: steps (between.length + 1) 3)

/-- What `Exchange` has returned, newest first. -/
def issued (history : Trace) : List (Bytes × Claims) :=
  history.filterMap fun entry =>
    match entry.step with
    | .answered (.issued token claims) => some (token, claims)
    | _ => none

instance (c : Call) : DecidableEq (Reply c) := by
  cases c <;> infer_instance

end Sample

section Acceptance

/-- The entry records that `Exchange` has returned a token with this payload and
signature. -/
def Carries (parts : Bytes × Bytes) (entry : Event) : Prop :=
  match entry with
  | ⟨_, .exchange .., .answered (.issued token _)⟩ => tokenParts token = some parts
  | _ => False

instance (parts : Bytes × Bytes) (entry : Event) : Decidable (Carries parts entry) := by
  unfold Carries
  split <;> infer_instance

/-- Only the manager can sign claims: whoever presents some with their signature has
both from a token that `Exchange` has returned. -/
def Unforged (platform : Platform) (manager : Manager) (past : Trace) (entry : Event) : Prop :=
  match entry with
  | ⟨_, .validate token _ _, .answered _⟩ => ∀ parts ∈ (tokenParts token).toList,
      (platform.decode parts.1).isSome → signature platform manager parts.1 = some parts.2 →
        ∃ earlier ∈ past, Carries parts earlier
  | _ => True

instance (platform : Platform) (manager : Manager) (past : Trace)
    (entry : Event) : Decidable (Unforged platform manager past entry) := by
  unfold Unforged
  split <;> infer_instance

/-- A token that `Validate` accepts carries the payload and the signature of one that
`Exchange` has returned with the same claims; it has not expired; and the credential
stored for its module when it is looked up is enabled and unexpired, has the id of the
claims, and covers the permission and the audience without its outer white space. -/
theorem accepted_within_credential (platform : Platform) (manager : Manager)
    (db : Database) (actions : Schedule)
    (hunforged : Throughout (Unforged platform manager) (runFrom platform manager db actions))
    (thread : Nat) (token : Bytes) (audience permission : String) (claims : Claims) (before : Trace)
    (haccepted : ⟨thread, .validate token audience permission,
      .answered (.valid claims)⟩ :: before <:+ runFrom platform manager db actions) :
    (∃ issuer moduleID rawCredential audience' permissions token',
      ⟨issuer, .exchange moduleID rawCredential audience' permissions,
        .answered (.issued token' claims)⟩ ∈ before ∧
      tokenParts token' = tokenParts token) ∧
    ∃ current row past,
      ⟨thread, .validate token audience permission, .called
        ⟨.selectCredential claims.moduleID, .ok (some row)⟩⟩ :: past <:+
          runFrom platform manager db actions ∧
      own thread past = [⟨.clock, current⟩] ∧ unix current < claims.expiresAt ∧
      credentialAfter db claims.moduleID past = some row ∧
      row.enabled = true ∧
      (∀ expiresAt, row.expiresAt = some expiresAt → ∃ time,
        (⟨.clock, time⟩ : Called Reply) ∈
          own thread (runFrom platform manager db actions) ∧ time < expiresAt) ∧
      row.id = claims.credentialID ∧
      claims.audience = trimSpace audience ∧ trimSpace audience ∈ row.audiences ∧
      permission ∈ claims.permissions ∧ permission ∈ row.permissions := by
  obtain ⟨current, row, later, past, hselect, howned, hlater, hchecked⟩ :=
    exists_select (mem_of_suffix_cons haccepted)
  obtain ⟨payload, tag, hparts, hsigned, hdecoded⟩ :=
    decodeToken_eq_ok hchecked.decoded
  -- The signature was made for a token whose claims are therefore the same.
  obtain ⟨earlier, hmem, hcarries⟩ := hunforged _ before haccepted (payload, tag)
    (by simp [hparts]) (by simp [hdecoded]) hsigned
  have hissued : ∃ issuer moduleID rawCredential audience' permissions token',
      ⟨issuer, .exchange moduleID rawCredential audience' permissions,
        .answered (.issued token' claims)⟩ ∈ before ∧
      tokenParts token' = some (payload, tag) := by
    unfold Carries at hcarries
    split at hcarries
    · rename_i issuer moduleID rawCredential audience' permissions token' claims'
      obtain ⟨beforeIssue, hissue⟩ := exists_past_of_mem hmem
      have hissues : Issues platform manager moduleID token' claims'
          (own issuer beforeIssue) := owes_of_run _ beforeIssue
        (hissue.trans ((List.suffix_cons _ _).trans haccepted))
      have hsame := hissues.claims_eq hcarries hdecoded
      subst hsame
      exact ⟨issuer, moduleID, rawCredential, audience', permissions, token', hmem, hcarries⟩
    · exact hcarries.elim
  obtain ⟨issuer, moduleID, rawCredential, audience', permissions, token', hexchange,
    hcarried⟩ := hissued
  have hname : trimSpace claims.moduleID = claims.moduleID := by
    rw [trimmed_of_issued (((List.suffix_cons _ _).trans haccepted).subset hexchange),
      trimSpace_trimSpace]
  rw [hname] at hselect
  refine ⟨⟨issuer, moduleID, rawCredential, audience', permissions, token', hexchange,
    hcarried.trans hparts.symm⟩, current, row, past, hselect, howned,
    hchecked.unexpired, stored_of_select hselect, hchecked.enabled, ?_, hchecked.id,
    hchecked.audience, ?_, hchecked.permission, hchecked.permissions hchecked.permission⟩
  · intro expiresAt hexpires
    obtain ⟨time, hread, hlt⟩ := hchecked.live expiresAt hexpires
    exact ⟨time, hlater hread, hlt⟩
  · rw [← hchecked.audience]
    exact hchecked.audiences

theorem sample_accepted :
    ∃ row past,
      ⟨1, .validate sampleToken "registry" "read", .called
        ⟨.selectCredential "core", .ok (some row)⟩⟩ :: past <:+
          sampleHistory [] sampleToken "registry" ∧
      credentialAfter sampleDatabase "core" past = some row ∧ row.enabled = true ∧
      "registry" ∈ row.audiences ∧ "read" ∈ row.permissions := by
  have hrun : Throughout (Unforged samplePlatform sampleManager)
      (sampleHistory [] sampleToken "registry") ∧
      ⟨1, .validate sampleToken "registry" "read", .answered (.valid sampleClaims)⟩ ∈
        sampleHistory [] sampleToken "registry" ∧
      trimSpace "registry" = "registry" := by
    decide +kernel
  obtain ⟨hunforged, hmem, htrim⟩ := hrun
  obtain ⟨before, haccepted⟩ := exists_past_of_mem hmem
  obtain ⟨-, current, row, past, hselect, -, -, hstored, henabled, -, -, -, haudience, -,
      hpermission⟩ :=
    accepted_within_credential samplePlatform sampleManager sampleDatabase _ hunforged 1
      sampleToken "registry" "read" sampleClaims before haccepted
  rw [htrim] at haudience
  exact ⟨row, past, hselect, hstored, henabled, haudience, hpermission⟩

/-- A line break after the token and blanks around the audience make no difference:
a text that `Exchange` has not returned is accepted, for an audience that the claims do
not contain. -/
theorem padded_request_accepted :
    ⟨1, .validate (sampleToken ++ [10]) " registry " "read",
        .answered (.valid sampleClaims)⟩ ∈
      sampleHistory [] (sampleToken ++ [10]) " registry " ∧
    issued (sampleHistory [] (sampleToken ++ [10]) " registry ") = [(sampleToken, sampleClaims)] ∧
    sampleToken ++ [10] ≠ sampleToken ∧ sampleClaims.audience ≠ " registry " := by
  decide +kernel

end Acceptance

section Revocation

/-- A `Rotate` of the module that the database has acknowledged. -/
def Rotates (moduleID : String) (entry : Event) : Prop :=
  match entry.step with
  | .called ⟨.updateRotated rotated _ _, .ok _⟩ => rotated = moduleID
  | _ => False

/-- A `Revoke` of the module that has found its row. -/
def Revokes (moduleID : String) (entry : Event) : Prop :=
  match entry.step with
  | .called ⟨.updateRevoked revoked, .ok (_ + 1)⟩ => revoked = moduleID
  | _ => False

instance (moduleID : String) (entry : Event) : Decidable (Rotates moduleID entry) := by
  unfold Rotates
  split <;> infer_instance

/-- The module has a credential, and it is disabled. -/
def Disabled (moduleID : String) (db : Database) : Prop :=
  ∃ row, db.credentials.find? moduleID = some row ∧ row.enabled = false

variable {platform : Platform} {manager : Manager} {db : Database}
  {actions : Schedule} {moduleID : String}

/-- An update whose assignment keeps the flag. -/
theorem Disabled.updated {β : Type} {reply : Except DBError β} {p : Credential → Bool}
    {assign : Credential → Credential} {hkey : ∀ row, (assign row).moduleID = row.moduleID}
    (hkeeps : ∀ row, row.moduleID = moduleID → p row = true → row.enabled = false →
      (assign row).enabled = false) (hdisabled : Disabled moduleID db) :
    Disabled moduleID ⟨updated reply db.credentials p assign hkey⟩ := by
  cases reply with
  | error e => exact hdisabled
  | ok value =>
      obtain ⟨row, hrow, hflag⟩ := hdisabled
      have hid := ((Table.find?_eq_some_iff _ _ _).mp hrow).2
      refine ⟨if p row then assign row else row, ?_, ?_⟩
      · change (db.credentials.updateWhere p assign hkey).find? moduleID = _
        rw [Table.find?_updateWhere, hrow]
        rfl
      · by_cases hp : p row = true
        · rw [if_pos hp]
          exact hkeeps row hid hp hflag
        · rw [if_neg hp]
          exact hflag

/-- One call that is no rotation of the module. -/
theorem disabled_effect (call : Called Reply) (hrotates : ∀ secretHash expiresAt n,
      call ≠ ⟨.updateRotated moduleID secretHash expiresAt, .ok n⟩)
    (hdisabled : Disabled moduleID db) : Disabled moduleID (effect call db) := by
  obtain ⟨c, reply⟩ := call
  cases c with
  | clock | randomBytes _ | newUUID | selectCredential _ => exact hdisabled
  | insertCredential new =>
      obtain ⟨row, hrow, hflag⟩ := hdisabled
      obtain ⟨hmem, hid⟩ := (Table.find?_eq_some_iff _ _ _).mp hrow
      exact ⟨row, (Table.find?_eq_some_iff _ _ _).mpr ⟨mem_inserted_of_mem hmem, hid⟩, hflag⟩
  | updateRotated rotated secretHash expiresAt =>
      rcases reply with e | n
      · exact hdisabled
      · refine hdisabled.updated fun row hid hp _ => ?_
        have hsame : rotated = moduleID := (of_decide_eq_true hp).symm.trans hid
        subst hsame
        exact absurd rfl (hrotates secretHash expiresAt n)
  | updateRevoked revoked => exact hdisabled.updated fun _ _ _ _ => rfl
  | updateGrants altered permissions audiences =>
      exact hdisabled.updated fun _ _ _ hflag => hflag

/-- A `Revoke` that has found its row leaves it disabled. -/
theorem disabled_of_revokes {entry : Event} {past : Trace}
    (hentry : entry :: past <:+ runFrom platform manager db actions)
    (hrevokes : Revokes moduleID entry) : Disabled moduleID (replay effect db (entry :: past)) := by
  obtain ⟨thread, request, step⟩ := entry
  unfold Revokes at hrevokes
  split at hrevokes
  · rename_i revoked n hstep
    change step = _ at hstep
    subst hstep hrevokes
    obtain ⟨choice, hreply⟩ := answers_of_run _ past hentry _ rfl
    have haffected := answer_eq_ok hreply.symm
    have hpos : 0 < (replay effect db past).credentials.affected (·.moduleID = revoked) := by
      rw [haffected]
      exact Nat.succ_pos n
    obtain ⟨row, hrow, hid⟩ := (Table.affected_pos_iff _ _).mp hpos
    have hfind := (Table.find?_eq_some_iff _ _ _).mpr ⟨hrow, of_decide_eq_true hid⟩
    refine ⟨row.assignRevoked, ?_, rfl⟩
    change ((replay effect db past).credentials.updateWhere (·.moduleID = revoked)
      Credential.assignRevoked Credential.moduleID_assignRevoked).find? revoked = _
    rw [Table.find?_updateWhere, hfind, Option.map_some, if_pos hid]
  · exact hrevokes.elim

/-- Without a rotation in between, a disabled credential stays disabled. -/
theorem disabled_since {base later : Trace}
    (hdisabled : Disabled moduleID (replay effect db base)) (hbase : base <:+ later)
    (hunrotated : ∀ entry past, entry :: past <:+ later → base <:+ past →
      ¬ Rotates moduleID entry) :
    Disabled moduleID (replay effect db later) := by
  refine suffix_induction
    (motive := fun history => Disabled moduleID (replay effect db history))
    hdisabled ?_ hbase List.suffix_rfl
  rintro ⟨thread, request, step⟩ past hpast hentry hold
  cases step with
  | answered response => exact hold
  | called call =>
      refine disabled_effect call (fun secretHash expiresAt n heq => ?_) hold
      subst heq
      exact hunrotated _ past hentry hpast rfl

/-- A token issued before its module was revoked or rotated is rejected by every
`Validate` that starts afterwards, if neither that change nor any later one of the
module is a rotation. -/
theorem old_tokens_rejected (platform : Platform) (manager : Manager) (db : Database)
    (actions : Schedule) (issuer thread : Nat)
    (name rawCredential audience audience' permission : String)
    (permissions : List String) (token : Bytes) (claims claims' : Claims)
    (ends : Event) (beforeIssue beforeEnd : Trace)
    (hissued : ⟨issuer, .exchange name rawCredential audience permissions,
      .answered (.issued token claims)⟩ :: beforeIssue <:+ beforeEnd)
    (hends : Revokes claims.moduleID ends ∨ Rotates claims.moduleID ends)
    (hended : ends :: beforeEnd <:+ runFrom platform manager db actions)
    (hstarts : ∀ entry ∈ ends :: beforeEnd, entry.thread ≠ thread) (hunrotated : ∀ entry past,
      entry :: past <:+ runFrom platform manager db actions →
      ends :: beforeEnd <:+ entry :: past → ¬ Rotates claims.moduleID entry) :
    ⟨thread, .validate token audience' permission, .answered (.valid claims')⟩ ∉
      runFrom platform manager db actions := by
  intro haccepted
  rcases hends with hrevokes | hrotates
  · obtain ⟨time, row, later, past, hselect, -, -, hchecked⟩ := exists_select haccepted
    -- The claims are those of the token, and so is the module that is looked up.
    have hissue := hissued.trans ((List.suffix_cons _ _).trans hended)
    have hissues : Issues platform manager name token claims (own issuer beforeIssue) :=
      owes_of_run _ beforeIssue hissue
    obtain ⟨payload, tag, hparts, -, hdecoded⟩ := decodeToken_eq_ok hchecked.decoded
    have hsame := hissues.claims_eq hparts hdecoded
    subst hsame
    have hname : trimSpace claims'.moduleID = claims'.moduleID := by
      rw [trimmed_of_issued (mem_of_suffix_cons hissue), trimSpace_trimSpace]
    rw [hname] at hselect
    have hafter : ends :: beforeEnd <:+ past := by
      rcases entry_trichotomy hended hselect with heq | hlt | hlt
      · exact absurd (congrArg Entry.thread (List.cons.inj heq).1) (hstarts ends List.mem_cons_self)
      · exact hlt
      · exact absurd rfl (hstarts _ (List.mem_cons_of_mem _ (mem_of_suffix_cons hlt)))
    obtain ⟨stored, hstored, hflag⟩ := disabled_since
      (disabled_of_revokes hended hrevokes) hafter fun entry before hentry hlater =>
        hunrotated entry before
          (hentry.trans ((List.suffix_cons _ _).trans hselect))
          (hlater.trans (List.suffix_cons _ _))
    have hfound := stored_of_select hselect
    unfold credentialAfter at hfound
    rw [hstored] at hfound
    cases hfound
    rw [hchecked.enabled] at hflag
    cases hflag
  · exact hunrotated ends beforeEnd hended List.suffix_rfl hrotates

theorem sample_rejected :
    ⟨2, .validate sampleToken "registry" "read", .answered (.valid sampleClaims)⟩ ∉
      sampleHistory [.revoke "core"] sampleToken "registry" := by
  have hrun :
      ⟨1, .revoke "core", .called ⟨.updateRevoked "core", .ok 1⟩⟩ ::
          ⟨0, sampleExchange, .answered (.issued sampleToken sampleClaims)⟩ ::
            (sampleHistory [.revoke "core"] sampleToken "registry").drop 6 =
        (sampleHistory [.revoke "core"] sampleToken "registry").drop 4 ∧
      (∀ entry ∈ (sampleHistory [.revoke "core"] sampleToken "registry").drop 4, entry.thread ≠ 2) ∧
      ∀ entry ∈ sampleHistory [.revoke "core"] sampleToken "registry",
        ¬ Rotates "core" entry := by
    decide +kernel
  obtain ⟨hdrop, hstarts, hunrotated⟩ := hrun
  rw [← hdrop] at hstarts
  refine old_tokens_rejected samplePlatform sampleManager sampleDatabase _ 0 2 "core"
    "secret" "registry" "registry" "read" [] sampleToken sampleClaims sampleClaims
    ⟨1, .revoke "core", .called ⟨.updateRevoked "core", .ok 1⟩⟩ _ _ List.suffix_rfl
    (.inl rfl) ?_ hstarts ?_
  · exact hdrop ▸ List.drop_suffix 4 (sampleHistory [.revoke "core"] sampleToken _)
  · intro entry past hentry _
    exact hunrotated entry (mem_of_suffix_cons hentry)

/-- The statement of `Rotate` writes a new hash and enables the credential, whose id
stays: a token from before the rotation is accepted after it, even if it had been
revoked. -/
theorem rotation_keeps_tokens :
    [⟨2, .validate sampleToken "registry" "read", .answered (.valid sampleClaims)⟩,
      ⟨2, .validate sampleToken "registry" "read", .called ⟨.clock, 0⟩⟩,
      ⟨1, .rotate "core" "fresh" none,
        .called ⟨.updateRotated "core" "fresh" none, .ok 1⟩⟩,
      ⟨0, sampleExchange, .answered (.issued sampleToken sampleClaims)⟩].Sublist
        (sampleHistory [.rotate "core" "fresh" none] sampleToken "registry") ∧
    [⟨3, .validate sampleToken "registry" "read", .answered (.valid sampleClaims)⟩,
      ⟨3, .validate sampleToken "registry" "read", .called ⟨.clock, 0⟩⟩,
      ⟨2, .rotate "core" "fresh" none,
        .called ⟨.updateRotated "core" "fresh" none, .ok 1⟩⟩,
      ⟨1, .revoke "core", .called ⟨.updateRevoked "core", .ok 1⟩⟩,
      ⟨0, sampleExchange, .answered (.issued sampleToken sampleClaims)⟩].Sublist
        (sampleHistory [.revoke "core", .rotate "core" "fresh" none] sampleToken "registry") := by
  decide +kernel

end Revocation

end Aegion.ModuleAuth
