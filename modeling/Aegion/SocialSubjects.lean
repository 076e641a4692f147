/-
Account keys of provider accounts.  The configured subject claim is taken as it is
if it is a string with text, and through a `float64` if it is an integer; a
document without a subject gets the empty key.
-/
import Aegion.SocialProfile

namespace Aegion.Social

open Go

section Documents

/-- The members of a document; only an object has some. -/
def Json.members : Json → List (String × Json)
  | .object members => members
  | _ => []

/-- A claim that has a text: a number, or a string that is not blank. -/
def Json.usable : Json → Bool
  | .string s => !blank s
  | .integer _ => true
  | .number _ => true
  | _ => false

/-- The first of the names that stands for a claim, and the names behind it. -/
def firstClaim (members : List (String × Json)) :
    List String → Option (Json × List String)
  | [] => none
  | key :: rest =>
      match lookup members key with
      | none => firstClaim members rest
      | some .null => firstClaim members rest
      | some claim => some (claim, rest)

variable (provider : Provider) (document : Json)

/-- The claim that is configured as the subject. -/
def subjectClaim : Option (Json × List String) :=
  firstClaim document.members (mappingKeys provider.claimMapping.subject)

/-- The names under which a subject is looked for. -/
def candidateKeys : List String :=
  mappingKeys provider.claimMapping.subject ++ ["sub", "id"]

def HasSubject : Prop :=
  ∃ key ∈ candidateKeys provider, ∃ claim,
    lookup document.members key = some claim ∧ claim.usable = true

end Documents

section Decoded

variable {platform : Platform}

/-- Decoding keeps every member under its name. -/
theorem lookup_decodeMembers {members : List (String × Json)} {claims : Claims}
    (hdecode : decodeMembers platform members = some claims) (key : String) :
    (lookup members key = none ∧ lookup claims key = none) ∨
      ∃ claim value, lookup members key = some claim ∧
        lookup claims key = some value ∧ claim.decode platform = some value := by
  induction members generalizing claims with
  | nil =>
      rw [decodeMembers] at hdecode
      cases hdecode
      exact Or.inl ⟨rfl, rfl⟩
  | cons member rest ih =>
      obtain ⟨name, item⟩ := member
      rw [decodeMembers] at hdecode
      obtain ⟨value, hvalue, hrest⟩ := Option.bind_eq_some_iff.mp hdecode
      obtain ⟨others, hothers, rfl⟩ := Option.map_eq_some_iff.mp hrest
      rw [lookup, lookup]
      rcases ih hothers with ⟨hnone, hnone'⟩ | ⟨claim, last, hlast, hlast', hclaim⟩
      · rw [hnone, hnone']
        by_cases hname : name = key
        · exact Or.inr ⟨item, value, by simp [hname], by simp [hname], hvalue⟩
        · exact Or.inl ⟨by simp [hname], by simp [hname]⟩
      · rw [hlast, hlast']
        exact Or.inr ⟨claim, last, rfl, rfl, hclaim⟩

theorem lookup_decodeClaims {document : Json} {claims : Claims}
    (hdecode : decodeClaims platform document = some claims) (key : String) :
    (lookup document.members key = none ∧ lookup claims key = none) ∨
      ∃ claim value, lookup document.members key = some claim ∧
        lookup claims key = some value ∧ claim.decode platform = some value := by
  cases document with
  | object members => exact lookup_decodeMembers hdecode key
  | null =>
      cases hdecode
      exact Or.inl ⟨rfl, rfl⟩
  | bool _ | string _ | integer _ | number _ | array _ => cases hdecode

theorem claimText_ne_empty {value : Value} {text : String}
    (htext : claimText platform value = some text) : text ≠ "" := by
  cases value with
  | string s =>
      rw [claimText] at htext
      split at htext
      case isTrue hne =>
        cases htext
        exact hne
      case isFalse => cases htext
  | float x =>
      cases htext
      cases x with
      | integral n =>
          rw [Float64.format, trimSpace_repr]
          exact repr_ne_empty n
      | bits b => exact platform.formatFloat_not_blank b
  | null | bool _ | array _ | object _ => cases htext

theorem claimAmong_append (claims : Claims) (first second : List String) :
    claimAmong platform claims (first ++ second) =
      if claimAmong platform claims first = "" then claimAmong platform claims second
      else claimAmong platform claims first := by
  induction first with
  | nil => simp [claimAmong]
  | cons key rest ih =>
      rw [List.cons_append, claimAmong, claimAmong]
      cases htext : (lookup claims key).bind (claimText platform) with
      | none => exact ih
      | some text =>
          obtain ⟨value, -, htext⟩ := Option.bind_eq_some_iff.mp htext
          exact (if_neg (claimText_ne_empty htext)).symm

theorem providerUser_eq (provider : Provider) (claims : Claims) :
    (claimsToProfile platform provider claims).providerUser =
      claimAmong platform claims (candidateKeys provider) := by
  have hkeys : mappingKeys "sub|id" = ["sub", "id"] := by decide
  rw [candidateKeys, claimAmong_append, ← hkeys]
  rfl

variable {document : Json} {claims : Claims}
variable (hdecode : decodeClaims platform document = some claims)

include hdecode

/-- The first claim decides if it has a text, and the later names otherwise. -/
theorem claimAmong_of_firstClaim {keys rest : List String} {claim : Json}
    (hfirst : firstClaim document.members keys = some (claim, rest)) (tail : List String) :
    ∃ value, claim.decode platform = some value ∧
      claimAmong platform claims (keys ++ tail) =
        (claimText platform value).getD (claimAmong platform claims (rest ++ tail)) := by
  induction keys with
  | nil => cases hfirst
  | cons key others ih =>
      rw [firstClaim] at hfirst
      rw [List.cons_append, claimAmong]
      rcases lookup_decodeClaims hdecode key with ⟨hmember, hclaim⟩ |
          ⟨member, found, hmember, hclaim, hfound⟩
      · rw [hmember] at hfirst
        rw [hclaim]
        exact ih hfirst
      · rw [hmember] at hfirst
        rw [hclaim, Option.bind_some]
        cases member with
        | null =>
            rw [Json.decode] at hfound
            cases hfound
            exact ih hfirst
        | bool _ | string _ | integer _ | number _ | array _ | object _ =>
            cases hfirst
            refine ⟨found, hfound, ?_⟩
            cases claimText platform found <;> rfl

end Decoded

section Profiles

variable {platform : Platform} {provider : Provider}

/-- The document is an object within the range of `float64`, and an ID token has
the nonce of the request. -/
def Readable (platform : Platform) (provider : Provider) (fetched : Fetched) : Prop :=
  ∃ claims, decodeClaims platform fetched.document = some claims ∧
    (provider.claimSource = .idToken → trimSpace fetched.nonce ≠ "" →
      trimSpace (claimValue platform claims "nonce") = trimSpace fetched.nonce)

/-- A readable document is always mapped to a profile. -/
theorem fetchProfile_eq_ok_iff (hsource : provider.claimSource ≠ .githubUser)
    (fetched : Fetched) (profile : SocialProfile) :
    fetchProfile platform provider fetched = .ok profile ↔
      Readable platform provider fetched ∧
        ∃ claims, decodeClaims platform fetched.document = some claims ∧
          profile = claimsToProfile platform provider claims := by
  unfold fetchProfile Readable profileFromIDToken profileFromUserInfo
  cases hclaims : decodeClaims platform fetched.document with
  | none => cases hkind : provider.claimSource <;> simp_all
  | some claims =>
      cases hkind : provider.claimSource with
      | githubUser => exact absurd hkind hsource
      | userInfo =>
          constructor
          · rintro ⟨⟩
            exact ⟨⟨claims, rfl, nofun⟩, claims, rfl, rfl⟩
          · rintro ⟨-, _, ⟨⟩, rfl⟩
            rfl
      | idToken =>
          dsimp only
          by_cases hnonce : trimSpace fetched.nonce ≠ "" ∧
              trimSpace (claimValue platform claims "nonce") ≠ trimSpace fetched.nonce
          · rw [if_pos hnonce]
            constructor
            · exact nofun
            · rintro ⟨⟨_, ⟨⟩, hmatch⟩, -⟩
              exact absurd (hmatch rfl hnonce.1) hnonce.2
          · rw [if_neg hnonce]
            push Not at hnonce
            constructor
            · rintro ⟨⟩
              exact ⟨⟨claims, rfl, fun _ => hnonce⟩, claims, rfl, rfl⟩
            · rintro ⟨-, _, ⟨⟩, rfl⟩
              rfl

/-- The two have different account keys, and neither is empty. -/
def SocialProfile.Separate (profile profile' : SocialProfile) : Prop :=
  profile.providerUser ≠ profile'.providerUser ∧ profile.providerUser ≠ "" ∧
    profile'.providerUser ≠ ""

/-- The account key that the claims under these names and the standard ones
give. -/
def SocialProfile.otherUser (platform : Platform) (profile : SocialProfile)
    (keys : List String) : String :=
  claimAmong platform profile.rawClaims (keys ++ ["sub", "id"])

/-- The account key by the kind of the configured claim. -/
theorem providerUser_of_subjectClaim (hsource : provider.claimSource ≠ .githubUser)
    {fetched : Fetched} {profile : SocialProfile} {claim : Json} {rest : List String}
    (hprofile : fetchProfile platform provider fetched = .ok profile)
    (hclaim : subjectClaim provider fetched.document = some (claim, rest)) :
    ∃ value, claim.decode platform = some value ∧
      profile.providerUser = (claimText platform value).getD (profile.otherUser platform rest) := by
  obtain ⟨-, claims, hdecode, rfl⟩ :=
    (fetchProfile_eq_ok_iff hsource fetched profile).mp hprofile
  obtain ⟨value, hvalue, huser⟩ :=
    claimAmong_of_firstClaim hdecode hclaim ["sub", "id"]
  exact ⟨value, hvalue, (providerUser_eq provider claims).trans huser⟩

theorem providerUser_of_string (hsource : provider.claimSource ≠ .githubUser)
    {fetched : Fetched} {profile : SocialProfile} {s : String} {rest : List String}
    (hprofile : fetchProfile platform provider fetched = .ok profile)
    (hclaim : subjectClaim provider fetched.document = some (.string s, rest)) :
    profile.providerUser =
      if trimSpace s = "" then profile.otherUser platform rest else trimSpace s := by
  obtain ⟨value, hvalue, huser⟩ :=
    providerUser_of_subjectClaim hsource hprofile hclaim
  rw [Json.decode] at hvalue
  cases hvalue
  rw [huser, claimText]
  by_cases hblank : trimSpace s = "" <;> simp [hblank]

theorem providerUser_of_integer (hsource : provider.claimSource ≠ .githubUser)
    {fetched : Fetched} {profile : SocialProfile} {n : Int} {rest : List String}
    (hprofile : fetchProfile platform provider fetched = .ok profile)
    (hclaim : subjectClaim provider fetched.document = some (.integer n, rest)) :
    ∃ m, Binary64.ofInt n = some m ∧ profile.providerUser = m.repr := by
  obtain ⟨value, hvalue, huser⟩ :=
    providerUser_of_subjectClaim hsource hprofile hclaim
  rw [Json.decode] at hvalue
  obtain ⟨m, hm, rfl⟩ := Option.map_eq_some_iff.mp hvalue
  exact ⟨m, hm, huser.trans (trimSpace_repr m)⟩

end Profiles

/-- For documents of one provider, other than those of the GitHub API.  String
subjects are told apart exactly if neither is blank, or the names behind a blank
one give another key; integer subjects exactly if their nearest doubles differ, as
they do below 2^53.  A document without a subject is rejected only if it cannot be
read. -/
theorem subjects_separate_iff (platform : Platform) (provider : Provider)
    (hsource : provider.claimSource ≠ .githubUser) :
    (∀ fetched fetched' profile profile' s s' rest rest',
      fetchProfile platform provider fetched = .ok profile →
      fetchProfile platform provider fetched' = .ok profile' →
      subjectClaim provider fetched.document = some (.string s, rest) →
      subjectClaim provider fetched'.document = some (.string s', rest') →
      trimSpace s ≠ trimSpace s' → (profile.Separate profile' ↔
        (trimSpace s = "" → profile.otherUser platform rest ∉ ["", trimSpace s']) ∧
        (trimSpace s' = "" → profile'.otherUser platform rest' ∉ ["", trimSpace s]))) ∧
    (∀ fetched fetched' profile profile' n n' rest rest',
      fetchProfile platform provider fetched = .ok profile →
      fetchProfile platform provider fetched' = .ok profile' →
      subjectClaim provider fetched.document = some (.integer n, rest) →
      subjectClaim provider fetched'.document = some (.integer n', rest') → n ≠ n' →
      (profile.Separate profile' ↔ Binary64.ofInt n ≠ Binary64.ofInt n') ∧
        (n.natAbs < 2 ^ 53 → n'.natAbs < 2 ^ 53 → profile.Separate profile')) ∧
    ∀ fetched,
      (¬ HasSubject provider fetched.document →
        ∃ e, fetchProfile platform provider fetched = .error e) ↔
      HasSubject provider fetched.document ∨
        ¬ Readable platform provider fetched := by
  refine ⟨?_, ?_, ?_⟩
  · intro fetched fetched' profile profile' s s' rest rest' hprofile hprofile' hclaim hclaim' hne
    rw [SocialProfile.Separate, providerUser_of_string hsource hprofile hclaim,
      providerUser_of_string hsource hprofile' hclaim']
    by_cases hblank : trimSpace s = ""
    · have hblank' : trimSpace s' ≠ "" := fun h => hne (hblank.trans h.symm)
      simp [hblank, hblank', and_comm]
    · by_cases hblank' : trimSpace s' = ""
      · simp [hblank, hblank', @eq_comm _ (trimSpace s), and_comm]
      · simp [hblank, hblank', hne]
  · intro fetched fetched' profile profile' n n' rest rest' hprofile hprofile' hclaim hclaim' hne
    obtain ⟨m, hm, huser⟩ := providerUser_of_integer hsource hprofile hclaim
    obtain ⟨m', hm', huser'⟩ := providerUser_of_integer hsource hprofile' hclaim'
    have hseparate : profile.Separate profile' ↔
        Binary64.ofInt n ≠ Binary64.ofInt n' := by
      rw [SocialProfile.Separate, huser, huser', hm, hm', repr_injective.ne_iff]
      simp [repr_ne_empty]
    refine ⟨hseparate, fun hsmall hsmall' => hseparate.mpr ?_⟩
    rw [Binary64.ofInt_of_lt hsmall, Binary64.ofInt_of_lt hsmall']
    simpa using hne
  · intro fetched
    cases hfetch : fetchProfile platform provider fetched with
    | error e =>
        have hunread : ¬ Readable platform provider fetched := by
          rintro ⟨claims, hdecode, hnonce⟩
          have hok := (fetchProfile_eq_ok_iff hsource fetched _).mpr
            ⟨⟨claims, hdecode, hnonce⟩, claims, hdecode, rfl⟩
          cases hfetch.symm.trans hok
        simp [hunread]
    | ok profile =>
        have hread := ((fetchProfile_eq_ok_iff hsource fetched profile).mp hfetch).1
        simp [hread]

section Sample

def samplePlatform : Platform where
  tables := ⟨id, id⟩
  parseFloat _ := none
  formatFloat _ := "0"
  formatFloat_not_blank _ := by decide

def sampleProvider : Provider :=
  ⟨"hub", ⟨"id", "email", "email_verified", "name", "picture"⟩, .userInfo, true⟩

/-- A user document with one claim. -/
def sampleFetched (claim : Json) : Fetched := ⟨.object [("id", claim)], "", none⟩

/-- The account key that a document is mapped to. -/
def sampleKey (fetched : Fetched) : Except ProfileError String :=
  (fetchProfile samplePlatform sampleProvider fetched).map (·.providerUser)

theorem small_subjects_separate :
    (claimsToProfile samplePlatform sampleProvider [("id", .float (.integral 1))]).Separate
        (claimsToProfile samplePlatform sampleProvider [("id", .float (.integral 2))]) := by
  have hone : fetchProfile samplePlatform sampleProvider
      (sampleFetched (.integer 1)) = .ok (claimsToProfile samplePlatform
        sampleProvider [("id", .float (.integral 1))]) := by rfl
  have htwo : fetchProfile samplePlatform sampleProvider
      (sampleFetched (.integer 2)) = .ok (claimsToProfile samplePlatform
        sampleProvider [("id", .float (.integral 2))]) := by rfl
  exact ((subjects_separate_iff samplePlatform sampleProvider (by decide)).2.1
    _ _ _ _ 1 2 [] [] hone htwo rfl rfl (by decide)).2 (by decide) (by decide)

/-- Neighbouring large numbers get one key, and so do all documents without a
subject. -/
theorem large_subjects_collide :
    sampleKey (sampleFetched (.integer 9007199254740993)) = .ok "9007199254740992" ∧
      sampleKey (sampleFetched (.integer 9007199254740992)) = .ok "9007199254740992" ∧
      sampleKey (sampleFetched .null) = .ok "" := by
  decide

end Sample

end Aegion.Social
