/-
SCIM users as they are stored and read back.  A user is spread over the traits and the state of an
identity and over rows of addresses; the scan puts it together again from the first address.  Of
the addresses only one comes back, as the primary one and as the user name.
-/
import Aegion.SCIMGroups
import Mathlib.Data.List.Sort

namespace Aegion.SCIM

open Go

section Users

structure Name where
  formatted : String
  familyName : String
  givenName : String
  middleName : String
  honorificPrefix : String
  honorificSuffix : String
deriving Repr, DecidableEq

structure Email where
  value : String
  type : String
  primary : Bool
  display : String
deriving Repr, DecidableEq

structure User where
  id : UUID
  externalID : String
  userName : String
  name : Option Name
  displayName : String
  active : Bool
  emails : List Email
deriving Repr, DecidableEq

/-- A row of `core_identities`; the traits that are written are texts. -/
structure Identity where
  id : UUID
  schemaID : UUID
  traits : List (String × String)
  state : String
  deleted : Bool
deriving Repr, DecidableEq

/-- A row of `core_identity_addresses` of the type `email`. -/
structure Address where
  identityID : UUID
  value : String
  isPrimary : Bool
  createdAt : Int
deriving Repr, DecidableEq

structure Directory where
  defaultSchema : Option UUID
  identities : Table Identity.id
  addresses : List Address

def scimUserTraits (user : User) : List (String × String) :=
  match user.name with
  | none =>
      [("email", user.userName), ("display_name", user.displayName),
        ("scim_external_id", trimSpace user.externalID)]
  | some name =>
      [("email", user.userName),
        ("display_name", if trimSpace user.displayName = "" then trimSpace name.formatted
          else user.displayName),
        ("scim_external_id", trimSpace user.externalID),
        ("given_name", name.givenName), ("family_name", name.familyName)]

def scimIdentityState (active : Bool) : String := if active then "active" else "inactive"

/-- An identity has at most one primary address. -/
def insertAddress (addresses : List Address) (row : Address) : Option (List Address) :=
  if row.isPrimary && addresses.any fun old => old.identityID = row.identityID && old.isPrimary
  then none
  else some (addresses ++ [row])

/-- The loop of `replaceSCIMUserEmails`; the clock is read at each insert. -/
def insertEmails (clock : Nat → Int) (identityID : UUID) :
    Nat → List Email → List Address → Option (List Address)
  | _, [], addresses => some addresses
  | idx, email :: rest, addresses =>
      let value := trimSpace email.value
      if value = "" then insertEmails clock identityID (idx + 1) rest addresses
      else
        (insertAddress addresses
          ⟨identityID, value, idx = 0 || email.primary, clock idx⟩).bind
            (insertEmails clock identityID (idx + 1) rest)

def replaceSCIMUserEmails (clock : Nat → Int) (addresses : List Address) (identityID : UUID)
    (emails : List Email) : Option (List Address) :=
  insertEmails clock identityID 0 emails
    (addresses.filter fun old => old.identityID ≠ identityID)

def createUser (clock : Nat → Int) (dir : Directory) (user : User) : Option Directory :=
  dir.defaultSchema.bind fun schemaID =>
    (dir.identities.insert?
      ⟨user.id, schemaID, scimUserTraits user, scimIdentityState user.active, false⟩).bind
      fun identities =>
        (replaceSCIMUserEmails clock dir.addresses user.id user.emails).map fun addresses =>
          ⟨dir.defaultSchema, identities, addresses⟩

/-- `SET` clause of `UpdateUser`. -/
def Identity.assign (user : User) (row : Identity) : Identity :=
  { row with traits := scimUserTraits user, state := scimIdentityState user.active }

theorem Identity.id_assign (user : User) (row : Identity) : (row.assign user).id = row.id := by
  rw [Identity.assign]

def updateUser (clock : Nat → Int) (dir : Directory) (user : User) : Option Directory :=
  if dir.identities.affected (fun row => row.id = user.id && !row.deleted) = 0 then none
  else
    (replaceSCIMUserEmails clock dir.addresses user.id user.emails).map fun addresses =>
      ⟨dir.defaultSchema,
        dir.identities.updateWhere (fun row => row.id = user.id && !row.deleted)
          (Identity.assign user) (Identity.id_assign user), addresses⟩

def stringFromTraits (traits : List (String × String)) (key : String) : String :=
  trimSpace ((traits.lookup key).getD "")

def firstNonEmptySCIM (values : List String) : String :=
  ((values.map trimSpace).find? (· ≠ "")).getD ""

variable (tables : CaseTables)

def scanSCIMUser (row : Identity) (email : Option String) : User :=
  let userName := firstNonEmptySCIM [derefString email, stringFromTraits row.traits "email"]
  let displayName := firstNonEmptySCIM
    [stringFromTraits row.traits "display_name", stringFromTraits row.traits "name"]
  let given := stringFromTraits row.traits "given_name"
  let family := stringFromTraits row.traits "family_name"
  { id := row.id
    externalID := stringFromTraits row.traits "scim_external_id"
    userName := userName
    name := if given ≠ "" ∨ family ≠ "" then some ⟨displayName, family, given, "", "", ""⟩
      else none
    displayName := displayName
    active := !tables.equalFold (trimSpace row.state) "inactive"
    emails := if userName ≠ "" then [⟨userName, "work", true, ""⟩] else [] }

/-- `ORDER BY is_primary DESC, created_at ASC`. -/
def Address.precedes (row other : Address) : Prop :=
  (other.isPrimary = true → row.isPrimary = true) ∧
    (row.isPrimary = other.isPrimary → row.createdAt ≤ other.createdAt)

instance instDecidablePrecedes (row other : Address) : Decidable (row.precedes other) :=
  inferInstanceAs (Decidable (_ ∧ _))

def firstAddress (addresses : List Address) (identityID : UUID) : Option String :=
  (((addresses.filter fun row => row.identityID = identityID).insertionSort
    Address.precedes).head?).map Address.value

def getUserByID (dir : Directory) (id : UUID) : Option User :=
  ((dir.identities.find? id).filter fun row => !row.deleted).map fun row =>
    scanSCIMUser tables row (firstAddress dir.addresses id)

end Users

section Addresses

variable {clock : Nat → Int} {addresses stored : List Address} {identityID : UUID}

theorem firstAddress_others :
    firstAddress (addresses.filter fun old => old.identityID ≠ identityID) identityID = none := by
  have hnone : (addresses.filter fun old => old.identityID ≠ identityID).filter
      (fun row => row.identityID = identityID) = [] := by
    simp [List.filter_filter]
  rw [firstAddress, hnone]
  rfl

theorem firstAddress_concat (row : Address) (hrow : row.identityID = identityID) :
    firstAddress ((addresses.filter fun old => old.identityID ≠ identityID) ++ [row]) identityID =
      some row.value := by
  have hone : ((addresses.filter fun old => old.identityID ≠ identityID) ++ [row]).filter
      (fun row => row.identityID = identityID) = [row] := by
    simp [List.filter_filter, hrow]
  rw [firstAddress, hone]
  rfl

/-- Without e-mails there is no address. -/
theorem firstAddress_of_nil
    (hstored : replaceSCIMUserEmails clock addresses identityID [] = some stored) :
    firstAddress stored identityID = none := by
  cases hstored
  exact firstAddress_others

theorem firstAddress_of_single {email : Email} (hvalue : trimSpace email.value ≠ "")
    (hstored : replaceSCIMUserEmails clock addresses identityID [email] = some stored) :
    firstAddress stored identityID = some (trimSpace email.value) := by
  have hfree : ((addresses.filter fun old => old.identityID ≠ identityID).any fun old =>
      old.identityID = identityID && old.isPrimary) = false := by
    simp only [List.any_eq_false, List.mem_filter, decide_eq_true_eq, Bool.and_eq_true, not_and]
    exact fun old hold hown => absurd hown hold.2
  simp only [replaceSCIMUserEmails, insertEmails, if_neg hvalue, insertAddress, hfree,
    Bool.and_false, Bool.false_eq_true, if_false, Option.bind_some, Option.some.injEq] at hstored
  rw [← hstored]
  exact firstAddress_concat _ rfl

/-- Two primary addresses are refused. -/
theorem replaceSCIMUserEmails_two {first second : Email} {rest : List Email}
    (hfirst : trimSpace first.value ≠ "") (hsecond : trimSpace second.value ≠ "")
    (hprimary : second.primary = true) :
    replaceSCIMUserEmails clock addresses identityID (first :: second :: rest) = none := by
  simp [replaceSCIMUserEmails, insertEmails, hfirst, hsecond, hprimary, insertAddress]

end Addresses

section ReadBack

/-- What the comparison of e-mails looks at. -/
def pairs (emails : List Email) : List (String × Bool) :=
  emails.map fun email => (email.value, email.primary)

structure SameUser (user read : User) : Prop where
  userName : read.userName = user.userName
  emails : ∀ pair, pair ∈ pairs read.emails ↔ pair ∈ pairs user.emails
  externalID : read.externalID = user.externalID
  displayName : read.displayName = user.displayName
  name : read.name = user.name
  active : read.active = user.active

/-- A user that the tables can hold: the user name is the one e-mail, every text is trimmed, and
the name has a part of its own and no part that has no column. -/
structure Storable (user : User) : Prop where
  emails : pairs user.emails = [(user.userName, true)] ∧ user.userName ≠ "" ∧
      trimSpace user.userName = user.userName ∨ user.emails = [] ∧ user.userName = ""
  externalID : trimSpace user.externalID = user.externalID
  displayName : trimSpace user.displayName = user.displayName ∧
    (user.displayName ≠ "" ∨ ∀ name ∈ user.name, trimSpace name.formatted = "")
  name : ∀ name ∈ user.name, (name.givenName ≠ "" ∨ name.familyName ≠ "") ∧
    trimSpace name.givenName = name.givenName ∧ trimSpace name.familyName = name.familyName ∧
    name = ⟨user.displayName, name.familyName, name.givenName, "", "", ""⟩

variable {tables : CaseTables} {clock : Nat → Int} {dir next : Directory} {user : User}

theorem getUserByID_of_find {row : Identity}
    (hrow : next.identities.find? user.id = some row) (hlive : row.deleted = false) :
    getUserByID tables next user.id =
      some (scanSCIMUser tables row (firstAddress next.addresses user.id)) := by
  rw [getUserByID, hrow]
  simp [Option.filter, hlive]

/-- What an accepted user leaves in the tables. -/
theorem getUserByID_stored (tables : CaseTables)
    (haccepted : createUser clock dir user = some next ∨ updateUser clock dir user = some next) :
    ∃ row : Identity, row.traits = scimUserTraits user ∧
      row.state = scimIdentityState user.active ∧
      replaceSCIMUserEmails clock dir.addresses user.id user.emails = some next.addresses ∧
      getUserByID tables next user.id =
        some (scanSCIMUser tables row (firstAddress next.addresses user.id)) := by
  rcases haccepted with hcreated | hupdated
  · simp only [createUser, Option.bind_eq_some_iff, Option.map_eq_some_iff] at hcreated
    obtain ⟨schemaID, -, identities, hinsert, addresses, hemails, rfl⟩ := hcreated
    have hrow : (⟨user.id, schemaID, scimUserTraits user, scimIdentityState user.active, false⟩ :
        Identity) ∈ identities.rows := by
      rw [((Table.insert?_eq_some_iff ..).mp hinsert).2]
      exact List.mem_append_right _ List.mem_cons_self
    exact ⟨_, rfl, rfl, hemails,
      getUserByID_of_find ((Table.find?_eq_some_iff ..).mpr ⟨hrow, rfl⟩) rfl⟩
  · unfold updateUser at hupdated
    split at hupdated
    · cases hupdated
    · rename_i haffected
      obtain ⟨addresses, hemails, rfl⟩ := Option.map_eq_some_iff.mp hupdated
      obtain ⟨row, hrow, hmatch⟩ := List.countP_pos_iff.mp (Nat.pos_of_ne_zero haffected)
      simp only [Bool.and_eq_true, decide_eq_true_eq, Bool.not_eq_true'] at hmatch
      have hfind := (Table.find?_eq_some_iff dir.identities user.id row).mpr ⟨hrow, hmatch.1⟩
      refine ⟨row.assign user, rfl, rfl, hemails, getUserByID_of_find ?_ hmatch.2⟩
      dsimp only
      rw [Table.find?_updateWhere, hfind, Option.map_some]
      simp [hmatch]

theorem firstNonEmptySCIM_trimmed (one other : String) :
    firstNonEmptySCIM [trimSpace one, trimSpace other] =
      if trimSpace one = "" then trimSpace other else trimSpace one := by
  unfold firstNonEmptySCIM
  simp only [List.map_cons, List.map_nil, trimSpace_trimSpace]
  by_cases hone : trimSpace one = ""
  · by_cases hother : trimSpace other = ""
    · simp [hone, hother]
    · simp [hone, hother]
  · simp [hone]

/-- The display name that is written: a blank one is replaced by the formatted name. -/
def writtenDisplayName (user : User) : String :=
  match user.name with
  | none => user.displayName
  | some name => if trimSpace user.displayName = "" then trimSpace name.formatted
      else user.displayName

theorem stringFromTraits_scim (user : User) :
    stringFromTraits (scimUserTraits user) "email" = trimSpace user.userName ∧
      stringFromTraits (scimUserTraits user) "display_name" = trimSpace (writtenDisplayName user) ∧
      stringFromTraits (scimUserTraits user) "name" = "" ∧
      stringFromTraits (scimUserTraits user) "scim_external_id" = trimSpace user.externalID ∧
      stringFromTraits (scimUserTraits user) "given_name" =
        (user.name.map fun name => trimSpace name.givenName).getD "" ∧
      stringFromTraits (scimUserTraits user) "family_name" =
        (user.name.map fun name => trimSpace name.familyName).getD "" := by
  have hempty : trimSpace "" = "" := by decide
  unfold stringFromTraits scimUserTraits writtenDisplayName
  cases user.name with
  | none => simp [List.lookup_cons, hempty, trimSpace_trimSpace]
  | some name => simp [List.lookup_cons, hempty, trimSpace_trimSpace]

theorem equalFold_state (active : Bool) :
    (!tables.equalFold (trimSpace (scimIdentityState active)) "inactive") = active := by
  cases active with
  | true =>
      have htrim : trimSpace (scimIdentityState true) = "active" := by decide
      rw [htrim]
      simp [CaseTables.equalFold]
  | false =>
      have htrim : trimSpace (scimIdentityState false) = "inactive" := by decide
      rw [htrim]
      simp [CaseTables.equalFold]

/-- The user that is read, from what was written and the first address. -/
theorem scanSCIMUser_eq (tables : CaseTables) {row : Identity}
    (htraits : row.traits = scimUserTraits user)
    (hstate : row.state = scimIdentityState user.active) (email : Option String) :
    (scanSCIMUser tables row email).userName =
        firstNonEmptySCIM [derefString email, trimSpace user.userName] ∧
      (scanSCIMUser tables row email).externalID = trimSpace user.externalID ∧
      (scanSCIMUser tables row email).displayName = trimSpace (writtenDisplayName user) ∧
      (scanSCIMUser tables row email).active = user.active ∧
      (scanSCIMUser tables row email).name = user.name.bind fun name =>
        if trimSpace name.givenName ≠ "" ∨ trimSpace name.familyName ≠ "" then
          some ⟨trimSpace (writtenDisplayName user), trimSpace name.familyName,
            trimSpace name.givenName, "", "", ""⟩
        else none := by
  obtain ⟨hemail, hdisplay, hname, hexternal, hgiven, hfamily⟩ := stringFromTraits_scim user
  have hshown : firstNonEmptySCIM [trimSpace (writtenDisplayName user), ""] =
      trimSpace (writtenDisplayName user) := by
    have hempty : trimSpace "" = "" := by decide
    have hfirst := firstNonEmptySCIM_trimmed (writtenDisplayName user) ""
    rw [hempty] at hfirst
    rw [hfirst]
    split
    · rename_i hblank
      exact hblank.symm
    · rfl
  unfold scanSCIMUser
  rw [htraits, hstate]
  dsimp only
  rw [hemail, hdisplay, hname, hexternal, hgiven, hfamily, hshown, equalFold_state]
  refine ⟨rfl, rfl, rfl, rfl, ?_⟩
  cases user.name with
  | none => simp
  | some name => simp

theorem scanSCIMUser_emails (row : Identity) (email : Option String) :
    ((scanSCIMUser tables row email).userName ≠ "" → (scanSCIMUser tables row email).emails =
        [⟨(scanSCIMUser tables row email).userName, "work", true, ""⟩]) ∧
      ((scanSCIMUser tables row email).userName = "" →
        (scanSCIMUser tables row email).emails = []) := by
  simp only [scanSCIMUser]
  generalize firstNonEmptySCIM [derefString email, stringFromTraits row.traits "email"] = userName
  exact ⟨fun hname => if_pos hname, fun hname => if_neg (not_not_intro hname)⟩

theorem displayName_iff (user : User) :
    trimSpace (writtenDisplayName user) = user.displayName ↔
      trimSpace user.displayName = user.displayName ∧
        (user.displayName ≠ "" ∨ ∀ name ∈ user.name, trimSpace name.formatted = "") := by
  unfold writtenDisplayName
  cases hname : user.name with
  | none => simp
  | some name =>
      simp only [Option.mem_some_iff, forall_eq']
      by_cases hblank : trimSpace user.displayName = ""
      · rw [if_pos hblank, trimSpace_trimSpace]
        constructor
        · intro hformatted
          have htrimmed : trimSpace user.displayName = user.displayName := by
            rw [← hformatted, trimSpace_trimSpace]
          refine ⟨htrimmed, Or.inr ?_⟩
          rw [hformatted, ← htrimmed, hblank]
        · rintro ⟨htrimmed, hshown | hformatted⟩
          · exact absurd (htrimmed.symm.trans hblank) hshown
          · rw [hformatted, ← hblank, htrimmed]
      · rw [if_neg hblank]
        refine ⟨fun htrimmed => ⟨htrimmed, Or.inl fun hempty => hblank ?_⟩, fun hboth => hboth.1⟩
        rw [htrimmed, hempty]

theorem name_iff (user : User) (hdisplay : trimSpace (writtenDisplayName user) = user.displayName) :
    (user.name.bind fun name =>
        if trimSpace name.givenName ≠ "" ∨ trimSpace name.familyName ≠ "" then
          some ⟨trimSpace (writtenDisplayName user), trimSpace name.familyName,
            trimSpace name.givenName, "", "", ""⟩
        else none) = user.name ↔
      ∀ name ∈ user.name, (name.givenName ≠ "" ∨ name.familyName ≠ "") ∧
        trimSpace name.givenName = name.givenName ∧
        trimSpace name.familyName = name.familyName ∧
        name = ⟨user.displayName, name.familyName, name.givenName, "", "", ""⟩ := by
  rw [hdisplay]
  cases hname : user.name with
  | none => simp
  | some name =>
      simp only [Option.bind_some, Option.mem_some_iff, forall_eq']
      constructor
      · intro hread
        split at hread
        · rename_i hparts
          have hsame := Option.some.inj hread
          have hgiven : trimSpace name.givenName = name.givenName := congrArg Name.givenName hsame
          have hfamily : trimSpace name.familyName = name.familyName :=
            congrArg Name.familyName hsame
          rw [hgiven, hfamily] at hparts hsame
          exact ⟨hparts, hgiven, hfamily, hsame.symm⟩
        · cases hread
      · rintro ⟨hparts, hgiven, hfamily, hsame⟩
        rw [hgiven, hfamily, if_pos hparts, ← hsame]

theorem trimSpace_firstNonEmptySCIM (values : List String) :
    trimSpace (firstNonEmptySCIM values) = firstNonEmptySCIM values := by
  unfold firstNonEmptySCIM
  cases hfound : (values.map trimSpace).find? (· ≠ "") with
  | none => decide
  | some value =>
      obtain ⟨raw, -, rfl⟩ := List.mem_map.mp (List.mem_of_find?_eq_some hfound)
      exact trimSpace_trimSpace raw

/-- E-mails that are all the one primary address are one e-mail, or two were refused. -/
theorem pairs_eq_singleton {stored : List Address} {emails : List Email} {value : String}
    (hstored : replaceSCIMUserEmails clock dir.addresses user.id emails = some stored)
    (hvalue : value ≠ "") (htrimmed : trimSpace value = value)
    (hsame : ∀ pair, pair = (value, true) ↔ pair ∈ pairs emails) :
    pairs emails = [(value, true)] := by
  have hall : ∀ email ∈ emails, email.value = value ∧ email.primary = true := by
    intro email hemail
    exact Prod.mk.inj ((hsame _).mpr (List.mem_map.mpr ⟨email, hemail, rfl⟩))
  cases emails with
  | nil => exact absurd ((hsame _).mp rfl) List.not_mem_nil
  | cons first rest =>
      rw [List.forall_mem_cons] at hall
      cases rest with
      | nil => simp [pairs, hall.1]
      | cons second rest =>
          have hsecond := hall.2 second List.mem_cons_self
          rw [replaceSCIMUserEmails_two (by rwa [hall.1.1, htrimmed])
            (by rwa [hsecond.1, htrimmed]) hsecond.2] at hstored
          cases hstored

/-- The user name and the e-mails come back if and only if they are one and the same. -/
theorem emails_iff {stored : List Address} {read : User}
    (hemails : replaceSCIMUserEmails clock dir.addresses user.id user.emails = some stored)
    (huserName : read.userName =
      firstNonEmptySCIM [derefString (firstAddress stored user.id), trimSpace user.userName])
    (hread : (read.userName ≠ "" → read.emails = [⟨read.userName, "work", true, ""⟩]) ∧
      (read.userName = "" → read.emails = [])) :
    (read.userName = user.userName ∧ ∀ pair, pair ∈ pairs read.emails ↔ pair ∈ pairs user.emails) ↔
      pairs user.emails = [(user.userName, true)] ∧ user.userName ≠ "" ∧
        trimSpace user.userName = user.userName ∨ user.emails = [] ∧ user.userName = "" := by
  constructor
  · rintro ⟨hname, hsame⟩
    have htrimmed : trimSpace user.userName = user.userName := by
      rw [← hname, huserName, trimSpace_firstNonEmptySCIM]
    rw [hname] at hread
    by_cases hempty : user.userName = ""
    · rw [hread.2 hempty] at hsame
      have hnone : pairs user.emails = [] := List.eq_nil_iff_forall_not_mem.mpr fun pair hpair =>
        List.not_mem_nil ((hsame pair).mpr hpair)
      exact Or.inr ⟨List.map_eq_nil_iff.mp hnone, hempty⟩
    · rw [hread.1 hempty] at hsame
      refine Or.inl ⟨pairs_eq_singleton hemails hempty htrimmed fun pair => ?_, hempty, htrimmed⟩
      rw [← hsame]
      exact List.mem_singleton.symm
  · rintro (⟨hone, hvalue, htrimmed⟩ | ⟨hnone, hempty⟩)
    · obtain ⟨email, hemail, hpair⟩ := List.map_eq_singleton_iff.mp hone
      obtain ⟨hsame, -⟩ := Prod.mk.inj hpair
      rw [hemail] at hemails
      have hfirst := firstAddress_of_single (by rwa [hsame, htrimmed]) hemails
      have hname : read.userName = user.userName := by
        rw [huserName, hfirst, hsame, derefString, Option.getD_some, trimSpace_trimSpace,
          firstNonEmptySCIM_trimmed, htrimmed, if_neg hvalue]
      refine ⟨hname, fun pair => ?_⟩
      rw [hread.1 (by rwa [hname]), hname, hone]
      rfl
    · rw [hnone] at hemails
      have hname : read.userName = "" := by
        rw [huserName, firstAddress_of_nil hemails, hempty]
        decide
      refine ⟨hname.trans hempty.symm, fun pair => ?_⟩
      rw [hread.2 hname, hnone]

/-- A user that was accepted is read back as it was written if and only if the tables can hold
it. -/
theorem user_reads_back_iff
    (haccepted : createUser clock dir user = some next ∨ updateUser clock dir user = some next) :
    (∃ read, getUserByID tables next user.id = some read ∧ SameUser user read) ↔ Storable user := by
  obtain ⟨row, htraits, hstate, hemails, hread⟩ := getUserByID_stored tables haccepted
  obtain ⟨huserName, hexternal, hdisplay, hactive, hname⟩ :=
    scanSCIMUser_eq tables htraits hstate (firstAddress next.addresses user.id)
  have hboth := emails_iff hemails huserName (scanSCIMUser_emails row _)
  constructor
  · rintro ⟨read, hfound, hsame⟩
    rw [hread] at hfound
    cases hfound
    have hshown := hdisplay.symm.trans hsame.displayName
    exact ⟨hboth.mp ⟨hsame.userName, hsame.emails⟩, hexternal.symm.trans hsame.externalID,
      (displayName_iff user).mp hshown, (name_iff user hshown).mp (hname.symm.trans hsame.name)⟩
  · intro hstorable
    have hshown := (displayName_iff user).mpr hstorable.displayName
    obtain ⟨hsameName, hsameEmails⟩ := hboth.mpr hstorable.emails
    exact ⟨_, hread, hsameName, hsameEmails, hexternal.trans hstorable.externalID,
      hdisplay.trans hshown, hname.trans ((name_iff user hshown).mpr hstorable.name), hactive⟩

def emptyDirectory : Directory := ⟨some 1, Table.empty, []⟩

def annWith (emails : List Email) : User :=
  ⟨7, "ext-7", "ann@example.org", some ⟨"Ann Lee", "Lee", "Ann", "", "", ""⟩, "Ann Lee", true,
    emails⟩

def workEmail : Email := ⟨"ann@example.org", "work", true, ""⟩

def homeEmail : Email := ⟨"ann@home.org", "home", false, ""⟩

/-- The user that is read back, if this one is accepted. -/
def readBack (user : User) : Option User :=
  (createUser (fun _ => 0) emptyDirectory user).bind fun next =>
    getUserByID ⟨id, id⟩ next user.id

theorem ann_reads_back : ∃ next read,
    createUser (fun _ => 0) emptyDirectory (annWith [workEmail]) = some next ∧
      getUserByID ⟨id, id⟩ next 7 = some read ∧ SameUser (annWith [workEmail]) read := by
  have haccepted :
      (createUser (fun _ => 0) emptyDirectory (annWith [workEmail])).isSome = true := by
    decide +kernel
  obtain ⟨next, hnext⟩ := Option.isSome_iff_exists.mp haccepted
  have hstorable : Storable (annWith [workEmail]) :=
    ⟨Or.inl (by decide +kernel), by decide +kernel, by decide +kernel, by decide +kernel⟩
  obtain ⟨read, hread⟩ := (user_reads_back_iff (Or.inl hnext)).mpr hstorable
  exact ⟨next, read, hnext, hread⟩

/-- A second e-mail is stored and does not come back. -/
theorem second_email_lost :
    readBack (annWith [workEmail, homeEmail]) = some (annWith [workEmail]) ∧
      ¬SameUser (annWith [workEmail, homeEmail]) (annWith [workEmail]) := by
  refine ⟨by decide +kernel, fun hsame => ?_⟩
  have hlost := (hsame.emails ("ann@home.org", false)).mpr (by decide)
  revert hlost
  decide

end ReadBack

end Aegion.SCIM
