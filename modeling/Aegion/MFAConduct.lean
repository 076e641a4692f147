/-
What the MFA programs have done when they succeed, and what a transaction has
seen when it commits.
-/
import Aegion.MFAService
import Aegion.TableHistory

namespace Aegion.MFA

open Go Service History
open OAuth (Time DBError)

abbrev Past := List (Called Reply)

/-- A one-time password of the identity was verified: its factor was read, the
code is right for the secret at a time that was read, and the use recorded. -/
structure TOTPProof (platform : Platform) (cfg : Config) (past : Past)
    (identityID code : String) (secret : String) (usedAt : Time) : Prop where
  factor : ∃ factor : TOTPFactor,
    (⟨.selectTOTPFactor identityID, .ok (some factor)⟩ : Called Reply) ∈ past ∧
      platform.decryptField cfg.cipherKey factor.secretCiphertext
        ("mfa-totp:" ++ identityID) = some secret
  time : (⟨.clock, usedAt⟩ : Called Reply) ∈ past
  right : checkTOTP platform cfg secret code usedAt = some true
  recorded : ∃ n,
    (⟨.updateTOTPLastUsed identityID usedAt, .ok (n + 1)⟩ : Called Reply) ∈ past

/-- A backup code of the identity was verified: an unused row that matches was
listed, and this thread has marked it. -/
structure BackupCodeProof (platform : Platform) (past : Past)
    (identityID code : String) (row : BackupCode) : Prop where
  listed : ∃ rows,
    (⟨.selectBackupCodes identityID, .ok rows⟩ : Called Reply) ∈ past ∧ row ∈ rows
  unused : row.usedAt = none
  right : platform.verifyPassword (normalizeBackupCode platform code)
    row.codeHash = some true
  marked : ∃ usedAt n,
    (⟨.updateBackupCodeUsed identityID row.id usedAt, .ok (n + 1)⟩ :
      Called Reply) ∈ past

/-- A trusted device of the identity was verified: the device of this token was
found, neither revoked nor expired, and its use recorded. -/
structure DeviceProof (platform : Platform) (past : Past)
    (identityID token : String) (device : TrustedDevice) : Prop where
  found : (⟨.selectTrustedDevice identityID (platform.hashToken token)
    (platform.tokenPrefix token), .ok (some device)⟩ : Called Reply) ∈ past
  live : device.revokedAt = none ∧ ∃ checked,
    (⟨.clock, checked⟩ : Called Reply) ∈ past ∧ ¬ device.expiresAt < checked
  touched : ∃ touchedAt n,
    (⟨.updateDeviceTouched identityID device.id touchedAt, .ok (n + 1)⟩ :
      Called Reply) ∈ past

section Growth

variable {platform : Platform} {cfg : Config} {past later : Past}
variable (hsub : past ⊆ later)

include hsub

/-- A proof stays one as the thread goes on; so for the two below. -/
theorem TOTPProof.mono {identityID code secret : String} {usedAt : Time}
    (hproof : TOTPProof platform cfg past identityID code secret usedAt) :
    TOTPProof platform cfg later identityID code secret usedAt := by
  obtain ⟨⟨factor, hfactor, hsecret⟩, htime, hright, n, hrecorded⟩ := hproof
  exact ⟨⟨factor, hsub hfactor, hsecret⟩, hsub htime, hright, n, hsub hrecorded⟩

theorem BackupCodeProof.mono {identityID code : String} {row : BackupCode}
    (hproof : BackupCodeProof platform past identityID code row) :
    BackupCodeProof platform later identityID code row := by
  obtain ⟨⟨rows, hrows, hmem⟩, hunused, hright, usedAt, n, hmarked⟩ := hproof
  exact ⟨⟨rows, hsub hrows, hmem⟩, hunused, hright, usedAt, n, hsub hmarked⟩

theorem DeviceProof.mono {identityID token : String} {device : TrustedDevice}
    (hproof : DeviceProof platform past identityID token device) :
    DeviceProof platform later identityID token device := by
  obtain ⟨hfound, ⟨hrevoked, checked, hchecked, hlive⟩, touchedAt, n, htouched⟩ :=
    hproof
  exact ⟨hsub hfound, ⟨hrevoked, checked, hsub hchecked, hlive⟩, touchedAt, n, hsub htouched⟩

end Growth

section Outcomes

variable {α : Type}

theorem scanRow_eq_ok {missing : StoreError} {reply : Except DBError (Option α)}
    {row : α} : scanRow missing reply = .ok row ↔ reply = .ok (some row) := by
  rcases reply with e | _ | found
  · simp [scanRow]
  · simp [scanRow]
  · simp [scanRow]

theorem scanAll_eq_ok {reply : Except DBError α} {rows : α} :
    scanAll reply = .ok rows ↔ reply = .ok rows := by
  cases reply with
  | error e => simp [scanAll]
  | ok found => simp [scanAll]

theorem execSome_eq_ok {missing : StoreError} {reply : Except DBError Nat} :
    execSome missing reply = .ok () ↔ ∃ n, reply = .ok (n + 1) := by
  rcases reply with e | _ | n
  · simp [execSome]
  · simp [execSome]
  · simp [execSome]

theorem elim_eq_ok {ε : Type} {e : ε} {x : Option α} {value : α} :
    x.elim (.error e : Except ε α) .ok = .ok value ↔ x = some value := by
  cases x with
  | none => simp
  | some found => simp

/-- A code that matches is of the list, unused and has the right hash. -/
theorem matchBackupCode_eq_some {platform : Platform} {code : String}
    {rows : List BackupCode} {row : BackupCode}
    (hmatch : matchBackupCode platform code rows = .ok (some row)) :
    row ∈ rows ∧ row.usedAt = none ∧
      platform.verifyPassword (normalizeBackupCode platform code) row.codeHash = some true := by
  induction rows with
  | nil => cases hmatch
  | cons candidate rest ih =>
      have hwiden : matchBackupCode platform code rest = .ok (some row) → _ :=
        fun hrest =>
          let ⟨hmem, hfacts⟩ := ih hrest
          (⟨List.mem_cons_of_mem candidate hmem, hfacts⟩ :
            row ∈ candidate :: rest ∧ _)
      rw [matchBackupCode] at hmatch
      by_cases hused : candidate.usedAt.isSome = true
      · rw [if_pos hused] at hmatch
        exact hwiden hmatch
      · rw [if_neg hused] at hmatch
        split at hmatch
        · cases hmatch
        · rename_i hright
          cases hmatch
          exact ⟨List.mem_cons_self, by simpa using hused, hright⟩
        · exact hwiden hmatch

end Outcomes

/-- Calls that neither delete in a transaction nor commit one. -/
def Plain (call : Called Reply) : Prop :=
  match call.1 with
  | .deleteInTx .. => False
  | .commit _ => False
  | _ => True

section Verified

variable {duty : Past → Called Reply → Prop} {past : Past}
variable (hduty : ∀ past call, Plain call → duty past call)

include hduty

/-- One plain statement. -/
theorem yields_plain_statement {ε α : Type} {c : Call}
    {outcome : Reply c → Except ε α} {post : α → Past → Prop} (hplain : ∀ reply, Plain ⟨c, reply⟩)
    (hpost : ∀ reply value, outcome reply = .ok value → post value (⟨c, reply⟩ :: past)) :
    (statement c outcome).Yields duty post past := by
  rw [yields_statement]
  exact fun reply => ⟨hduty _ _ (hplain reply), hpost reply⟩

variable (platform : Platform) (cfg : Config)

/-- A success has read the factor and recorded the use of a matching code. -/
theorem verifyTOTP_yields (identityID code : String) :
    (verifyTOTP platform cfg identityID code).Yields duty
      (fun _ later => ∃ secret usedAt, TOTPProof platform cfg later
        (trimSpace identityID) code secret usedAt) past := by
  unfold verifyTOTP
  simp only [bind_eq, yields_bind, yields_rejectIf, yields_orReject, yields_ofExcept]
  intro _
  refine yields_plain_statement hduty (fun _ => trivial) fun reply factor hfactor => ?_
  rw [scanRow_eq_ok] at hfactor
  subst hfactor
  intro secret hsecret
  refine yields_plain_statement hduty (fun _ => trivial) fun time current hcurrent => ?_
  cases hcurrent
  intro ok hok hright
  refine yields_plain_statement hduty (fun _ => trivial) fun reply value hvalue => ?_
  obtain ⟨n, rfl⟩ := execSome_eq_ok.mp hvalue
  rw [elim_eq_ok] at hok
  refine ⟨secret, time, ⟨factor, by simp, elim_eq_ok.mp hsecret⟩, by simp, ?_, n, by simp⟩
  rw [hok, Option.some.injEq]
  exact Bool.not_eq_false ok ▸ hright

/-- A success has marked a matching code as used. -/
theorem verifyBackupCode_yields (identityID code : String) :
    (verifyBackupCode platform identityID code).Yields duty
      (fun _ later => ∃ row, BackupCodeProof platform later
        (trimSpace identityID) code row) past := by
  unfold verifyBackupCode
  simp only [bind_eq, yields_bind, yields_rejectIf, yields_orReject, yields_ofExcept]
  intro _
  refine yields_plain_statement hduty (fun _ => trivial) fun reply rows hrows => ?_
  rw [scanAll_eq_ok] at hrows
  subst hrows
  refine yields_plain_statement hduty (fun _ => trivial) fun time current hcurrent => ?_
  cases hcurrent
  intro found hfound candidate hcandidate
  rw [elim_eq_ok] at hcandidate
  subst hcandidate
  refine yields_plain_statement hduty (fun _ => trivial) fun reply value hvalue => ?_
  obtain ⟨n, rfl⟩ := execSome_eq_ok.mp hvalue
  obtain ⟨hmem, hunused, hright⟩ := matchBackupCode_eq_some hfound
  exact ⟨candidate, ⟨rows, by simp, hmem⟩, hunused, hright, time, n, by simp⟩

/-- A device is admitted if it is neither revoked nor expired, and then touched. -/
theorem admitDevice_yields {identityID : String} (token : String) {device : TrustedDevice}
    (hfound : (⟨.selectTrustedDevice identityID (platform.hashToken token)
      (platform.tokenPrefix token), .ok (some device)⟩ : Called Reply) ∈ past) :
    (admitDevice identityID device).Yields duty (fun valid later => valid = true →
        DeviceProof platform later identityID token device) past := by
  unfold admitDevice
  simp only [bind_eq, yields_bind]
  refine yields_plain_statement hduty (fun _ => trivial) fun time checked hchecked => ?_
  cases hchecked
  by_cases hdead : device.revokedAt.isSome ∨ device.expiresAt < time
  · rw [if_pos hdead]
    simp
  · rw [if_neg hdead]
    simp only [yields_bind, yields_orReject]
    refine yields_plain_statement hduty (fun _ => trivial) fun touchedAt current hcurrent => ?_
    cases hcurrent
    refine yields_plain_statement hduty (fun _ => trivial) fun reply value hvalue => ?_
    obtain ⟨n, rfl⟩ := execSome_eq_ok.mp hvalue
    simp only [pure_eq, yields_succeed, forall_const]
    obtain ⟨hrevoked, hexpired⟩ := not_or.mp hdead
    refine ⟨by simp [hfound], ⟨?_, time, by simp, hexpired⟩, touchedAt, n, by simp⟩
    simpa using hrevoked

theorem validateTrustedDevice_yields (identityID token : String) :
    (validateTrustedDevice platform identityID token).Yields duty
      (fun valid later => valid = true → ∃ device, DeviceProof platform later
        (trimSpace identityID) (trimSpace token) device) past := by
  unfold validateTrustedDevice
  by_cases hblank : trimSpace identityID = "" ∨ trimSpace token = ""
  · simp [hblank]
  · simp only [hblank, ↓reduceIte, bind_eq, yields_bind, yields_attempt]
    simp only [getTrustedDevice, keeps_statement]
    intro reply
    refine ⟨hduty _ _ trivial, ?_⟩
    rcases reply with e | _ | device
    · simp [scanRow]
    · simp [scanRow]
    · refine (admitDevice_yields hduty platform (trimSpace token) List.mem_cons_self).imp ?_
      intro valid later _ hproof hvalid
      exact ⟨device, hproof hvalid⟩

end Verified

section Transactions

/-- The transaction removes every backup code its owner's DELETE statements
have seen. -/
def Covers (tx : Tx) (past : Past) : Prop :=
  ∀ identityID ids,
    (⟨.deleteInTx .backupCodes identityID, .ok ids⟩ : Called Reply) ∈ past →
      ∀ id ∈ ids, tx.removes .backupCodes id = true

theorem Covers.cons {tx : Tx} {past : Past} {call : Called Reply}
    (hcovers : Covers tx past) (hplain : Plain call) : Covers tx (call :: past) := by
  intro identityID ids hmem
  rcases List.mem_cons.mp hmem with rfl | hpast
  · exact hplain.elim
  · exact hcovers identityID ids hpast

theorem Covers.of_plain (tx : Tx) {past : Past}
    (hplain : ∀ call ∈ past, Plain call) : Covers tx past :=
  fun _ _ hmem => (hplain _ hmem).elim

/-- A DELETE removes the keys that it has seen. -/
theorem Covers.remove {tx : Tx} {past : Past} (hcovers : Covers tx past)
    (relation : Relation) (identityID : String) (ids : List String) :
    Covers (tx.remove relation ids) (⟨.deleteInTx relation identityID, .ok ids⟩ :: past) := by
  intro other seen hmem id hid
  simp only [Tx.removes, Tx.remove, List.contains_eq_mem, List.mem_append,
    List.mem_map, Prod.mk.injEq, decide_eq_true_eq]
  rcases List.mem_cons.mp hmem with heq | hpast
  · cases heq
    exact Or.inr ⟨id, hid, rfl, rfl⟩
  · left
    simpa [Tx.removes] using hcovers other seen hpast id hid

/-- What every thread owes: a commit covers what the transaction has seen. -/
def callDuty (past : Past) : Called Reply → Prop
  | ⟨.commit tx, _⟩ => Covers tx past
  | _ => True

theorem callDuty_of_plain (past : Past) (call : Called Reply)
    (hplain : Plain call) : callDuty past call := by
  obtain ⟨c, reply⟩ := call
  cases c <;> trivial

variable {past : Past}

/-- A step of plain calls after plain calls. -/
theorem yields_bind_plain {ε α β : Type} {x : Service Reply ε α}
    {f : α → Service Reply ε β} {post : β → Past → Prop}
    (hplain : ∀ call ∈ past, Plain call) (honly : x.Only Plain)
    (hf : ∀ value later, (∀ call ∈ later, Plain call) →
      (f value).Yields callDuty post later) :
    (x.bind f).Yields callDuty post past := by
  rw [yields_bind]
  refine honly.yields callDuty_of_plain fun value added hadded => hf value _ ?_
  intro call hcall
  rcases List.mem_append.mp hcall with hcall | hcall
  · exact hadded call hcall
  · exact hplain call hcall

theorem deleteInTx_yields {tx : Tx} (relation : Relation) (identityID : String)
    (hcovers : Covers tx past) :
    (deleteInTx tx relation identityID).Yields callDuty Covers past := by
  unfold deleteInTx
  rw [yields_statement]
  intro reply
  refine ⟨trivial, fun value hvalue => ?_⟩
  cases reply with
  | error e => cases hvalue
  | ok ids =>
      cases hvalue
      exact hcovers.remove relation identityID ids

theorem insertCodes_yields {tx : Tx} (codes : List BackupCode) (hcovers : Covers tx past) :
    (insertCodes tx codes).Yields callDuty Covers past := by
  induction codes generalizing tx past with
  | nil =>
      rw [insertCodes, yields_succeed]
      exact hcovers
  | cons row rest ih =>
      rw [insertCodes]
      simp only [bind_eq, yields_bind]
      refine yields_plain_statement callDuty_of_plain (fun _ => trivial) fun reply _ _ => ih ?_
      exact hcovers.cons trivial

theorem commit_yields {tx : Tx} (hcovers : Covers tx past) :
    (statement (.commit tx) execAny : StoreM Unit).Yields callDuty (fun _ _ => True) past := by
  rw [yields_statement]
  exact fun reply => ⟨hcovers, fun _ _ => trivial⟩

/-- A rollback owes nothing. -/
theorem withRollback_yields {body : StoreM Unit}
    (hbody : body.Yields callDuty (fun _ _ => True) past) :
    (withRollback body).Yields callDuty (fun _ _ => True) past := by
  unfold withRollback
  simp only [bind_eq, yields_bind, yields_attempt]
  refine hbody.keeps fun outcome later _ => ?_
  refine yields_plain_statement callDuty_of_plain (fun _ => trivial) fun _ _ _ => ?_
  simp

/-- Old codes are deleted and new ones stored in one transaction. -/
theorem replaceBackupCodes_yields (identityID : String) (codes : List BackupCode)
    (hplain : ∀ call ∈ past, Plain call) :
    (replaceBackupCodes identityID codes).Yields callDuty (fun _ _ => True) past := by
  unfold replaceBackupCodes
  simp only [bind_eq, yields_bind]
  refine yields_plain_statement callDuty_of_plain (fun _ => trivial)
    fun reply _ _ => withRollback_yields ?_
  have hstart : Covers .empty (⟨.beginTx, reply⟩ :: past) :=
    (Covers.of_plain .empty hplain).cons trivial
  simp only [yields_bind]
  refine (deleteInTx_yields .backupCodes identityID hstart).imp ?_
  intro tx later _ hcovers
  refine (insertCodes_yields codes hcovers).imp ?_
  intro tx later _ hcovers
  exact commit_yields hcovers

theorem deleteAllIdentityData_yields (identityID : String) (hplain : ∀ call ∈ past, Plain call) :
    (deleteAllIdentityData identityID).Yields callDuty (fun _ _ => True) past := by
  unfold deleteAllIdentityData
  simp only [bind_eq, yields_bind]
  refine yields_plain_statement callDuty_of_plain (fun _ => trivial)
    fun reply _ _ => withRollback_yields ?_
  have hstart : Covers .empty (⟨.beginTx, reply⟩ :: past) :=
    (Covers.of_plain .empty hplain).cons trivial
  simp only [yields_bind]
  refine (deleteInTx_yields _ identityID hstart).imp fun tx later _ hcovers => ?_
  refine (deleteInTx_yields _ identityID hcovers).imp fun tx later _ hcovers => ?_
  refine (deleteInTx_yields _ identityID hcovers).imp fun tx later _ hcovers => ?_
  refine (deleteInTx_yields _ identityID hcovers).imp fun tx later _ hcovers => ?_
  exact commit_yields hcovers

end Transactions

section Serve

variable {platform : Platform} {cfg : Config}

theorem only_now {ε : Type} : (now : Service Reply ε Time).Only Plain :=
  only_statement fun _ => trivial

theorem only_newString {ε : Type} : (newString : Service Reply ε String).Only Plain :=
  only_statement fun _ => trivial

theorem only_randomBytes (length : Nat) (e : MFAError) :
    (randomBytes length e).Only Plain := only_statement fun _ => trivial

theorem only_encryptField (plaintext aad : String) :
    (encryptField platform cfg plaintext aad).Only Plain := by
  unfold encryptField
  simp only [bind_eq]
  exact (only_randomBytes _ _).bind fun _ => only_ofExcept

theorem only_startTOTPEnrollment (identityID accountName : String) :
    (startTOTPEnrollment platform cfg identityID accountName).Only Plain := by
  have hsecret : generateTOTPSecret.Only Plain := by
    unfold generateTOTPSecret
    simp only [bind_eq, pure_eq]
    exact (only_randomBytes _ _).bind fun _ => only_succeed
  unfold startTOTPEnrollment
  simp only [bind_eq, pure_eq]
  exact only_rejectIf.bind fun _ => only_rejectIf.bind fun _ =>
    hsecret.bind fun _ => only_newString.bind fun _ =>
    (only_encryptField _ _).bind fun _ => only_now.bind fun _ =>
    (only_statement fun _ => trivial).orReject.bind fun _ => only_succeed

/-- Codes are drawn and hashed before the transaction begins. -/
theorem only_generateCodes (identityID batchID : String) (current : Time) (n : Nat) :
    (generateCodes platform identityID batchID current n).Only Plain := by
  have hcode : (generateBackupCode platform).Only Plain := by
    unfold generateBackupCode
    simp only [bind_eq, pure_eq]
    refine (only_randomBytes _ _).bind fun buf => ?_
    split_ifs <;> exact only_succeed
  have hhash : ∀ password, (hashPassword platform password).Only Plain := by
    intro password
    unfold hashPassword
    simp only [bind_eq]
    exact (only_randomBytes _ _).bind fun _ => only_ofExcept
  induction n with
  | zero => exact only_succeed
  | succ n ih =>
      rw [generateCodes]
      simp only [bind_eq, pure_eq]
      exact hcode.bind fun _ => (hhash _).bind fun _ =>
        only_newString.bind fun _ => ih.bind fun _ => only_succeed

variable {past : Past}

theorem generateAndStoreBackupCodes_yields (identityID : String)
    (hplain : ∀ call ∈ past, Plain call) :
    (generateAndStoreBackupCodes platform cfg identityID).Yields callDuty
      (fun _ _ => True) past := by
  unfold generateAndStoreBackupCodes
  simp only [bind_eq, pure_eq]
  refine yields_bind_plain hplain only_newString fun batchID later hplain => ?_
  refine yields_bind_plain hplain only_now fun current later hplain => ?_
  refine yields_bind_plain hplain (only_generateCodes _ _ _ _) fun codes later hplain => ?_
  rw [yields_bind, yields_orReject]
  refine (replaceBackupCodes_yields _ _ hplain).imp fun _ _ _ _ => ?_
  simp

theorem completeTOTPEnrollment_yields (identityID enrollmentID code : String) :
    (completeTOTPEnrollment platform cfg identityID enrollmentID code).Yields
      callDuty (fun _ _ => True) [] := by
  have hstart : ∀ call ∈ ([] : Past), Plain call := by simp
  unfold completeTOTPEnrollment
  simp only [bind_eq]
  refine yields_bind_plain hstart only_rejectIf fun _ _ hplain => ?_
  refine yields_bind_plain hplain only_rejectIf fun _ _ hplain => ?_
  refine yields_bind_plain hplain (only_statement fun _ => trivial).orReject
    fun enrollment _ hplain => ?_
  refine yields_bind_plain hplain only_now fun _ _ hplain => ?_
  refine yields_bind_plain hplain only_rejectIf fun _ _ hplain => ?_
  refine yields_bind_plain hplain only_ofExcept fun _ _ hplain => ?_
  refine yields_bind_plain hplain only_now fun _ _ hplain => ?_
  refine yields_bind_plain hplain only_ofExcept fun _ _ hplain => ?_
  refine yields_bind_plain hplain only_rejectIf fun _ _ hplain => ?_
  refine yields_bind_plain hplain only_now fun _ _ hplain => ?_
  refine yields_bind_plain hplain (only_encryptField _ _) fun _ _ hplain => ?_
  refine yields_bind_plain hplain (only_statement fun _ => trivial).orReject fun _ _ hplain => ?_
  refine yields_bind_plain hplain (only_statement fun _ => trivial).orReject fun _ _ hplain => ?_
  exact generateAndStoreBackupCodes_yields _ hplain

theorem regenerateBackupCodes_yields (identityID : String) :
    (regenerateBackupCodes platform cfg identityID).Yields callDuty (fun _ _ => True) [] := by
  have hstart : ∀ call ∈ ([] : Past), Plain call := by simp
  unfold regenerateBackupCodes
  simp only [bind_eq]
  refine yields_bind_plain hstart only_rejectIf fun _ _ hplain => ?_
  refine yields_bind_plain hplain (only_statement fun _ => trivial).orReject fun _ _ hplain => ?_
  exact generateAndStoreBackupCodes_yields _ hplain

theorem resetIdentity_yields (identityID : String) :
    (resetIdentity identityID).Yields callDuty (fun _ _ => True) [] := by
  have hstart : ∀ call ∈ ([] : Past), Plain call := by simp
  unfold resetIdentity
  simp only [bind_eq]
  refine yields_bind_plain hstart only_rejectIf fun _ _ hplain => ?_
  rw [yields_orReject]
  exact deleteAllIdentityData_yields _ hplain

theorem only_hasEnrolledFactor (identityID : String) :
    (hasEnrolledFactor identityID).Only Plain := by
  unfold hasEnrolledFactor
  simp only [bind_eq, pure_eq]
  exact (only_statement fun _ => trivial).orReject.bind fun _ => only_succeed

theorem only_rememberTrustedDevice (identityID label : String) :
    (rememberTrustedDevice platform cfg identityID label).Only Plain := by
  unfold rememberTrustedDevice
  simp only [bind_eq, pure_eq]
  exact only_rejectIf.bind fun _ => (only_randomBytes _ _).bind fun _ =>
    only_now.bind fun _ => only_newString.bind fun _ =>
    (only_statement fun _ => trivial).orReject.bind fun _ => only_succeed

theorem only_revokeTrustedDevice (identityID token : String) :
    (revokeTrustedDevice platform identityID token).Only Plain := by
  unfold revokeTrustedDevice
  simp only [bind_eq]
  exact only_rejectIf.bind fun _ =>
    (only_statement fun _ => trivial).orReject.bind fun _ =>
    only_now.bind fun _ => (only_statement fun _ => trivial).orReject

/-- What a positive answer to a verification says. -/
def answerDuty (platform : Platform) (cfg : Config) (request : Request)
    (answer : Response) (past : Past) : Prop :=
  match request, answer with
  | .verifyTOTP identityID code, .done => ∃ secret usedAt,
      TOTPProof platform cfg past (trimSpace identityID) code secret usedAt
  | .verifyBackupCode identityID code, .done => ∃ row,
      BackupCodeProof platform past (trimSpace identityID) code row
  | .validateTrustedDevice identityID token, .flag true => ∃ device,
      DeviceProof platform past (trimSpace identityID) (trimSpace token) device
  | _, _ => True

/-- Every request keeps its duties. -/
theorem keeps_serve (request : Request) :
    (serve platform cfg request).Keeps callDuty (answerDuty platform cfg request) [] := by
  have hplain {ε α : Type} {x : Service Reply ε α} (honly : x.Only Plain) :
      x.Yields callDuty (fun _ _ => True) [] :=
    honly.yields callDuty_of_plain fun _ _ _ => trivial
  cases request with
  | startTOTPEnrollment identityID accountName =>
      rw [serve]
      exact (hplain (only_startTOTPEnrollment identityID accountName)).finish_plain
  | completeTOTPEnrollment identityID enrollmentID code =>
      rw [serve]
      exact (completeTOTPEnrollment_yields identityID enrollmentID code).finish_plain
  | verifyTOTP identityID code =>
      rw [serve]
      exact (verifyTOTP_yields callDuty_of_plain platform cfg identityID code).finish
        (fun _ _ hproof => hproof) fun _ _ => trivial
  | verifyBackupCode identityID code =>
      rw [serve]
      exact (verifyBackupCode_yields callDuty_of_plain platform identityID
        code).finish (fun _ _ hproof => hproof) fun _ _ => trivial
  | hasEnrolledFactor identityID =>
      rw [serve]
      exact (hplain (only_hasEnrolledFactor identityID)).finish_plain
  | regenerateBackupCodes identityID =>
      rw [serve]
      exact (regenerateBackupCodes_yields identityID).finish_plain
  | rememberTrustedDevice identityID label =>
      rw [serve]
      exact (hplain (only_rememberTrustedDevice identityID label)).finish_plain
  | validateTrustedDevice identityID token =>
      rw [serve]
      refine (validateTrustedDevice_yields callDuty_of_plain platform identityID
        token).finish ?_ fun _ _ => trivial
      intro valid later hproof
      cases valid with
      | false => trivial
      | true => exact hproof rfl
  | revokeTrustedDevice identityID token =>
      rw [serve]
      exact (hplain (only_revokeTrustedDevice identityID token)).finish_plain
  | resetIdentity identityID =>
      rw [serve]
      exact (resetIdentity_yields identityID).finish_plain

end Serve

section Quiet

variable {platform : Platform} {cfg : Config}

/-- Calls that enrol no factor. -/
def Quiet (call : Called Reply) : Prop :=
  match call.1 with
  | .upsertTOTPFactor _ => False
  | _ => True

/-- None of the checks of a login enrols a factor. -/
theorem quiet_hasEnrolledFactor (identityID : String) :
    (hasEnrolledFactor identityID).Only Quiet := by
  unfold hasEnrolledFactor
  simp only [bind_eq, pure_eq]
  exact (only_statement fun _ => trivial).orReject.bind fun _ => only_succeed

theorem quiet_verifyTOTP (identityID code : String) :
    (verifyTOTP platform cfg identityID code).Only Quiet := by
  unfold verifyTOTP
  simp only [bind_eq]
  exact only_rejectIf.bind fun _ =>
    (only_statement fun _ => trivial).orReject.bind fun _ =>
    only_ofExcept.bind fun _ => (only_statement fun _ => trivial).bind fun _ =>
    only_ofExcept.bind fun _ => only_rejectIf.bind fun _ =>
    (only_statement fun _ => trivial).orReject

theorem quiet_verifyBackupCode (identityID code : String) :
    (verifyBackupCode platform identityID code).Only Quiet := by
  unfold verifyBackupCode
  simp only [bind_eq]
  exact only_rejectIf.bind fun _ =>
    (only_statement fun _ => trivial).orReject.bind fun _ =>
    (only_statement fun _ => trivial).bind fun _ =>
    only_ofExcept.bind fun _ => only_ofExcept.bind fun _ =>
    (only_statement fun _ => trivial).orReject

theorem quiet_admitDevice (identityID : String) (device : TrustedDevice) :
    (admitDevice identityID device).Only Quiet := by
  unfold admitDevice
  simp only [bind_eq, pure_eq]
  refine (only_statement fun _ => trivial).bind fun checked => ?_
  by_cases hdead : device.revokedAt.isSome ∨ device.expiresAt < checked
  · rw [if_pos hdead]
    exact only_succeed
  · rw [if_neg hdead]
    exact (only_statement fun _ => trivial).bind fun _ =>
      (only_statement fun _ => trivial).orReject.bind fun _ => only_succeed

theorem quiet_validateTrustedDevice (identityID token : String) :
    (validateTrustedDevice platform identityID token).Only Quiet := by
  unfold validateTrustedDevice
  by_cases hblank : trimSpace identityID = "" ∨ trimSpace token = ""
  · simp only [hblank, ↓reduceIte, pure_eq]
    exact only_succeed
  · simp only [hblank, ↓reduceIte, bind_eq]
    refine Only.bind (only_statement fun _ => trivial).attempt fun found => ?_
    rcases found with (_ | _ | _ | _ | _) | device
    all_goals first
      | exact only_reject
      | exact only_succeed
      | exact quiet_admitDevice _ device

theorem quiet_rememberTrustedDevice (identityID label : String) :
    (rememberTrustedDevice platform cfg identityID label).Only Quiet := by
  unfold rememberTrustedDevice
  simp only [bind_eq, pure_eq]
  exact only_rejectIf.bind fun _ => (only_statement fun _ => trivial).bind fun _ =>
    (only_statement fun _ => trivial).bind fun _ =>
    (only_statement fun _ => trivial).bind fun _ =>
    (only_statement fun _ => trivial).orReject.bind fun _ => only_succeed

end Quiet

section Runs

variable {platform : Platform} {cfg : Config} {db : Database}
  {actions : Schedule}

/-- What holds of every run. -/
theorem owes_of_run :
    Throughout (Owes (fun _ => callDuty) (answerDuty platform (new cfg)))
      (runFrom platform cfg db actions) :=
  (system platform cfg).execute_owes keeps_serve actions db

theorem answers_of_run : Throughout (Answers perform effect db) (runFrom platform cfg db actions) :=
  ((system platform cfg).execute_replay (fun _ _ _ => rfl) actions db).2

theorem coherent_of_run : Throughout Coherent (runFrom platform cfg db actions) :=
  (system platform cfg).execute_coherent actions db

end Runs

section Sample

instance (c : Call) : DecidableEq (Reply c) := by
  cases c <;> infer_instance

/-- Libraries in which nothing is secret. -/
def samplePlatform : Platform where
  upper := id
  hmacSHA1 _ _ := Vector.replicate 20 0
  encryptField _ _ plaintext _ := some plaintext
  decryptField _ ciphertext _ := some ciphertext
  hashPassword _ password := some password
  verifyPassword password hash := some (password = hash)
  hashToken := id
  tokenPrefix := id
  pathEscape := id
  encodeQuery _ := ""

def sampleConfig : Config := ⟨"", 0, 0, 0, 0, 1, 0, List.replicate 32 0⟩

def sampleChoice (time : Time) (entropy : List UInt8) (uuid : String) : Choice :=
  ⟨time, some entropy, uuid, fun _ => 0, false⟩

def sampleFactor : TOTPFactor := ⟨"u", "AA", 0, none, 0, 0⟩

end Sample

end Aegion.MFA
