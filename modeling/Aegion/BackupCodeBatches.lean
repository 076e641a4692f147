/-
Backup codes under concurrent verification and regeneration.  The conditional
update makes a code single-use.  A regeneration deletes the codes its DELETE
statement sees, so the codes that another regeneration commits between that
statement and the commit stay in the table and are accepted.
-/
import Aegion.MFAConduct

namespace Aegion.MFA

open Go Service History
open OAuth (Time DBError)

section Rows

theorem mem_insertAll {α κ : Type} {key : α → κ} [DecidableEq κ]
    {table next : Table key} {rows : List α}
    (hinsert : insertAll table rows = some next) {row : α} :
    row ∈ next.rows ↔ row ∈ table.rows ∨ row ∈ rows := by
  induction rows generalizing table with
  | nil =>
      rw [insertAll, Option.some.injEq] at hinsert
      simp [hinsert]
  | cons first rest ih =>
      rw [insertAll, Option.bind_eq_some_iff] at hinsert
      obtain ⟨between, hfirst, hrest⟩ := hinsert
      rw [ih hrest, ((Table.insert?_eq_some_iff _ _ _).mp hfirst).2]
      simp [or_assoc]

/-- The codes after a commit: those the transaction does not remove, and its
own. -/
theorem mem_codes_apply {tx : Tx} {db next : Database}
    (happly : tx.apply db = some next) {row : BackupCode} :
    row ∈ next.backupCodes.rows ↔ (row ∈ db.backupCodes.rows ∧
      tx.removes .backupCodes row.id = false) ∨ row ∈ tx.codes := by
  obtain ⟨codes, hcodes, rfl⟩ := Option.map_eq_some_iff.mp happly
  rw [mem_insertAll hcodes]
  simp

/-- The version of a code after it may have been used. -/
def BackupCode.Later (old row : BackupCode) : Prop :=
  row.id = old.id ∧ row.identityID = old.identityID ∧
    (old.usedAt.isSome = true → row.usedAt.isSome = true)

def InsertsCode (call : Called Reply) (row : BackupCode) : Prop :=
  ∃ tx, call = ⟨.commit tx, .ok ()⟩ ∧ row ∈ tx.codes

theorem codes_effect (call : Called Reply) (db : Database) (row : BackupCode)
    (hrow : row ∈ (effect call db).backupCodes.rows) :
    (∃ old ∈ db.backupCodes.rows, old.Later row) ∨ InsertsCode call row := by
  have hkept : row ∈ db.backupCodes.rows →
      (∃ old ∈ db.backupCodes.rows, old.Later row) ∨ InsertsCode call row :=
    fun hmem => Or.inl ⟨row, hmem, rfl, rfl, id⟩
  obtain ⟨c, reply⟩ := call
  cases c with
  | commit tx =>
      rcases reply with e | ⟨⟩
      · exact hkept hrow
      · simp only [effect] at hrow
        cases happly : tx.apply db with
        | none =>
            rw [happly] at hrow
            exact hkept hrow
        | some next =>
            rw [happly, Option.getD_some, mem_codes_apply happly] at hrow
            rcases hrow with ⟨hold, -⟩ | hnew
            · exact hkept hold
            · exact Or.inr ⟨tx, rfl, hnew⟩
  | updateBackupCodeUsed identityID id usedAt =>
      rcases reply with e | n
      · exact hkept hrow
      · simp only [effect, OAuth.updated, Table.updateWhere_rows, List.mem_map] at hrow
        obtain ⟨old, hold, heq⟩ := hrow
        refine Or.inl ⟨old, hold, ?_⟩
        by_cases hmark : old.markable identityID id = true
        · rw [if_pos hmark] at heq
          rw [← heq]
          exact ⟨rfl, rfl, fun _ => rfl⟩
        · rw [if_neg hmark] at heq
          rw [heq]
          exact ⟨rfl, rfl, fun hused => hused⟩
  | upsertEnrollment _ | upsertTOTPFactor _ =>
      rcases reply with e | ⟨⟩ <;> exact hkept hrow
  | _ => exact hkept hrow

def backupCodeTurnover : Turnover effect BackupCode.id where
  table := Database.backupCodes
  Inserts call _ := InsertsCode call
  Later := BackupCode.Later
  refl _ := ⟨rfl, rfl, id⟩
  trans := by
    rintro old row new ⟨hid, hidentity, hused⟩ ⟨hid', hidentity', hused'⟩
    exact ⟨hid'.trans hid, hidentity'.trans hidentity, hused' ∘ hused⟩
  key_eq hlater := hlater.1
  backward := codes_effect

/-- An accepted mark found the code unused and leaves it used. -/
theorem marked_spec {choice : Choice} {db : Database} {identityID id : String}
    {usedAt : Time} {n : Nat}
    (hreply : reply choice db (.updateBackupCodeUsed identityID id usedAt) = .ok (n + 1)) :
    (∃ row ∈ db.backupCodes.rows, row.identityID = identityID ∧ row.id = id ∧
      row.usedAt = none) ∧
      ∀ row ∈ (effect ⟨.updateBackupCodeUsed identityID id usedAt, .ok (n + 1)⟩
        db).backupCodes.rows, row.id = id → row.usedAt.isSome = true := by
  have haffected : 0 < db.backupCodes.affected (BackupCode.markable identityID id) := by
    simp only [reply, answer] at hreply
    split at hreply
    · cases hreply
    · rw [Except.ok.inj hreply]
      omega
  obtain ⟨row, hrow, hmark⟩ := (Table.affected_pos_iff _ _).mp haffected
  have hfields : (row.identityID = identityID ∧ row.id = id) ∧
      row.usedAt.isNone = true := by
    simpa only [BackupCode.markable, Bool.and_eq_true, decide_eq_true_eq] using hmark
  obtain ⟨⟨hidentity, hid⟩, hnone⟩ := hfields
  refine ⟨⟨row, hrow, hidentity, hid, Option.isNone_iff_eq_none.mp hnone⟩, ?_⟩
  intro after hafter hkey
  simp only [effect, OAuth.updated, Table.updateWhere_rows, List.mem_map] at hafter
  obtain ⟨old, hold, heq⟩ := hafter
  -- Ids are unique, so the row after the update is the one that was marked.
  have hsame : old = row := by
    refine db.backupCodes.row_eq_of_key_eq hold hrow ?_
    rw [hid, ← hkey, ← heq]
    split_ifs <;> rfl
  rw [hsame, if_pos hmark] at heq
  rw [← heq]
  rfl

end Rows

/-- The codes an entry commits. -/
def storedBy (entry : Event) : List BackupCode :=
  match entry.step with
  | .called ⟨.commit tx, .ok _⟩ => tx.codes
  | _ => []

/-- The entry commits a code with this id. -/
abbrev Stores (entry : Event) (id : String) : Prop :=
  ∃ row ∈ storedBy entry, row.id = id

/-- The thread's `VerifyBackupCode` has accepted the code with this id, marking
it after this part of the history. -/
def AcceptsCode (history : Trace) (thread : Nat) (identityID id : String) (before : Trace) : Prop :=
  ∃ arg code usedAt n,
    ⟨thread, .verifyBackupCode arg code, .answered .done⟩ ∈ history ∧
    trimSpace arg = identityID ∧
    ⟨thread, .verifyBackupCode arg code, .called
      ⟨.updateBackupCodeUsed identityID id usedAt, .ok (n + 1)⟩⟩ :: before <:+
        history

/-- A code that is accepted twice was stored a second time in between. -/
def SingleUse (history : Trace) : Prop :=
  ∀ thread thread' identityID identityID' id before before', thread ≠ thread' →
    AcceptsCode history thread identityID id before →
    AcceptsCode history thread' identityID' id before' → before <:+ before' →
      ∃ entry past, before <:+ past ∧ entry :: past <:+ before' ∧ Stores entry id

/-- Once a replacement of an identity's codes has committed, a verification that
starts afterwards accepts only codes stored by it or later. -/
def Superseded (history : Trace) : Prop :=
  ∀ thread request tx past identityID,
    ⟨thread, request, .called ⟨.commit tx, .ok ()⟩⟩ :: past <:+ history →
    (∃ ids, (⟨.deleteInTx .backupCodes identityID, .ok ids⟩ : Called Reply) ∈ own thread past) →
    ∀ verifier id before, (∀ entry ∈ past, entry.thread ≠ verifier) →
      AcceptsCode history verifier identityID id before →
      ⟨thread, request, .called ⟨.commit tx, .ok ()⟩⟩ :: past <:+ before →
      ∃ entry between, past <:+ between ∧ entry :: between <:+ before ∧
        Stores entry id

section Condition

/-- The entry is this thread's DELETE of the identity's codes. -/
def deletesCodes (thread : Nat) (identityID : String) (entry : Event) : Bool :=
  entry.thread = thread &&
    match entry.step with
    | .called ⟨.deleteInTx .backupCodes other, .ok _⟩ => other = identityID
    | _ => false

theorem deletesCodes_iff {thread : Nat} {identityID : String} {entry : Event} :
    deletesCodes thread identityID entry = true ↔ entry.thread = thread ∧
      ∃ ids, entry.step = .called ⟨.deleteInTx .backupCodes identityID, .ok ids⟩ := by
  unfold deletesCodes
  rw [Bool.and_eq_true, decide_eq_true_eq]
  refine and_congr_right fun _ => ?_
  split
  · rename_i other ids hstep
    rw [hstep, decide_eq_true_eq]
    constructor
    · rintro rfl
      exact ⟨ids, rfl⟩
    · rintro ⟨ids', heq⟩
      cases heq
      rfl
  · rename_i hother
    constructor
    · exact fun hfalse => nomatch hfalse
    · rintro ⟨ids, hstep⟩
      exact (hother identityID ids hstep).elim

/-- The codes committed since the thread's DELETE of the identity's codes. -/
def storedSince (thread : Nat) (identityID : String) : Trace → List BackupCode
  | [] => []
  | entry :: past =>
      if deletesCodes thread identityID entry then []
      else storedBy entry ++ storedSince thread identityID past

/-- The identities whose codes a thread has deleted in its transaction. -/
def replaced (own : Past) : List String :=
  own.filterMap fun
    | ⟨.deleteInTx .backupCodes identityID, .ok _⟩ => some identityID
    | _ => none

/-- Between the DELETE and the COMMIT of a replacement, no codes of the same
identity are committed. -/
def Serial (past : Trace) (entry : Event) : Prop :=
  match entry.step with
  | .called ⟨.commit _, .ok _⟩ =>
      ∀ identityID ∈ replaced (own entry.thread past),
        ∀ row ∈ storedSince entry.thread identityID past,
          row.identityID ≠ identityID
  | _ => True

instance (past : Trace) (entry : Event) : Decidable (Serial past entry) := by
  unfold Serial
  split <;> infer_instance

/-- The DELETE that `storedSince` goes back to, and what is between. -/
theorem exists_delete {thread : Nat} {identityID : String} {past : Trace}
    (hdelete : ∃ entry ∈ past, deletesCodes thread identityID entry = true) :
    ∃ entry before, entry :: before <:+ past ∧
      deletesCodes thread identityID entry = true ∧
      ∀ other between, entry :: before <:+ between → other :: between <:+ past →
        ∀ row ∈ storedBy other, row ∈ storedSince thread identityID past := by
  induction past with
  | nil =>
      obtain ⟨entry, hmem, -⟩ := hdelete
      cases hmem
  | cons last past ih =>
      by_cases hlast : deletesCodes thread identityID last = true
      · refine ⟨last, past, List.suffix_rfl, hlast, ?_⟩
        intro other between hbetween hother
        have hle := hbetween.length_le
        have hlt := hother.length_le
        simp only [List.length_cons] at hle hlt
        omega
      · have hearlier : ∃ entry ∈ past,
            deletesCodes thread identityID entry = true := by
          obtain ⟨entry, hmem, hentry⟩ := hdelete
          rcases List.mem_cons.mp hmem with rfl | hpast
          · exact absurd hentry hlast
          · exact ⟨entry, hpast, hentry⟩
        obtain ⟨entry, before, hentry, hdeletes, hbetween⟩ := ih hearlier
        refine ⟨entry, before, hentry.trans (List.suffix_cons _ _), hdeletes, ?_⟩
        intro other between hfrom hother row hrow
        rw [storedSince, if_neg hlast, List.mem_append]
        rcases List.suffix_cons_iff.mp hother with heq | hpast
        · cases heq
          exact Or.inl hrow
        · exact Or.inr (hbetween other between hfrom hpast row hrow)

end Condition

section Runs

variable {platform : Platform} {cfg : Config} {db : Database}
  {actions : Schedule}

theorem stores_of_inserts {thread : Nat} {request : Request} {call : Called Reply}
    {row : BackupCode} (hins : InsertsCode call row) :
    row ∈ storedBy ⟨thread, request, .called call⟩ := by
  obtain ⟨tx, rfl, hrow⟩ := hins
  exact hrow

/-- The row behind an accepted code, and what marking it does. -/
theorem AcceptsCode.row {history : Trace} {thread : Nat} {identityID id : String} {before : Trace}
    (hanswers : Throughout (Answers perform effect db) history)
    (haccepts : AcceptsCode history thread identityID id before) :
    (∃ row ∈ (replay effect db before).backupCodes.rows,
      row.identityID = identityID ∧ row.id = id ∧ row.usedAt = none) ∧
      ∃ entry, entry :: before <:+ history ∧ entry.thread = thread ∧
        ∀ row ∈ (replay effect db (entry :: before)).backupCodes.rows,
          row.id = id → row.usedAt.isSome = true := by
  obtain ⟨arg, code, usedAt, n, -, -, hentry⟩ := haccepts
  obtain ⟨choice, hreply⟩ := hanswers _ before hentry _ rfl
  obtain ⟨hfound, hleft⟩ := marked_spec hreply.symm
  exact ⟨hfound, _, hentry, rfl, hleft⟩

theorem singleUse_of_run : SingleUse (runFrom platform cfg db actions) := by
  intro thread thread' identityID identityID' id before before' hne haccepts haccepts' hle
  obtain ⟨-, entry, hentry, hthread, hused⟩ := haccepts.row answers_of_run
  obtain ⟨⟨row, hrow, -, hid, hunused⟩, entry', hentry', hthread', -⟩ :=
    haccepts'.row answers_of_run
  have hbase : entry :: before <:+ before' := by
    rcases entry_trichotomy hentry hentry' with heq | hlt | hlt
    · cases heq
      exact absurd (hthread.symm.trans hthread') hne
    · exact hlt
    · have hlength := hlt.length_le
      have hlength' := hle.length_le
      simp only [List.length_cons] at hlength
      omega
  obtain ⟨_, _, call, past, first, hpast, hagain, hins, hkey⟩ :=
    backupCodeTurnover.renewed (fun row => row.usedAt.isSome)
      (fun hlater hflag => hlater.2.2 hflag) hbase hused hid (by simp [hunused])
      hrow
  exact ⟨_, past, (List.suffix_cons _ _).trans hpast, hagain, first, stores_of_inserts hins, hkey⟩

/-- A commit that nothing overlaps leaves only its own codes. -/
theorem codes_after_commit {thread : Nat} {request : Request} {tx : Tx}
    {past : Trace} {identityID : String} {ids : List String}
    (hentry : ⟨thread, request, .called ⟨.commit tx, .ok ()⟩⟩ :: past <:+
      runFrom platform cfg db actions)
    (hserial : Serial past ⟨thread, request, .called ⟨.commit tx, .ok ()⟩⟩)
    (hdelete : (⟨.deleteInTx .backupCodes identityID, .ok ids⟩ : Called Reply) ∈
      own thread past) {row : BackupCode}
    (hrow : row ∈ (replay effect db (⟨thread, request,
      .called ⟨.commit tx, .ok ()⟩⟩ :: past)).backupCodes.rows)
    (hidentity : row.identityID = identityID) : row ∈ tx.codes := by
  have hpast : past <:+ runFrom platform cfg db actions :=
    (List.suffix_cons _ _).trans hentry
  have hcovers : Covers tx (own thread past) := owes_of_run _ past hentry
  have hreplaced : identityID ∈ replaced (own thread past) :=
    List.mem_filterMap.mpr ⟨_, hdelete, rfl⟩
  obtain ⟨origin, hmem⟩ := mem_own_iff.mp hdelete
  obtain ⟨⟨t, r, step⟩, before, hbefore, hdeletes, hbetween⟩ :=
    exists_delete ⟨_, hmem, deletesCodes_iff.mpr ⟨rfl, ids, rfl⟩⟩
  obtain ⟨rfl, seen, rfl⟩ := deletesCodes_iff.mp hdeletes
  obtain ⟨choice, hreply⟩ := answers_of_run _ past hentry _ rfl
  have happly : ∃ next, tx.apply (replay effect db past) = some next := by
    rw [← Option.isSome_iff_exists]
    simp only [perform, reply] at hreply
    split at hreply
    · cases hreply
    · split at hreply
      · assumption
      · cases hreply
  obtain ⟨next, happly⟩ := happly
  have hrow : row ∈ next.backupCodes.rows := by
    simpa only [replay, effect, happly, Option.getD_some] using hrow
  rcases (mem_codes_apply happly).mp hrow with ⟨hold, hkept⟩ | hnew
  · exfalso
    rcases backupCodeTurnover.origin_since hbefore hold with
      ⟨old, hseen, hid, hsame, -⟩ |
      ⟨⟨_, _, _⟩, middle, first, hmiddle, hother, ⟨call, hstep, hins⟩, -, hsame, -⟩
    · -- The DELETE has seen the code, so the commit removes it.
      obtain ⟨choice, hreply⟩ := answers_of_run _ before (hbefore.trans hpast) _ rfl
      have hlisted : old.id ∈ seen := by
        simp only [perform, reply, answer] at hreply
        split at hreply
        · cases hreply
        · rw [Except.ok.inj hreply]
          exact List.mem_map.mpr ⟨old, List.mem_filter.mpr
            ⟨hseen, by simp [← hsame, hidentity]⟩, rfl⟩
      have hremoved := hcovers identityID seen
        (mem_own_iff.mpr ⟨r, mem_of_suffix_cons hbefore⟩) old.id hlisted
      rw [← hid, hkept] at hremoved
      cases hremoved
    · cases hstep
      refine hserial identityID hreplaced first
        (hbetween _ middle hmiddle hother first (stores_of_inserts hins)) ?_
      rw [← hsame, hidentity]
  · exact hnew

/-- Where no replacement of an identity's codes commits between the DELETE and
the COMMIT of another one, every code is accepted once per storing and a
committed replacement leaves no older code behind. -/
theorem batches_replaced_serially (platform : Platform) (cfg : Config)
    (db : Database) (actions : Schedule)
    (hserial : Throughout Serial (runFrom platform cfg db actions)) :
    SingleUse (runFrom platform cfg db actions) ∧
      Superseded (runFrom platform cfg db actions) := by
  refine ⟨singleUse_of_run, ?_⟩
  rintro thread request tx past identityID hentry ⟨ids, hdelete⟩ verifier id before - haccepts hle
  obtain ⟨⟨row, hrow, hidentity, hid, -⟩, -⟩ := haccepts.row answers_of_run
  rcases backupCodeTurnover.origin_since hle hrow with
    ⟨old, hold, holdID, holdIdentity, -⟩ |
    ⟨⟨_, _, _⟩, between, first, hbetween, hstored, ⟨call, hstep, hins⟩, hfirst, -⟩
  · refine ⟨_, past, List.suffix_rfl, hle, old, ?_, holdID.symm.trans hid⟩
    exact codes_after_commit hentry (hserial _ past hentry) hdelete hold
      (holdIdentity.symm.trans hidentity)
  · cases hstep
    exact ⟨_, between, (List.suffix_cons _ _).trans hbetween, hstored, first,
      stores_of_inserts hins, hfirst.symm.trans hid⟩

end Runs

section Sample

def oldCode : BackupCode := ⟨"old", "u", "OLD", "first", none, 0⟩

def enrolled : Database :=
  ⟨.empty, .single sampleFactor, .single oldCode, .empty⟩

/-- The choices of the two regenerations. -/
def firstChoice : Choice := sampleChoice 1 [] "a"

def secondChoice : Choice := sampleChoice 2 (List.replicate 8 255) "b"

/-- Two regenerations, the first stopped after this many steps until the second
has made as many, and then a verification of a code of the first. -/
def regenerations (steps : Nat) : Schedule :=
  [Action.start (Request.regenerateBackupCodes "u"), .start (.regenerateBackupCodes "u")] ++
  List.replicate steps (Action.step 0 firstChoice) ++
  List.replicate steps (Action.step 1 secondChoice) ++
  List.replicate (12 - steps) (Action.step 0 firstChoice) ++
  List.replicate (12 - steps) (Action.step 1 secondChoice) ++
  Action.start (Request.verifyBackupCode "u" "aaaa-aaaa-aaaa") ::
    List.replicate 4 (.step 2 (sampleChoice 3 [] ""))

def runRegenerations (steps : Nat) : Trace :=
  runFrom samplePlatform sampleConfig enrolled (regenerations steps)

theorem one_after_the_other : SingleUse (runRegenerations 12) ∧
    Superseded (runRegenerations 12) :=
  batches_replaced_serially samplePlatform sampleConfig enrolled
    (regenerations 12) (by decide +kernel)

def secondCommit : Event :=
  ⟨1, .regenerateBackupCodes "u", .called ⟨.commit
    ⟨[(.backupCodes, "old")], [⟨"b", "u", "777777777777", "b", none, 2⟩]⟩, .ok ()⟩⟩

def racedMark : Event :=
  ⟨2, .verifyBackupCode "u" "aaaa-aaaa-aaaa", .called
    ⟨.updateBackupCodeUsed "u" "a" 3, .ok (0 + 1)⟩⟩

/-- The run in which both DELETE statements come before either commit. -/
theorem racedRegenerations_run :
    secondCommit :: (runRegenerations 8).drop 7 = (runRegenerations 8).drop 6 ∧
    racedMark :: (runRegenerations 8).drop 2 = (runRegenerations 8).drop 1 ∧
    ⟨2, .verifyBackupCode "u" "aaaa-aaaa-aaaa", .answered .done⟩ ∈ runRegenerations 8 ∧
    (⟨.deleteInTx .backupCodes "u", .ok ["old"]⟩ : Called Reply) ∈
      own 1 ((runRegenerations 8).drop 7) ∧
    (∀ entry ∈ (runRegenerations 8).drop 7, entry.thread ≠ 2) ∧
    ∀ point ∈ points ((runRegenerations 8).drop 2),
      ((runRegenerations 8).drop 7).length ≤ point.2.length → ¬ Stores point.1 "a" := by
  decide +kernel

/-- Both DELETE statements run before either commit: after the second commit a
verification that starts then accepts a code of the first. -/
theorem first_batch_survives : ¬ Superseded (runRegenerations 8) := by
  intro hsuperseded
  obtain ⟨hcommit, hmark, hdone, hdeleted, hverifier, hstored⟩ := racedRegenerations_run
  have haccepts : AcceptsCode (runRegenerations 8) 2 "u" "a" ((runRegenerations 8).drop 2) := by
    refine ⟨"u", "aaaa-aaaa-aaaa", 3, 0, hdone, by decide, ?_⟩
    exact hmark ▸ List.drop_suffix 1 (runRegenerations 8)
  have hafter : secondCommit :: (runRegenerations 8).drop 7 <:+ (runRegenerations 8).drop 2 := by
    have hdrop : ((runRegenerations 8).drop 2).drop 4 =
        (runRegenerations 8).drop 6 := by rw [List.drop_drop]
    rw [hcommit, ← hdrop]
    exact List.drop_suffix _ _
  have hsuffix : secondCommit :: (runRegenerations 8).drop 7 <:+ runRegenerations 8 := by
    rw [hcommit]
    exact List.drop_suffix _ _
  obtain ⟨entry, between, hfrom, hbefore, hstores⟩ := hsuperseded 1 _ _ _ "u"
    hsuffix ⟨["old"], hdeleted⟩ 2 "a" _ hverifier haccepts hafter
  exact hstored (entry, between) (mem_points_iff.mpr hbefore) hfrom.length_le hstores

end Sample

end Aegion.MFA
