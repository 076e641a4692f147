/-
The tables of the OAuth2 module as ledgers: which columns of a row are fixed by
its insert, which flags only ever go up, and what a reply says about the tables
it was given for.
-/
import Aegion.OAuthSystem
import Aegion.TableHistory

namespace Aegion.OAuth

section Statements

variable {α κ β : Type} {key : α → κ} {table : Table key}

theorem answer_eq_ok_iff {choice : Choice} {value value' : β} :
    answer choice value = .ok value' ↔ choice.fails = false ∧ value = value' := by
  unfold answer
  cases choice.fails <;> simp

theorem answerInsert_eq_ok_iff [DecidableEq κ] {choice : Choice} {row : α} :
    answerInsert choice table row = .ok () ↔
      choice.fails = false ∧ (table.insert? row).isSome = true := by
  unfold answerInsert
  cases choice.fails <;> cases (table.insert? row).isSome <;> simp

/-- A row that a query returned is in the table, under the key asked for. -/
theorem mem_of_select [DecidableEq κ] {choice : Choice} {k : κ} {row : α}
    (hreply : Except.ok (some row) = answer choice (table.find? k)) :
    row ∈ table.rows ∧ key row = k :=
  (table.find?_eq_some_iff k row).mp (answer_eq_ok_iff.mp hreply.symm).2

/-- An update that counted a row had one to select. -/
theorem exists_of_update {choice : Choice} {p : α → Bool} {n : Nat}
    (hreply : Except.ok (n + 1) = answer choice (table.affected p)) :
    ∃ row ∈ table.rows, p row = true := by
  have haffected := (answer_eq_ok_iff.mp hreply.symm).2
  exact (table.affected_pos_iff p).mp (by omega)

theorem mem_inserted [DecidableEq κ] {reply : Except DBError Unit} {new row : α}
    (hrow : row ∈ (inserted reply table new).rows) :
    row ∈ table.rows ∨ reply = .ok () ∧ row = new := by
  cases reply with
  | error e => exact Or.inl hrow
  | ok acknowledged =>
      cases hinsert : table.insert? new with
      | none =>
          simp only [inserted, hinsert, Option.getD_none] at hrow
          exact Or.inl hrow
      | some next =>
          simp only [inserted, hinsert, Option.getD_some] at hrow
          rw [((table.insert?_eq_some_iff next new).mp hinsert).2] at hrow
          rcases List.mem_append.mp hrow with hold | hnew
          · exact Or.inl hold
          · exact Or.inr ⟨rfl, List.mem_singleton.mp hnew⟩

theorem mem_inserted_of_mem [DecidableEq κ] {reply : Except DBError Unit}
    {new row : α} (hrow : row ∈ table.rows) : row ∈ (inserted reply table new).rows := by
  cases reply with
  | error e => exact hrow
  | ok acknowledged =>
      cases hinsert : table.insert? new with
      | none => simpa only [inserted, hinsert, Option.getD_none] using hrow
      | some next =>
          simp only [inserted, hinsert, Option.getD_some]
          rw [((table.insert?_eq_some_iff next new).mp hinsert).2]
          exact List.mem_append_left _ hrow

/-- An insert the database acknowledged found its key free. -/
theorem inserted_of_answer [DecidableEq κ] {choice : Choice} {new : α}
    (hanswer : answerInsert choice table new = .ok ()) :
    (∀ old ∈ table.rows, key old ≠ key new) ∧
      new ∈ (inserted (.ok ()) table new).rows := by
  obtain ⟨-, hsome⟩ := answerInsert_eq_ok_iff.mp hanswer
  obtain ⟨next, hinsert⟩ := Option.isSome_iff_exists.mp hsome
  obtain ⟨hfresh, hrows⟩ := (table.insert?_eq_some_iff next new).mp hinsert
  refine ⟨hfresh, ?_⟩
  simp only [inserted, hinsert, Option.getD_some]
  rw [hrows]
  exact List.mem_append_right _ (List.mem_singleton_self new)

variable {p : α → Bool} {assign : α → α}
variable {hkey : ∀ row, key (assign row) = key row}

theorem mem_updated_selected {reply : Except DBError β} {row : α}
    (hrow : row ∈ (updated reply table p assign hkey).rows) :
    ∃ old ∈ table.rows, row = old ∨ p old = true ∧ row = assign old := by
  cases reply with
  | error e => exact ⟨row, hrow, Or.inl rfl⟩
  | ok n =>
      obtain ⟨old, hold, heq⟩ := List.mem_map.mp hrow
      refine ⟨old, hold, ?_⟩
      by_cases hp : p old = true
      · exact Or.inr ⟨hp, by simpa [hp] using heq.symm⟩
      · exact Or.inl (by simpa [hp] using heq.symm)

theorem mem_updated {reply : Except DBError β} {row : α}
    (hrow : row ∈ (updated reply table p assign hkey).rows) :
    ∃ old ∈ table.rows, row = old ∨ row = assign old := by
  obtain ⟨old, hold, heq | ⟨-, heq⟩⟩ := mem_updated_selected hrow
  · exact ⟨old, hold, Or.inl heq⟩
  · exact ⟨old, hold, Or.inr heq⟩

theorem mem_updated_of_mem {reply : Except DBError β} {old : α} (hold : old ∈ table.rows) :
    ∃ row ∈ (updated reply table p assign hkey).rows,
      row = old ∨ row = assign old := by
  cases reply with
  | error e => exact ⟨old, hold, Or.inl rfl⟩
  | ok n =>
      refine ⟨_, List.mem_map.mpr ⟨old, hold, rfl⟩, ?_⟩
      by_cases hp : p old = true
      · exact Or.inr (by simp [hp])
      · exact Or.inl (by simp [hp])

/-- Every row goes back to a row before or is a new one, and no row is lost. -/
def Evolves (Later : α → α → Prop) (New : α → Prop) (before after : Table key) : Prop :=
  (∀ row ∈ after.rows, (∃ old ∈ before.rows, Later old row) ∨ New row) ∧
    ∀ old ∈ before.rows, ∃ row ∈ after.rows, Later old row

variable {Later : α → α → Prop} {New : α → Prop}

theorem evolves_refl (hrefl : ∀ row, Later row row) : Evolves Later New table table :=
  ⟨fun row hrow => Or.inl ⟨row, hrow, hrefl row⟩,
    fun old hold => ⟨old, hold, hrefl old⟩⟩

theorem evolves_inserted [DecidableEq κ] {reply : Except DBError Unit} {new : α}
    (hrefl : ∀ row, Later row row) (hnew : reply = .ok () → New new) :
    Evolves Later New table (inserted reply table new) := by
  refine ⟨fun row hrow => ?_, fun old hold =>
    ⟨old, mem_inserted_of_mem hold, hrefl old⟩⟩
  rcases mem_inserted hrow with hold | ⟨hok, rfl⟩
  · exact Or.inl ⟨row, hold, hrefl row⟩
  · exact Or.inr (hnew hok)

theorem evolves_updated {reply : Except DBError β}
    (hrefl : ∀ row, Later row row) (hassign : ∀ row, Later row (assign row)) :
    Evolves Later New table (updated reply table p assign hkey) := by
  constructor
  · intro row hrow
    obtain ⟨old, hold, rfl | rfl⟩ := mem_updated hrow
    · exact Or.inl ⟨row, hold, hrefl row⟩
    · exact Or.inl ⟨old, hold, hassign old⟩
  · intro old hold
    obtain ⟨row, hrow, rfl | rfl⟩ := mem_updated_of_mem hold
    · exact ⟨row, hrow, hrefl row⟩
    · exact ⟨_, hrow, hassign old⟩

end Statements

/-- The columns of a login challenge its insert fixes. -/
def LoginChallenge.terms (row : LoginChallenge) : LoginChallenge :=
  { row with identityID := none, sessionID := none, authenticatedAt := none }

/-- The columns of a consent challenge its insert fixes. -/
def ConsentChallenge.terms (row : ConsentChallenge) : ConsentChallenge :=
  { row with
    grantedScopes := []
    grantedAudience := []
    remember := none
    rememberFor := none
    handled := false
    handledAt := none
    rejected := false
    error := none
    errorDescription := none }

/-- The columns of an authorization code its insert fixes. -/
def AuthCode.terms (row : AuthCode) : AuthCode :=
  { row with used := false, usedAt := none }

/-- The columns of an access token its insert fixes. -/
def AccessToken.terms (row : AccessToken) : AccessToken :=
  { row with revoked := false, revokedAt := none }

/-- The columns of a refresh token its insert fixes. -/
def RefreshToken.terms (row : RefreshToken) : RefreshToken :=
  { row with
    active := true
    used := false
    usedAt := none
    successorID := none
    gracePeriodExpiresAt := none
    firstUsedAt := none }

theorem loginChallenges_evolve (call : Called Reply) (db : Database) :
    Evolves (fun old row => row.terms = old.terms)
      (fun row => call = ⟨.insertLoginChallenge row, .ok ()⟩)
      db.loginChallenges (effect call db).loginChallenges := by
  obtain ⟨c, reply⟩ := call
  cases c with
  | insertLoginChallenge new =>
      refine evolves_inserted (fun _ => rfl) ?_
      rintro rfl
      rfl
  | updateLoginAccepted => exact evolves_updated (fun _ => rfl) fun _ => rfl
  | _ => exact evolves_refl fun _ => rfl

def loginChallengeLedger : Ledger perform effect LoginChallenge.id where
  table := Database.loginChallenges
  Inserts := fun call row => call = ⟨.insertLoginChallenge row, .ok ()⟩
  Later := fun old row => row.terms = old.terms
  refl := fun _ => rfl
  trans := fun hfirst hsecond => hsecond.trans hfirst
  key_eq := fun {old row} hterms =>
    show row.terms.id = old.terms.id from congrArg LoginChallenge.id hterms
  backward := fun call db => (loginChallenges_evolve call db).1
  forward := fun call db => (loginChallenges_evolve call db).2
  inserted := by
    rintro choice _ db row rfl hreply
    exact inserted_of_answer hreply.symm

theorem consentChallenges_evolve (call : Called Reply) (db : Database) :
    Evolves (fun old row => row.terms = old.terms ∧ (old.handled = true → row.handled = true))
      (fun row => call = ⟨.insertConsentChallenge row, .ok ()⟩)
      db.consentChallenges (effect call db).consentChallenges := by
  obtain ⟨c, reply⟩ := call
  cases c with
  | insertConsentChallenge new =>
      refine evolves_inserted (fun _ => ⟨rfl, id⟩) ?_
      rintro rfl
      rfl
  | updateConsentAccepted => exact evolves_updated (fun _ => ⟨rfl, id⟩) fun _ => ⟨rfl, fun _ => rfl⟩
  | updateConsentRejected => exact evolves_updated (fun _ => ⟨rfl, id⟩) fun _ => ⟨rfl, fun _ => rfl⟩
  | _ => exact evolves_refl fun _ => ⟨rfl, id⟩

def consentChallengeLedger : Ledger perform effect ConsentChallenge.id where
  table := Database.consentChallenges
  Inserts := fun call row => call = ⟨.insertConsentChallenge row, .ok ()⟩
  Later := fun old row =>
    row.terms = old.terms ∧ (old.handled = true → row.handled = true)
  refl := fun _ => ⟨rfl, id⟩
  trans := fun hfirst hsecond =>
    ⟨hsecond.1.trans hfirst.1, fun hold => hsecond.2 (hfirst.2 hold)⟩
  key_eq := fun {old row} hlater =>
    show row.terms.id = old.terms.id from congrArg ConsentChallenge.id hlater.1
  backward := fun call db => (consentChallenges_evolve call db).1
  forward := fun call db => (consentChallenges_evolve call db).2
  inserted := by
    rintro choice _ db row rfl hreply
    exact inserted_of_answer hreply.symm

theorem authCodes_evolve (call : Called Reply) (db : Database) :
    Evolves (fun old row => row.terms = old.terms ∧ (old.used = true → row.used = true))
      (fun row => call = ⟨.insertAuthCode row, .ok ()⟩)
      db.authCodes (effect call db).authCodes := by
  obtain ⟨c, reply⟩ := call
  cases c with
  | insertAuthCode new =>
      refine evolves_inserted (fun _ => ⟨rfl, id⟩) ?_
      rintro rfl
      rfl
  | updateAuthCodeUsed => exact evolves_updated (fun _ => ⟨rfl, id⟩) fun _ => ⟨rfl, fun _ => rfl⟩
  | _ => exact evolves_refl fun _ => ⟨rfl, id⟩

def authCodeLedger : Ledger perform effect AuthCode.code where
  table := Database.authCodes
  Inserts := fun call row => call = ⟨.insertAuthCode row, .ok ()⟩
  Later := fun old row =>
    row.terms = old.terms ∧ (old.used = true → row.used = true)
  refl := fun _ => ⟨rfl, id⟩
  trans := fun hfirst hsecond =>
    ⟨hsecond.1.trans hfirst.1, fun hold => hsecond.2 (hfirst.2 hold)⟩
  key_eq := fun {old row} hlater =>
    show row.terms.code = old.terms.code from congrArg AuthCode.code hlater.1
  backward := fun call db => (authCodes_evolve call db).1
  forward := fun call db => (authCodes_evolve call db).2
  inserted := by
    rintro choice _ db row rfl hreply
    exact inserted_of_answer hreply.symm

theorem accessTokens_evolve (call : Called Reply) (db : Database) :
    Evolves (fun old row => row.terms = old.terms ∧ (old.revoked = true → row.revoked = true))
      (fun row => call = ⟨.insertAccessToken row, .ok ()⟩)
      db.accessTokens (effect call db).accessTokens := by
  obtain ⟨c, reply⟩ := call
  cases c with
  | insertAccessToken new =>
      refine evolves_inserted (fun _ => ⟨rfl, id⟩) ?_
      rintro rfl
      rfl
  | updateAccessTokenRevoked =>
      exact evolves_updated (fun _ => ⟨rfl, id⟩) fun _ => ⟨rfl, fun _ => rfl⟩
  | _ => exact evolves_refl fun _ => ⟨rfl, id⟩

def accessTokenLedger : Ledger perform effect AccessToken.jti where
  table := Database.accessTokens
  Inserts := fun call row => call = ⟨.insertAccessToken row, .ok ()⟩
  Later := fun old row =>
    row.terms = old.terms ∧ (old.revoked = true → row.revoked = true)
  refl := fun _ => ⟨rfl, id⟩
  trans := fun hfirst hsecond =>
    ⟨hsecond.1.trans hfirst.1, fun hold => hsecond.2 (hfirst.2 hold)⟩
  key_eq := fun {old row} hlater =>
    show row.terms.jti = old.terms.jti from congrArg AccessToken.jti hlater.1
  backward := fun call db => (accessTokens_evolve call db).1
  forward := fun call db => (accessTokens_evolve call db).2
  inserted := by
    rintro choice _ db row rfl hreply
    exact inserted_of_answer hreply.symm

theorem refreshTokens_evolve (call : Called Reply) (db : Database) :
    Evolves (fun old row => row.terms = old.terms ∧
        (old.used = true → row.used = true) ∧
          (old.active = false → row.active = false))
      (fun row => call = ⟨.insertRefreshToken row, .ok ()⟩)
      db.refreshTokens (effect call db).refreshTokens := by
  obtain ⟨c, reply⟩ := call
  cases c with
  | insertRefreshToken new =>
      refine evolves_inserted (fun _ => ⟨rfl, id, id⟩) ?_
      rintro rfl
      rfl
  | updateRefreshTokenUsed =>
      exact evolves_updated (fun _ => ⟨rfl, id, id⟩) fun _ => ⟨rfl, fun _ => rfl, id⟩
  | updateRefreshFamilyInactive =>
      exact evolves_updated (fun _ => ⟨rfl, id, id⟩) fun _ => ⟨rfl, id, fun _ => rfl⟩
  | _ => exact evolves_refl fun _ => ⟨rfl, id, id⟩

def refreshTokenLedger : Ledger perform effect RefreshToken.id where
  table := Database.refreshTokens
  Inserts := fun call row => call = ⟨.insertRefreshToken row, .ok ()⟩
  Later := fun old row => row.terms = old.terms ∧
    (old.used = true → row.used = true) ∧
      (old.active = false → row.active = false)
  refl := fun _ => ⟨rfl, id, id⟩
  trans := fun hfirst hsecond =>
    ⟨hsecond.1.trans hfirst.1, fun hold => hsecond.2.1 (hfirst.2.1 hold),
      fun hold => hsecond.2.2 (hfirst.2.2 hold)⟩
  key_eq := fun {old row} hlater =>
    show row.terms.id = old.terms.id from congrArg RefreshToken.id hlater.1
  backward := fun call db => (refreshTokens_evolve call db).1
  forward := fun call db => (refreshTokens_evolve call db).2
  inserted := by
    rintro choice _ db row rfl hreply
    exact inserted_of_answer hreply.symm

/-- Calls that mark a refresh token used. -/
def refreshTokenUsed : Latch refreshTokenLedger where
  flag := RefreshToken.used
  Raises := fun call id => ∃ now successorID gracePeriodExpires n, call =
    ⟨.updateRefreshTokenUsed id now successorID gracePeriodExpires, .ok (n + 1)⟩
  kept := fun hlater => hlater.2.1
  raised := by
    rintro choice _ db id ⟨now, successorID, gracePeriodExpires, n, rfl⟩ hreply
    obtain ⟨old, hold, hselected⟩ := exists_of_update hreply
    obtain ⟨hid, -, hunused⟩ := of_decide_eq_true hselected
    exact ⟨⟨old, hold, hid, hunused⟩,
      old.assignUsed now successorID gracePeriodExpires,
      List.mem_map.mpr ⟨old, hold, if_pos hselected⟩, hid, rfl⟩

end Aegion.OAuth
