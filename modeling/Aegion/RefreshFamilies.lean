/-
Refresh token families and replay.  A detected replay invalidates the family
of the replayed token.  That reaches the whole rotation chain as long as every
rotation hands its family down and redeems a token that is still active; the
service draws a new family at each rotation instead.
-/
import Aegion.RefreshLineage

namespace Aegion.OAuth

open History Relation

/-- Two tokens go back to a common ancestor by rotations. -/
def SameChain (history : Trace) (id other : String) : Prop :=
  ∃ root, ReflTransGen (Rotates history) root id ∧
    ReflTransGen (Rotates history) root other

/-- The token whose refresh the entry stores a new token for. -/
def rotatedToken (past : Trace) :
    Event → Option RefreshToken
  | ⟨thread, .refreshAccessToken _ _,
      .called ⟨.insertRefreshToken _, .ok ()⟩⟩ => redeemed (own thread past)
  | _ => none

def drawnFamily (past : Past) : Option String :=
  (familyBytes past).map fun bytes => "rtf_" ++ Base64.encodeRawURL bytes

/-- The entry is an invalidation that a refresh asked for and did not get. -/
def lostInvalidation : Event → Bool
  | ⟨_, .refreshAccessToken _ _,
      .called ⟨.updateRefreshFamilyInactive _, .error _⟩⟩ => true
  | _ => false

/-- The step keeps rotation chains together: a rotation draws the family of the
token it redeems, that token is still active, and no invalidation fails. -/
structure KeepsChain (db : Database) (past : Trace)
    (entry : Event) : Prop where
  family : ∀ token ∈ rotatedToken past entry,
    drawnFamily (own entry.thread past) = some token.familyID
  active : ∀ token ∈ rotatedToken past entry,
    ∃ row ∈ (tablesAfter db past).refreshTokens.rows,
      row.id = token.id ∧ row.active = true
  invalidates : lostInvalidation entry = false

instance (db : Database) (past : Trace) (entry : Event) : Decidable (KeepsChain db past entry) :=
  decidable_of_iff ((∀ token ∈ rotatedToken past entry,
        drawnFamily (own entry.thread past) = some token.familyID) ∧
      (∀ token ∈ rotatedToken past entry,
        ∃ row ∈ (tablesAfter db past).refreshTokens.rows,
          row.id = token.id ∧ row.active = true) ∧
      lostInvalidation entry = false)
    ⟨fun ⟨hfamily, hactive, hkept⟩ => ⟨hfamily, hactive, hkept⟩,
      fun hkeeps => ⟨hkeeps.family, hkeeps.active, hkeeps.invalidates⟩⟩

section Chains

variable {platform : Platform} {db : Database} {history : Trace}

variable (hlaw : Lawful platform db history)

include hlaw

theorem Rotates.entry_unique {parent child : String} (hrotates : Rotates history parent child)
    {thread : Nat} {request : Request} {row : RefreshToken} {past : Trace}
    (hentry : ⟨thread, request, .called ⟨.insertRefreshToken row, .ok ()⟩⟩ ::
      past <:+ history) (hid : row.id = child) :
    ∃ depth req token, request = .refreshAccessToken depth req ∧
      redeemed (own thread past) = some token ∧ token.id = parent := by
  obtain ⟨thread', depth, req, row', past', token, hentry', hid', hredeemed, hparent⟩ := hrotates
  have hsame := refreshTokenLedger.insert_unique hlaw.answers hentry' hentry
    ⟨_, rfl, rfl⟩ ⟨_, rfl, rfl⟩ (hid'.trans hid.symm)
  cases hsame
  exact ⟨depth, req, token, rfl, hredeemed, hparent⟩

theorem Rotates.family_eq (hkeeps : Throughout (KeepsChain db) history) {parent child : String}
    (hrotates : Rotates history parent child) {earlier later : Trace}
    (hearlier : earlier <:+ history) (hlater : later <:+ history) {old row : RefreshToken}
    (hold : old ∈ (tablesAfter db earlier).refreshTokens.rows) (holdID : old.id = parent)
    (hrow : row ∈ (tablesAfter db later).refreshTokens.rows)
    (hrowID : row.id = child) : row.familyID = old.familyID := by
  obtain ⟨thread, depth, req, first, past, token, hentry, rfl, hredeemed, rfl⟩ := hrotates
  obtain ⟨g, bytes, family, -, hdrawn, -, hfamily, -⟩ := hlaw.duty hentry
  obtain ⟨read, -, hread, htoken⟩ := hlaw.redeemed_mem hentry hredeemed
  have hkept : drawnFamily (own thread past) = some token.familyID :=
    (hkeeps _ past hentry).family token hredeemed
  simp only [drawnFamily, hdrawn, Option.map_some, Option.some.injEq] at hkept
  have hchild : row.familyID = first.familyID :=
    RefreshToken.familyID_eq_of_terms_eq (refreshToken_terms_eq hlater hentry
      hrow (hlaw.mem_of_insertRefreshToken hentry) hrowID)
  have hparent : old.familyID = token.familyID :=
    RefreshToken.familyID_eq_of_terms_eq (refreshToken_terms_eq hearlier hread hold htoken holdID)
  rw [hchild, hfamily, hkept, hparent]

variable (hempty : db.refreshTokens.rows = [])

include hempty

/-- A token is in the table only after the token it was rotated from. -/
theorem Rotates.parent_mem {parent child : String}
    (hrotates : Rotates history parent child) {later : Trace}
    (hlater : later <:+ history) {row : RefreshToken}
    (hrow : row ∈ (tablesAfter db later).refreshTokens.rows) (hid : row.id = child) :
    ∃ old ∈ (tablesAfter db later).refreshTokens.rows, old.id = parent := by
  obtain ⟨thread, request, _, past, first, hentry, rfl, hversion⟩ :=
    refreshTokenLedger.origin_of_empty hempty hrow
  have hwhole := hentry.trans hlater
  obtain ⟨depth, req, token, rfl, hredeemed, rfl⟩ := hrotates.entry_unique hlaw
    hwhole ((refreshTokenLedger.key_eq hversion).symm.trans hid)
  obtain ⟨read, hread, -, htoken⟩ := hlaw.redeemed_mem hwhole hredeemed
  have hbefore : read <:+ later := (List.suffix_cons _ _).trans
    (hread.trans ((List.suffix_cons _ _).trans hentry))
  obtain ⟨old, hold, hnext⟩ := refreshTokenLedger.persists hbefore htoken
  exact ⟨old, hold, refreshTokenLedger.key_eq hnext⟩

theorem ancestor_mem {ancestor id : String}
    (hchain : ReflTransGen (Rotates history) ancestor id) {later : Trace}
    (hlater : later <:+ history) {row : RefreshToken}
    (hrow : row ∈ (tablesAfter db later).refreshTokens.rows) (hid : row.id = id) :
    ∃ old ∈ (tablesAfter db later).refreshTokens.rows, old.id = ancestor := by
  induction hchain generalizing row with
  | refl => exact ⟨row, hrow, hid⟩
  | tail _ hrotates ih =>
      obtain ⟨old, hold, holdID⟩ :=
        hrotates.parent_mem hlaw hempty hlater hrow hid
      exact ih hold holdID

theorem family_eq_of_descends (hkeeps : Throughout (KeepsChain db) history) {root id : String}
    (hchain : ReflTransGen (Rotates history) root id) {first row : RefreshToken}
    (hfirst : first ∈ (tablesAfter db history).refreshTokens.rows) (hfirstID : first.id = root)
    (hrow : row ∈ (tablesAfter db history).refreshTokens.rows)
    (hid : row.id = id) : row.familyID = first.familyID := by
  induction hchain generalizing row with
  | refl =>
      rw [Table.row_eq_of_key_eq _ hrow hfirst (hid.trans hfirstID.symm)]
  | tail _ hrotates ih =>
      obtain ⟨old, hold, holdID⟩ :=
        hrotates.parent_mem hlaw hempty List.suffix_rfl hrow hid
      exact (hrotates.family_eq hlaw hkeeps List.suffix_rfl List.suffix_rfl hold
        holdID hrow hid).trans (ih hold holdID)

/-- All tokens of one chain are of one family, whenever they are seen. -/
theorem SameChain.family_eq (hkeeps : Throughout (KeepsChain db) history) {earlier later : Trace}
    (hearlier : earlier <:+ history) (hlater : later <:+ history) {token row : RefreshToken}
    (htoken : token ∈ (tablesAfter db earlier).refreshTokens.rows)
    (hrow : row ∈ (tablesAfter db later).refreshTokens.rows)
    (hchain : SameChain history token.id row.id) : row.familyID = token.familyID := by
  obtain ⟨root, htokenChain, hrowChain⟩ := hchain
  obtain ⟨token', htoken', htokenNext⟩ :=
    refreshTokenLedger.persists hearlier htoken
  obtain ⟨row', hrow', hrowNext⟩ := refreshTokenLedger.persists hlater hrow
  have htokenID := refreshTokenLedger.key_eq htokenNext
  have hrowID := refreshTokenLedger.key_eq hrowNext
  obtain ⟨first, hfirst, hfirstID⟩ := ancestor_mem hlaw hempty htokenChain
    List.suffix_rfl htoken' htokenID
  have hleft := family_eq_of_descends hlaw hempty hkeeps htokenChain hfirst
    hfirstID htoken' htokenID
  have hright := family_eq_of_descends hlaw hempty hkeeps hrowChain hfirst hfirstID hrow' hrowID
  have hsameToken := RefreshToken.familyID_eq_of_terms_eq htokenNext.1
  have hsameRow := RefreshToken.familyID_eq_of_terms_eq hrowNext.1
  rw [← hsameToken, ← hsameRow, hleft, hright]

/-- The successor a token names was created by refreshing it. -/
theorem rotates_of_successor {later : Trace}
    (hlater : later <:+ history) {row : RefreshToken} {successorID : String}
    (hrow : row ∈ (tablesAfter db later).refreshTokens.rows)
    (hsuccessor : row.successorID = some successorID) : Rotates history row.id successorID := by
  induction later generalizing row with
  | nil =>
      change row ∈ db.refreshTokens.rows at hrow
      rw [hempty] at hrow
      cases hrow
  | cons entry past ih =>
      have hbefore : ∀ old ∈ (tablesAfter db past).refreshTokens.rows,
          old.successorID = some successorID →
            Rotates history old.id successorID := fun old hold hnext =>
        ih ((List.suffix_cons _ _).trans hlater) hold hnext
      obtain ⟨thread, request, step⟩ := entry
      cases step with
      | answered answer => exact hbefore row hrow hsuccessor
      | called call =>
          obtain ⟨c, reply⟩ := call
          cases c with
          | insertRefreshToken new =>
              rcases mem_inserted hrow with hold | ⟨rfl, rfl⟩
              · exact hbefore _ hold hsuccessor
              · obtain ⟨g, bytes, family, -, -, -, -, -, -, -, -, -, hnone, -⟩ :=
                  hlaw.duty hlater
                rw [hnone] at hsuccessor
                cases hsuccessor
          | updateRefreshTokenUsed id now child gracePeriodExpires =>
              obtain ⟨old, hold, rfl | ⟨hselected, rfl⟩⟩ :=
                mem_updated_selected hrow
              · exact hbefore _ hold hsuccessor
              · cases hsuccessor
                obtain ⟨depth, req, token, rfl, hmark⟩ := hlaw.duty hlater
                obtain ⟨first, before, hchild, hredeemed, hid⟩ := hmark.child
                obtain ⟨read, -, hread⟩ := hlaw.earlier_suffix hlater hmark.read
                obtain ⟨choice, hreply⟩ := hlaw.reply hread
                obtain ⟨earlier, hearlier, rfl⟩ := hlaw.stretch hlater hchild
                exact ⟨thread, depth, req, first, earlier, token,
                  hearlier.trans ((List.suffix_cons _ _).trans hlater), hid,
                  hredeemed, (mem_of_select hreply).2.trans (of_decide_eq_true hselected).1.symm⟩
          | updateRefreshFamilyInactive familyID =>
              obtain ⟨old, hold, rfl | rfl⟩ := mem_updated hrow
              · exact hbefore row hold hsuccessor
              · exact hbefore old hold hsuccessor
          | _ => exact hbefore row hrow hsuccessor

/-- The token a refresh ends up redeeming descends from the one presented. -/
theorem descends_of_leads {thread : Nat} {request : Request}
    {step : Step Reply Response} {past : Trace}
    (hentry : ⟨thread, request, step⟩ :: past <:+ history) {id : String}
    {last : RefreshToken} (hleads : Leads (own thread past) id last) :
    ReflTransGen (Rotates history) id last.id := by
  induction hleads with
  | read hread _ =>
      obtain ⟨read, -, hwhole⟩ := hlaw.earlier_suffix hentry hread
      obtain ⟨choice, hreply⟩ := hlaw.reply hwhole
      rw [(mem_of_select hreply).2]
  | successor hread _ hsuccessor _ ih =>
      obtain ⟨read, -, hwhole⟩ := hlaw.earlier_suffix hentry hread
      obtain ⟨choice, hreply⟩ := hlaw.reply hwhole
      obtain ⟨hrow, hid⟩ := mem_of_select hreply
      have hrotates := rotates_of_successor hlaw hempty
        ((List.suffix_cons _ _).trans hwhole) hrow hsuccessor
      exact ReflTransGen.head (hid ▸ hrotates) ih

/-- Once the family of a token has been invalidated, the whole chain of the
token is inactive and stays so. -/
theorem chain_inactive (hkeeps : Throughout (KeepsChain db) history) {thread : Nat}
    {request : Request} {before : Trace} {token : RefreshToken} {n : Nat}
    (hinvalidates : ⟨thread, request, .called ⟨.updateRefreshFamilyInactive
      token.familyID, .ok n⟩⟩ :: before <:+ history)
    (htoken : ∃ old ∈ (tablesAfter db before).refreshTokens.rows,
      old.id = token.id ∧ old.familyID = token.familyID) {later : Trace}
    (hfrom : ⟨thread, request, .called ⟨.updateRefreshFamilyInactive
      token.familyID, .ok n⟩⟩ :: before <:+ later) (hlater : later <:+ history) :
    ∀ row ∈ (tablesAfter db later).refreshTokens.rows,
      SameChain history token.id row.id → row.active = false := by
  obtain ⟨replayed, hreplayed, hreplayedID, hreplayedFamily⟩ := htoken
  have hbefore : before <:+ history := (List.suffix_cons _ _).trans hinvalidates
  refine suffix_induction (motive := fun later =>
    ∀ row ∈ (tablesAfter db later).refreshTokens.rows,
      SameChain history token.id row.id → row.active = false) ?_ ?_ hfrom hlater
  · -- The invalidation itself reaches every row of the family.
    intro row hrow hchain
    have hfamily := SameChain.family_eq hlaw hempty hkeeps hbefore hinvalidates
      hreplayed hrow (hreplayedID ▸ hchain)
    rw [hreplayedFamily] at hfamily
    obtain ⟨old, hold, rfl⟩ := List.mem_map.mp hrow
    by_cases hselected : old.familyID = token.familyID ∧ old.active = true
    · simp [hselected, RefreshToken.assignInactive]
    · simp only [decide_eq_true_eq, hselected, ↓reduceIte] at hfamily ⊢
      simpa [hfamily] using hselected
  · intro entry past hpast hentry ih row hrow hchain
    rcases refreshTokenLedger.backward_entry hrow with ⟨old, hold, hnext⟩ | hins
    · refine hnext.2.2 (ih old hold ?_)
      rwa [← refreshTokenLedger.key_eq hnext]
    · obtain ⟨hfresh, -⟩ :=
        refreshTokenLedger.insert_fresh hlaw.answers hentry hins
      obtain ⟨root, htokenChain, hrowChain⟩ := hchain
      cases hrowChain with
      | refl =>
          -- A new root is no ancestor of a token that was there before it.
          obtain ⟨kept, hkept, hnext⟩ := refreshTokenLedger.persists
            ((List.suffix_cons _ _).trans hpast) hreplayed
          obtain ⟨clash, hclash, hclashID⟩ := ancestor_mem hlaw hempty htokenChain
            ((List.suffix_cons _ _).trans hentry) hkept
            ((refreshTokenLedger.key_eq hnext).trans hreplayedID)
          exact (hfresh clash hclash hclashID).elim
      | tail hmiddle hrotates =>
          -- The token rotated here is of the chain, and so no longer active.
          obtain ⟨call, hstep, hcall⟩ := hins
          obtain ⟨thread', request', step⟩ := entry
          cases hstep
          cases hcall
          obtain ⟨depth, req, parent, rfl, hredeemed, rfl⟩ :=
            hrotates.entry_unique hlaw hentry rfl
          obtain ⟨live, hlive, hliveID, hactive⟩ :=
            (hkeeps _ past hentry).active parent hredeemed
          have hdead := ih live hlive ⟨root, htokenChain, hliveID ▸ hmiddle⟩
          rw [hactive] at hdead
          cases hdead

end Chains

/-- A refresh was answered that the given token is replayed, after the given
past. -/
def Replayed (history : Trace) (token : RefreshToken) (past : Trace) : Prop :=
  ∃ thread depth req, ⟨thread, .refreshAccessToken depth req,
      .answered (.failed (.token replayError))⟩ :: past <:+ history ∧
    redeemed (own thread past) = some token

def replays (history : Trace) : List (RefreshToken × Trace) :=
  (points history).filterMap fun
    | (⟨thread, .refreshAccessToken _ _, .answered (.failed (.token e))⟩,
        past) =>
        if e = replayError then
          (redeemed (own thread past)).map fun token => (token, past)
        else none
    | _ => none

theorem replayed_of_mem {history : Trace} {token : RefreshToken} {past : Trace}
    (hmem : (token, past) ∈ replays history) : Replayed history token past := by
  obtain ⟨⟨entry, before⟩, hpoint, hreplay⟩ := List.mem_filterMap.mp hmem
  have hentry := suffix_of_mem_points hpoint
  split at hreplay
  · rename_i thread depth req e before' heq
    cases heq
    split at hreplay
    · rename_i hreplayed
      subst hreplayed
      obtain ⟨read, hredeemed, hpair⟩ := Option.map_eq_some_iff.mp hreplay
      cases hpair
      exact ⟨thread, depth, req, hentry, hredeemed⟩
    · cases hreplay
  · cases hreplay

/-- Families follow the rotation chains, and a replay ends a chain, in every
run whose steps keep chains together. -/
theorem replay_ends_chain (platform : Platform) (config : DeviceConfig)
    (db : Database) (hempty : db.refreshTokens.rows = []) (actions : Schedule)
    (hkeeps : Throughout (KeepsChain db) (runFrom platform config db actions)) :
    (∀ parent child old row,
      Rotates (runFrom platform config db actions) parent child →
      old ∈ (tablesOf platform config db actions).refreshTokens.rows → old.id = parent →
      row ∈ (tablesOf platform config db actions).refreshTokens.rows →
      row.id = child → row.familyID = old.familyID) ∧
    ∀ token past, Replayed (runFrom platform config db actions) token past →
      ∀ thread depth req, (∀ entry ∈ past, entry.thread ≠ thread) →
        (thread, .refreshAccessToken depth req) ∈
          tokenAnswers (runFrom platform config db actions) →
        ¬ SameChain (runFrom platform config db actions) token.id req.refreshToken := by
  have hlaw := lawful_of_run platform config db actions
  rw [tablesOf_eq]
  constructor
  · intro parent child old row hrotates hold holdID hrow hrowID
    exact hrotates.family_eq hlaw hkeeps List.suffix_rfl List.suffix_rfl hold holdID hrow hrowID
  rintro token past ⟨replayer, depth', req', hanswer, hredeemed⟩ thread depth req
    hlate haccepted ⟨root, htokenChain, hpresented⟩
  -- The invalidation that the replay has led to.
  obtain ⟨replayed, reply, before, hsame, -, hbefore, hreadBefore⟩ :=
    (hlaw.answer hanswer _ _ rfl).1 rfl
  cases hredeemed.symm.trans hsame
  obtain ⟨earlier, hearlier, rfl⟩ := hlaw.stretch hanswer hbefore
  have hinvalidates := hearlier.trans ((List.suffix_cons _ _).trans hanswer)
  obtain ⟨n, rfl⟩ : ∃ n, reply = .ok n := by
    have hkept := (hkeeps _ earlier hinvalidates).invalidates
    cases reply with
    | error e => cases hkept
    | ok n => exact ⟨n, rfl⟩
  obtain ⟨read, hread, -, htoken⟩ := hlaw.redeemed_mem hinvalidates hreadBefore
  obtain ⟨old, hold, hnext⟩ := refreshTokenLedger.persists
    ((List.suffix_cons _ _).trans hread) htoken
  -- The token the later refresh redeems was read after it.
  obtain ⟨resp, hresp⟩ := mem_tokenAnswers_iff.mp haccepted
  obtain ⟨acceptedPast, haccept⟩ := exists_past_of_mem hresp
  obtain ⟨⟨g, hissued⟩, hrefresh⟩ := hlaw.answer haccept
  obtain ⟨last, hlast, hleads⟩ := hrefresh _ _ rfl
  obtain ⟨basisToken, hbasis⟩ := hissued.basis
  cases hbasis.redeemed.symm.trans hlast
  obtain ⟨lastRead, hlastRead, hlastWhole, hlastRow⟩ :=
    hlaw.redeemed_mem haccept hlast
  have hafter : past <:+ lastRead := by
    rcases entry_trichotomy hanswer (hlastRead.trans
      ((List.suffix_cons _ _).trans haccept)) with heq | hlt | hlt
    · cases heq
    · exact (List.suffix_cons _ _).trans hlt
    · exact (hlate _ (mem_of_suffix_cons hlt) rfl).elim
  have hdead := chain_inactive hlaw hempty hkeeps hinvalidates
    ⟨old, hold, refreshTokenLedger.key_eq hnext, RefreshToken.familyID_eq_of_terms_eq hnext.1⟩
    (hearlier.trans hafter) hlastWhole last hlastRow
    ⟨root, htokenChain, hpresented.trans (descends_of_leads hlaw hempty haccept hleads)⟩
  rw [hbasis.active] at hdead
  cases hdead

/-- A refresh whose family draw happens to give the old family, then a replay
of the old token, and then an attempt with the new one. -/
def keptFamily : Schedule :=
  sampleFlow ++
    Action.start (Request.refreshAccessToken 3 (sampleRefresh (sampleRefreshID 4))) ::
      List.replicate 10 (.step 4 (moment 5 5)) ++
    Action.step 4 (moment 5 4) :: List.replicate 20 (.step 4 (moment 5 5)) ++
    served 5 (.refreshAccessToken 3 (sampleRefresh (sampleRefreshID 4))) 6 6 ++
    served 6 (.refreshAccessToken 3 (sampleRefresh (sampleRefreshID 5))) 7 7

theorem keptFamily_ends_chain :
    Throughout (KeepsChain sampleTables) (sampleRun keptFamily) ∧
      ∃ token past, Replayed (sampleRun keptFamily) token past ∧
        SameChain (sampleRun keptFamily) token.id (sampleRefreshID 5) ∧
        (∀ entry ∈ past, entry.thread ≠ 6) ∧
        (6, .refreshAccessToken 3 (sampleRefresh (sampleRefreshID 5))) ∉ tokenAnswers
            (sampleRun keptFamily) := by
  have hrun : Throughout (KeepsChain sampleTables) (sampleRun keptFamily) ∧
      (sampleRefreshID 4, sampleRefreshID 5) ∈ rotations (sampleRun keptFamily) ∧
      ∃ replay ∈ replays (sampleRun keptFamily),
        replay.1.id = sampleRefreshID 4 ∧
          ∀ entry ∈ replay.2, entry.thread ≠ 6 := by
    decide +kernel
  obtain ⟨hkeeps, hrotated, ⟨token, past⟩, hmem, hid, hlate⟩ := hrun
  have hchain : SameChain
      (sampleRun keptFamily) token.id
      (sampleRefreshID 5) :=
    ⟨token.id, .refl, hid ▸ .single (rotates_of_mem hrotated)⟩
  exact ⟨hkeeps, token, past, replayed_of_mem hmem, hchain, hlate,
    fun haccepted => (replay_ends_chain samplePlatform sampleConfig sampleTables
      rfl keptFamily hkeeps).2 token past (replayed_of_mem hmem) 6 3 _ hlate haccepted hchain⟩

/-- The same with an ordinary draw. -/
def newFamily : Schedule :=
  refreshFlow ++
    served 5 (.refreshAccessToken 3 (sampleRefresh (sampleRefreshID 4))) 6 6 ++
    served 6 (.refreshAccessToken 3 (sampleRefresh (sampleRefreshID 5))) 7 7

/-- The child is of another family, and is accepted after the replay of its
parent was reported. -/
theorem newFamily_survives_replay :
    Rotates (sampleRun newFamily) (sampleRefreshID 4) (sampleRefreshID 5) ∧
      (∃ old ∈ (tablesOf samplePlatform sampleConfig sampleTables newFamily).refreshTokens.rows,
        ∃ row ∈ (tablesOf samplePlatform sampleConfig sampleTables newFamily).refreshTokens.rows,
          old.id = sampleRefreshID 4 ∧ row.id = sampleRefreshID 5 ∧
            row.familyID ≠ old.familyID) ∧
      ∃ token past, Replayed (sampleRun newFamily) token past ∧
        token.id = sampleRefreshID 4 ∧ (∀ entry ∈ past, entry.thread ≠ 6) ∧
        (6, .refreshAccessToken 3 (sampleRefresh (sampleRefreshID 5))) ∈ tokenAnswers
            (sampleRun newFamily) := by
  have hrun : (sampleRefreshID 4, sampleRefreshID 5) ∈ rotations (sampleRun newFamily) ∧
      (∃ old ∈ (tablesOf samplePlatform sampleConfig sampleTables newFamily).refreshTokens.rows,
        ∃ row ∈ (tablesOf samplePlatform sampleConfig sampleTables newFamily).refreshTokens.rows,
          old.id = sampleRefreshID 4 ∧ row.id = sampleRefreshID 5 ∧
            row.familyID ≠ old.familyID) ∧
      (∃ replay ∈ replays (sampleRun newFamily),
        replay.1.id = sampleRefreshID 4 ∧
          ∀ entry ∈ replay.2, entry.thread ≠ 6) ∧
      (6, .refreshAccessToken 3 (sampleRefresh (sampleRefreshID 5))) ∈
        tokenAnswers (sampleRun newFamily) := by
    decide +kernel
  obtain ⟨hrotated, hfamilies, ⟨⟨token, past⟩, hmem, hid, hlate⟩, haccepted⟩ :=
    hrun
  exact ⟨rotates_of_mem hrotated, hfamilies, token, past, replayed_of_mem hmem,
    hid, hlate, haccepted⟩

end Aegion.OAuth
