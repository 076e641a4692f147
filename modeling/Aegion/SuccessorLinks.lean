/-
The successor links of refresh tokens.  A successor is inserted when its
predecessor has been in the table already, so links never lead back, and a
refresh that follows them looks up no token twice.
-/
import Aegion.RefreshFamilies
import Aegion.RefreshedTokens

namespace Aegion.OAuth

open History Relation

/-- The row of the first token names the second as its successor. -/
def Links (db : Database) (id successorID : String) : Prop :=
  ∃ row ∈ db.refreshTokens.rows, row.id = id ∧ row.successorID = some successorID

/-- The first token was in the table when the second was inserted. -/
abbrev Older (db : Database) (history : Trace) (first second : String) : Prop :=
  refreshTokenLedger.Precedes db history first second

theorem exists_of_found? {call : Called Reply} {token : RefreshToken}
    (hfound : found? call = some token) :
    ∃ id, call = ⟨.selectRefreshToken id, .ok (some token)⟩ := by
  unfold found? at hfound
  split at hfound
  · rename_i id row
    cases hfound
    exact ⟨id, rfl⟩
  · cases hfound

section Links

variable {platform : Platform} {db : Database} {history past : Trace}

variable (hlaw : Lawful platform db history)

include hlaw

theorem older_of_rotates {parent child : String}
    (hrotates : Rotates history parent child) : Older db history parent child := by
  obtain ⟨thread, depth, req, row, past, token, hentry, hchild, hredeemed, rfl⟩ := hrotates
  obtain ⟨read, hread, -, htoken⟩ := hlaw.redeemed_mem hentry hredeemed
  obtain ⟨old, hold, hlater⟩ :=
    refreshTokenLedger.persists ((List.suffix_cons _ _).trans hread) htoken
  exact ⟨_, past, row, hentry, ⟨_, rfl, rfl⟩, hchild, old, hold, refreshTokenLedger.key_eq hlater⟩

theorem mem_of_mem_reads {thread : Nat} {request : Request} {step : Step Reply Response}
    (hentry : ⟨thread, request, step⟩ :: past <:+ history) {token : RefreshToken}
    (htoken : token ∈ reads (own thread past)) :
    token.id ∈ (tablesAfter db past).refreshTokens.rows.map RefreshToken.id := by
  obtain ⟨call, hcall, hfound⟩ := List.mem_filterMap.mp htoken
  obtain ⟨id, rfl⟩ := exists_of_found? hfound
  obtain ⟨before, hbefore, hwhole⟩ := hlaw.earlier_suffix hentry hcall
  obtain ⟨choice, hreply⟩ := hlaw.reply hwhole
  obtain ⟨hrow, -⟩ := mem_of_select hreply
  obtain ⟨row, hmem, hlater⟩ :=
    refreshTokenLedger.persists ((List.suffix_cons _ _).trans hbefore) hrow
  exact List.mem_map.mpr ⟨row, hmem, refreshTokenLedger.key_eq hlater⟩

variable (hempty : db.refreshTokens.rows = [])

include hempty

/-- A token names a younger one as its successor, whenever it is looked at. -/
theorem older_of_successor {later : Trace} (hlater : later <:+ history)
    {row : RefreshToken} {successorID : String}
    (hrow : row ∈ (tablesAfter db later).refreshTokens.rows)
    (hsuccessor : row.successorID = some successorID) : Older db history row.id successorID :=
  older_of_rotates hlaw (rotates_of_successor hlaw hempty hlater hrow hsuccessor)

theorem older_of_links {id last : String}
    (hlinks : TransGen (Links (tablesAfter db history)) id last) : Older db history id last := by
  have hstep : ∀ {id successorID}, Links (tablesAfter db history) id successorID →
      Older db history id successorID := by
    rintro id successorID ⟨row, hrow, rfl, hsuccessor⟩
    exact older_of_successor hlaw hempty List.suffix_rfl hrow hsuccessor
  induction hlinks with
  | single hlink => exact hstep hlink
  | tail _ hlink ih => exact refreshTokenLedger.precedes_trans hlaw.answers ih (hstep hlink)

/-- The token a refresh looks up next is younger than all that it has found. -/
theorem older_of_reads {thread depth : Nat} {req : TokenRequest}
    {id : String} {reply : Except DBError (Option RefreshToken)}
    (hentry : ⟨thread, .refreshAccessToken depth req,
      .called ⟨.selectRefreshToken id, reply⟩⟩ :: past <:+ history)
    (hpast : (reads (own thread past)).Pairwise
      fun token earlier => Older db history earlier.id token.id)
    {earlier : RefreshToken} (hearlier : earlier ∈ reads (own thread past)) :
    Older db history earlier.id id := by
  obtain ⟨last, rest, hreads⟩ := List.exists_cons_of_ne_nil (List.ne_nil_of_mem hearlier)
  have hredeemed : redeemed (own thread past) = some last := by
    rw [redeemed_eq_head?, hreads, List.head?_cons]
  obtain ⟨read, -, hread, hlast⟩ := hlaw.redeemed_mem hentry hredeemed
  have hnext : Older db history last.id id := older_of_successor hlaw hempty hread hlast
    (hlaw.duty hentry depth req rfl last hredeemed)
  rw [hreads] at hpast hearlier
  rcases List.mem_cons.mp hearlier with rfl | hrest
  · exact hnext
  · exact refreshTokenLedger.precedes_trans hlaw.answers
      (List.rel_of_pairwise_cons hpast hrest) hnext

/-- Each token that a refresh has found is younger than those found before. -/
theorem reads_ascend {thread depth : Nat} {req : TokenRequest}
    (hserves : ∀ entry ∈ history, entry.thread = thread →
      entry.request = .refreshAccessToken depth req)
    {later : Trace} (hlater : later <:+ history) :
    (reads (own thread later)).Pairwise
      (fun token earlier => Older db history earlier.id token.id) := by
  induction later with
  | nil => exact List.Pairwise.nil
  | cons entry past ih =>
      have hpast := ih ((List.suffix_cons _ _).trans hlater)
      obtain ⟨other, request, step⟩ := entry
      by_cases hother : other = thread
      · subst hother
        have hrequest := hserves _ (mem_of_suffix_cons hlater) rfl
        change request = _ at hrequest
        subst hrequest
        cases step with
        | answered response => rwa [own_cons_answered]
        | called call =>
            rw [own_cons_self, reads, List.filterMap_cons]
            cases hfound : found? call with
            | none => exact hpast
            | some token =>
                obtain ⟨id, rfl⟩ := exists_of_found? hfound
                obtain ⟨choice, hreply⟩ := hlaw.reply hlater
                obtain ⟨-, rfl⟩ := mem_of_select hreply
                refine List.pairwise_cons.mpr ⟨fun earlier hearlier => ?_, hpast⟩
                exact older_of_reads hlaw hempty hlater hpast hearlier
      · rwa [own_cons_of_ne hother]

/-- A refresh finds at most as many tokens as there are. -/
theorem reads_length_le {thread depth : Nat} {req : TokenRequest} {step : Step Reply Response}
    (hentry : ⟨thread, .refreshAccessToken depth req, step⟩ :: past <:+ history) :
    (reads (own thread past)).length ≤ (tablesAfter db past).refreshTokens.rows.length := by
  have hserves : ∀ entry ∈ history, entry.thread = thread →
      entry.request = .refreshAccessToken depth req := fun entry hmem hthread =>
    request_eq hlaw.coherent hmem (mem_of_suffix_cons hentry) hthread
  have hascend := reads_ascend hlaw hempty hserves ((List.suffix_cons _ _).trans hentry)
  have hnodup : ((reads (own thread past)).map RefreshToken.id).Nodup := by
    refine List.pairwise_map.mpr (hascend.imp ?_)
    intro token earlier holder hsame
    rw [hsame] at holder
    exact refreshTokenLedger.precedes_irrefl hlaw.answers _ holder
  have hsubset : (reads (own thread past)).map RefreshToken.id ⊆
      (tablesAfter db past).refreshTokens.rows.map RefreshToken.id := by
    intro id hid
    obtain ⟨token, htoken, rfl⟩ := List.mem_map.mp hid
    exact mem_of_mem_reads hlaw hentry htoken
  have hlength := (hnodup.subperm hsubset).length_le
  rwa [List.length_map, List.length_map] at hlength

end Links

/-- Following successors ends.  In every state the system can reach from one
without refresh tokens, the successor links have no cycle; no refresh finds more
tokens than there are, so one whose stack has room for more calls never exhausts
it; and every refresh that gets turn after turn answers. -/
theorem successor_recursion_ends (platform : Platform) (config : DeviceConfig)
    (db : Database) (hempty : db.refreshTokens.rows = []) :
    (∀ actions id, ¬ TransGen (Links (tablesOf platform config db actions)) id id) ∧
    (∀ actions thread depth req step past,
      ⟨thread, .refreshAccessToken depth req, step⟩ :: past <:+ runFrom platform config db actions →
      (reads (own thread past)).length ≤ (tablesAfter db past).refreshTokens.rows.length) ∧
    (∀ actions thread depth req past,
      ⟨thread, .refreshAccessToken depth req, .answered (.failed (.token .stackOverflow))⟩ ::
        past <:+ runFrom platform config db actions →
      depth ≤ (tablesAfter db past).refreshTokens.rows.length) ∧
    ∀ schedule thread depth req residual n,
      (∀ n, ∃ k choice, schedule (n + k) = .step thread choice) →
      ((system platform config).upTo schedule db n).threads[thread]? =
        some ⟨.refreshAccessToken depth req, some residual⟩ →
      ∃ m response, ⟨thread, .refreshAccessToken depth req, .answered response⟩ ∈
        ((system platform config).upTo schedule db m).history := by
  refine ⟨?_, ?_, ?_, ?_⟩
  · intro actions id hcycle
    have hlaw := lawful_of_run platform config db actions
    rw [tablesOf_eq] at hcycle
    exact refreshTokenLedger.precedes_irrefl hlaw.answers id (older_of_links hlaw hempty hcycle)
  · intro actions thread depth req step past hentry
    exact reads_length_le (lawful_of_run platform config db actions) hempty hentry
  · intro actions thread depth req past hanswer
    have hlaw := lawful_of_run platform config db actions
    have hcount := (hlaw.answer hanswer depth req rfl).2 rfl
    rw [← hcount]
    exact reads_length_le hlaw hempty hanswer
  · intro schedule thread depth req residual n hturns hlive
    exact System.answered_of_turns hturns hlive

/-- A refresh that is served alone, turn after turn. -/
def lonelyRefresh : Nat → Action Request Choice
  | 0 => .start (.refreshAccessToken 3 (sampleRefresh (sampleRefreshID 4)))
  | _ + 1 => .step 0 (moment 1 1)

theorem graceFlow_ends :
    graceTables.refreshTokens.rows = [] ∧
    Links (tablesOf samplePlatform sampleConfig graceTables graceFlow) (sampleRefreshID 4)
      (sampleRefreshID 5) ∧
    ¬ TransGen (Links (tablesOf samplePlatform sampleConfig graceTables graceFlow))
      (sampleRefreshID 4) (sampleRefreshID 4) ∧
    (∃ thread depth req past, ∃ step : Step Reply Response,
      ⟨thread, .refreshAccessToken depth req, step⟩ :: past <:+ graceRun ∧
      (reads (own thread past)).length ≤ (tablesAfter graceTables past).refreshTokens.rows.length) ∧
    ∃ m response, ⟨0, .refreshAccessToken 3 (sampleRefresh (sampleRefreshID 4)),
      .answered response⟩ ∈
        ((system samplePlatform sampleConfig).upTo lonelyRefresh graceTables m).history := by
  obtain ⟨hacyclic, hreads, -, hanswers⟩ :=
    successor_recursion_ends samplePlatform sampleConfig graceTables rfl
  refine ⟨rfl, ?_, hacyclic graceFlow _, ?_, ?_⟩
  · show ∃ row ∈ (tablesOf samplePlatform sampleConfig graceTables graceFlow).refreshTokens.rows,
      row.id = sampleRefreshID 4 ∧ row.successorID = some (sampleRefreshID 5)
    decide +kernel
  · obtain ⟨⟨⟨req, token, resp⟩, hmem, -⟩, -⟩ := graceFlow_run
    obtain ⟨thread, depth, past, hanswer, -⟩ := exists_of_mem_refreshAnswers hmem
    exact ⟨thread, depth, req, past, _, hanswer, hreads graceFlow thread depth req _ past hanswer⟩
  · refine hanswers lonelyRefresh 0 3 _ _ 1 ?_ rfl
    intro n
    exact ⟨1, moment 1 1, rfl⟩

end Aegion.OAuth
