/-
`ListEvents` of the analytics REST API with its result cache.  The cache key is made of the
length of the query; a cached answer belongs to the query for which it is given if no two
queries of the run have the same length and different rows.
-/
import Aegion.AnalyticsQuery
import Aegion.HistoryLaws

namespace Aegion.Analytics

open OAuth (Time)
open Service History

/-- The database with an events table that does not change. -/
structure Backend (Row : Type) where
  rowsOf : Text → List Row
  countOf : Text → Int

structure Config where
  resultCacheTTLMinutes : Int
  maxPageSize : Int
  defaultPageSize : Int

variable {Row : Type}

structure CacheEntry (Row : Type) where
  value : List Row
  expiresAt : Time

/-- The map of `DefaultCache`. -/
abbrev Cache (Row : Type) := Text → Option (CacheEntry Row)

/-- `hashQuery`: the length of the query in hexadecimal digits. -/
def hashQuery (sql : Text) : Text := Nat.toDigits 16 (byteLength sql)

def cacheKey (sql : Text) : Text := "events:".toList ++ hashQuery sql

/-- `fmt.Sprintf("SELECT COUNT(*) as count FROM (%s) as subq", sql)`. -/
def countSQL (sql : Text) : Text :=
  "SELECT COUNT(*) as count FROM (".toList ++ sql ++ ") as subq".toList

/-- The cache is asked under the key of a query. -/
inductive Call (Row : Type) where
  | now
  | cacheGet (sql : Text)
  | cacheSet (sql : Text) (rows : List Row) (ttl : Int)
  | executeQuery (sql : Text)
  | executeCount (sql : Text)
  | evictExpired

/-- Setting an entry says when it expires, evicting what the time was. -/
abbrev Reply : Call Row → Type
  | .now => Time
  | .cacheGet _ => Except Text (Option (List Row))
  | .cacheSet _ _ _ => Except Text Time
  | .executeQuery _ => Except Text (List Row)
  | .executeCount _ => Except Text Int
  | .evictExpired => Time

/-- The time, whether the context has ended, and whether the database fails. -/
structure Choice where
  now : Time
  ended : Option Text
  fails : Option Text

section Calls

variable (backend : Backend Row)

/-- The value of an entry that is not expired. -/
def lookup (cache : Cache Row) (now : Time) (key : Text) : Option (List Row) :=
  (cache key).bind fun entry => if entry.expiresAt < now then none else some entry.value

def orFail {α : Type} (failure : Option Text) (value : α) : Except Text α :=
  match failure with
  | some e => .error e
  | none => .ok value

def reply (choice : Choice) (cache : Cache Row) : (c : Call Row) → Reply c
  | .now => choice.now
  | .cacheGet sql => orFail choice.ended (lookup cache choice.now (cacheKey sql))
  | .cacheSet _ _ ttl => orFail choice.ended (choice.now + ttl)
  | .executeQuery sql => orFail choice.fails (backend.rowsOf sql)
  | .executeCount sql => orFail choice.fails (backend.countOf sql)
  | .evictExpired => choice.now

def effect (call : Called (Reply : Call Row → Type)) (cache : Cache Row) : Cache Row :=
  match call with
  | ⟨.cacheSet sql rows _, .ok expiresAt⟩ =>
      fun key => if key = cacheKey sql then some ⟨rows, expiresAt⟩ else cache key
  | ⟨.evictExpired, now⟩ => fun key => (cache key).filter fun entry => now ≤ entry.expiresAt
  | _ => cache

/-- Execute one call. -/
def perform (choice : Choice) (c : Call Row) (cache : Cache Row) : Reply c × Cache Row :=
  (reply backend choice cache c, effect ⟨c, reply backend choice cache c⟩ cache)

end Calls

section Handler

structure Pagination where
  page : Int
  pageSize : Int
  total : Int
  hasNext : Bool
  totalPages : Int
deriving Repr, DecidableEq

/-- A response with status 200. -/
structure Listing (Row : Type) where
  data : List Row
  pagination : Option Pagination
  cachedResult : Bool
deriving Repr, DecidableEq

/-- The other responses, and the panic of a division by zero. -/
inductive Failure where
  | invalidRequest (details : Text)
  | invalidQuery (details : Text)
  | queryFailed (details : Text)
  | panicked
deriving Repr, DecidableEq

/-- The request body: none, one that cannot be decoded, or a query request. -/
inductive Body (platform : Platform) where
  | none
  | malformed (e : Text)
  | decoded (req : QueryRequest platform)

variable (platform : Platform) (config : Config)

def decode : Body platform → Except Failure (QueryRequest platform)
  | .none => .ok ⟨[], [], 0, 0, Option.none, [], []⟩
  | .malformed e => .error (.invalidRequest e)
  | .decoded req => .ok req

def withDefaults (req : QueryRequest platform) : QueryRequest platform :=
  let pageSize := if req.pageSize = 0 then config.defaultPageSize else req.pageSize
  { req with
    pageSize := if config.maxPageSize < pageSize then config.maxPageSize else pageSize
    page := if req.page = 0 then 1 else req.page }

/-- The request that is validated and answered. -/
def prepare (body : Body platform) : Except Failure (QueryRequest platform) := do
  let req ← decode platform body
  let req := withDefaults platform config req
  (validateQueryRequest platform req).mapError .invalidQuery
  .ok req

/-- The SQL of a request. -/
def querySQL (now : Time) (req : QueryRequest platform) : Text :=
  render (buildQuery platform now req "events".toList)

/-- `time.Duration(minutes) * time.Minute`. -/
def cacheTTL : Int := int64 (config.resultCacheTTLMinutes * 60000000000)

def paginate (req : QueryRequest platform) (total : Int) : Except Failure Pagination :=
  if req.pageSize = 0 then .error .panicked
  else
    let totalPages := (int64 (total + req.pageSize - 1)).tdiv req.pageSize
    .ok ⟨req.page, req.pageSize, total, req.page < totalPages, totalPages⟩

def listEvents (body : Body platform) :
    Service (Reply : Call Row → Type) Failure (Listing Row) := do
  let req ← ofExcept (prepare platform config body)
  let now ← statement .now .ok
  let sql := querySQL platform now req
  let cached ← statement (.cacheGet sql) fun found => .ok (found.toOption.bind id)
  match cached with
  | some rows => succeed ⟨rows, none, true⟩
  | none => do
      let rows ← statement (.executeQuery sql) (·.mapError .queryFailed)
      let total ← statement (.executeCount (countSQL sql)) fun counted =>
        .ok (counted.toOption.getD rows.length)
      statement (.cacheSet sql rows (cacheTTL config)) fun _ => .ok ()
      let pagination ← ofExcept (paginate platform req total)
      succeed ⟨rows, some pagination, false⟩

inductive Request where
  | listEvents (body : Body platform)
  | cleanup

inductive Response (Row : Type) where
  | listed (listing : Listing Row)
  | failed (e : Failure)
  | cleaned
deriving Repr, DecidableEq

def serve : Request platform → Program (Reply : Call Row → Type) (Response Row)
  | .listEvents body => (listEvents platform config body).finish .listed .failed
  | .cleanup => .call .evictExpired fun _ => .done .cleaned

def system (backend : Backend Row) :
    System (Request platform) (Reply : Call Row → Type) (Response Row) (Cache Row) Choice :=
  ⟨serve platform config, perform backend⟩

abbrev Trace (Row : Type) :=
  History (Request platform) (Reply : Call Row → Type) (Response Row)

def emptyCache : Cache Row := fun _ => none

/-- Everything that happens from an empty cache on. -/
def runFrom (backend : Backend Row) (actions : List (Action (Request platform) Choice)) :
    Trace platform Row :=
  ((system platform config backend).execute actions (System.initial emptyCache)).history

end Handler

section Duties

variable {platform : Platform} {config : Config} {backend : Backend Row}

/-- What is stored under a query are the rows that the database has returned for it. -/
def callDuty (past : List (Called (Reply : Call Row → Type))) :
    Called (Reply : Call Row → Type) → Prop
  | ⟨.cacheSet sql rows _, _⟩ => ⟨.executeQuery sql, .ok rows⟩ ∈ past
  | _ => True

/-- The rows of a listing come from the cache or from the database. -/
def answerDuty (platform : Platform) (config : Config) :
    Request platform → Response Row → List (Called (Reply : Call Row → Type)) → Prop
  | .listEvents body, .listed listing, past => ∃ req now,
      prepare platform config body = .ok req ∧ ⟨.now, now⟩ ∈ past ∧
        (⟨.cacheGet (querySQL platform now req), .ok (some listing.data)⟩ ∈ past ∨
          ⟨.executeQuery (querySQL platform now req), .ok listing.data⟩ ∈ past)
  | _, _, _ => True

theorem some_of_toOption_bind {found : Except Text (Option (List Row))} {rows : List Row}
    (hfound : found.toOption.bind id = some rows) : found = .ok (some rows) := by
  cases found with
  | error e => cases hfound
  | ok found => exact congrArg _ hfound

theorem listEvents_yields (body : Body platform) :
    (listEvents platform config body : Service (Reply : Call Row → Type) _ _).Yields callDuty
      (fun listing => answerDuty platform config (.listEvents body) (.listed listing)) [] := by
  refine yields_bind.mpr (yields_ofExcept.mpr fun req hreq => ?_)
  refine yields_bind.mpr (yields_statement.mpr fun now => ⟨trivial, fun _ heq => ?_⟩)
  cases heq
  refine yields_bind.mpr (yields_statement.mpr fun found => ⟨trivial, fun cached heq => ?_⟩)
  have hfound : found.toOption.bind id = cached := Except.ok.inj heq
  cases cached with
  | some rows =>
      rw [some_of_toOption_bind hfound]
      exact yields_succeed.mpr ⟨req, now, hreq, by simp, .inl (by simp)⟩
  | none =>
      refine yields_bind.mpr (yields_statement.mpr fun returned => ⟨trivial, ?_⟩)
      intro rows hrows
      cases returned with
      | error e => cases hrows
      | ok rows' =>
          cases hrows
          refine yields_bind.mpr (yields_statement.mpr fun counted => ⟨trivial, ?_⟩)
          intro total _
          refine yields_bind.mpr (yields_statement.mpr fun stored => ⟨by simp [callDuty], ?_⟩)
          intro _ _
          refine yields_bind.mpr (yields_ofExcept.mpr fun pagination _ => ?_)
          exact yields_succeed.mpr ⟨req, now, hreq, by simp, .inr (by simp)⟩

theorem serve_keeps (request : Request platform) :
    (serve platform config request : Program (Reply : Call Row → Type) _).Keeps callDuty
      (answerDuty platform config request) [] := by
  cases request with
  | listEvents body =>
      exact (listEvents_yields body).finish (fun _ _ hpost => hpost) fun _ _ => trivial
  | cleanup => exact fun _ => ⟨trivial, trivial⟩

theorem owes_of_run (actions : List (Action (Request platform) Choice)) :
    Throughout (Owes (fun _ => callDuty) (answerDuty platform config))
      (runFrom platform config backend actions) :=
  (system platform config backend).execute_owes serve_keeps actions emptyCache

theorem answers_of_run (actions : List (Action (Request platform) Choice)) :
    Throughout (Answers (perform backend) effect emptyCache)
      (runFrom platform config backend actions) :=
  ((system platform config backend).execute_replay (fun _ _ _ => rfl) actions emptyCache).2

end Duties

section Runs

variable {platform : Platform} {config : Config} {backend : Backend Row}
  {actions : List (Action (Request platform) Choice)} {past : Trace platform Row}

/-- The query that the database has executed with this step. -/
def executedQuery (entry : Entry (Request platform) (Reply : Call Row → Type) (Response Row)) :
    Option Text :=
  match entry.step with
  | .called ⟨.executeQuery sql, .ok _⟩ => some sql
  | _ => none

def executed (past : Trace platform Row) : List Text := past.filterMap executedQuery

/-- The queries executed before the cache is asked have the rows of the query asked for, as far
as they have its key. -/
def Separate (backend : Backend Row) (past : Trace platform Row)
    (entry : Entry (Request platform) (Reply : Call Row → Type) (Response Row)) : Prop :=
  match entry.step with
  | .called ⟨.cacheGet sql, _⟩ => ∀ other ∈ executed past,
      hashQuery other = hashQuery sql → backend.rowsOf other = backend.rowsOf sql
  | _ => True

instance decidableSeparate [DecidableEq Row] (past : Trace platform Row)
    (entry : Entry (Request platform) (Reply : Call Row → Type) (Response Row)) :
    Decidable (Separate backend past entry) := by
  unfold Separate
  split <;> infer_instance

/-- Every cached value is the rows of an executed query, under the key of that query. -/
def Backed (backend : Backend Row) (past : Trace platform Row) (cache : Cache Row) : Prop :=
  ∀ key entry, cache key = some entry → ∃ sql ∈ executed past,
    cacheKey sql = key ∧ entry.value = backend.rowsOf sql

theorem ok_of_orFail {α : Type} {failure : Option Text} {value result : α}
    (hok : .ok result = orFail failure value) : result = value := by
  cases failure with
  | some e => cases hok
  | none => exact Except.ok.inj hok

/-- The database returns the rows of the query. -/
theorem rows_of_executeQuery {thread : Nat} {sql : Text} {rows : List Row}
    (hpast : past <:+ runFrom platform config backend actions)
    (hquery : ⟨.executeQuery sql, .ok rows⟩ ∈ own thread past) :
    sql ∈ executed past ∧ rows = backend.rowsOf sql := by
  obtain ⟨request, hmem⟩ := mem_own_iff.mp hquery
  obtain ⟨before, hbefore⟩ := exists_past_of_mem hmem
  obtain ⟨choice, hreply⟩ := answers_of_run actions _ before (hbefore.trans hpast) _ rfl
  exact ⟨List.mem_filterMap.mpr ⟨_, hmem, rfl⟩, ok_of_orFail hreply⟩

/-- Entries only leave the cache, or one is set to the rows of an executed query. -/
theorem Backed.cons {cache next : Cache Row}
    {entry : Entry (Request platform) (Reply : Call Row → Type) (Response Row)}
    (hbacked : Backed backend past cache)
    (hnext : ∀ key value, next key = some value → cache key = some value ∨
      ∃ sql ∈ executed past, cacheKey sql = key ∧ value.value = backend.rowsOf sql) :
    Backed backend (entry :: past) next := by
  have hgrow : ∀ sql ∈ executed past, sql ∈ executed (entry :: past) := by
    intro sql hsql
    obtain ⟨earlier, hearlier, hexecuted⟩ := List.mem_filterMap.mp hsql
    exact List.mem_filterMap.mpr ⟨earlier, List.mem_cons_of_mem _ hearlier, hexecuted⟩
  intro key value hvalue
  rcases hnext key value hvalue with hold | ⟨sql, hsql, hset⟩
  · obtain ⟨sql, hsql, hold⟩ := hbacked key value hold
    exact ⟨sql, hgrow sql hsql, hold⟩
  · exact ⟨sql, hgrow sql hsql, hset⟩

theorem backed_of_run (hpast : past <:+ runFrom platform config backend actions) :
    Backed backend past (replay effect emptyCache past) := by
  induction past with
  | nil =>
      intro key entry hentry
      cases hentry
  | cons entry before ih =>
      have hbefore := (List.suffix_cons entry before).trans hpast
      have howes := owes_of_run actions entry before hpast
      apply (ih hbefore).cons
      obtain ⟨thread, request, step⟩ := entry
      cases step with
      | answered response => exact fun _ _ => .inl
      | called call =>
          obtain ⟨c, reply⟩ := call
          intro key value hvalue
          cases c with
          | cacheSet sql rows ttl =>
              cases reply with
              | error e => exact .inl hvalue
              | ok expiresAt =>
                  obtain ⟨hsql, hrows⟩ := rows_of_executeQuery hbefore howes
                  change (if key = cacheKey sql then _ else _) = some value at hvalue
                  split at hvalue
                  · rename_i hkey
                    cases hvalue
                    exact .inr ⟨sql, hsql, hkey.symm, hrows⟩
                  · exact .inl hvalue
          | evictExpired => exact .inl (Option.filter_eq_some_iff.mp hvalue).1
          | _ => exact .inl hvalue

/-- A hit under the key of a query gives the rows of that query, if the queries before are
separate from it. -/
theorem rows_of_cacheGet {thread : Nat} {sql : Text} {rows : List Row}
    (hpast : past <:+ runFrom platform config backend actions)
    (hseparate : Throughout (Separate backend) (runFrom platform config backend actions))
    (hhit : ⟨.cacheGet sql, .ok (some rows)⟩ ∈ own thread past) : rows = backend.rowsOf sql := by
  obtain ⟨request, hmem⟩ := mem_own_iff.mp hhit
  obtain ⟨before, hbefore⟩ := exists_past_of_mem hmem
  have hrun := hbefore.trans hpast
  obtain ⟨choice, hreply⟩ := answers_of_run actions _ before hrun _ rfl
  have hlookup : some rows = lookup _ choice.now (cacheKey sql) := ok_of_orFail hreply
  obtain ⟨entry, hentry, hvalue⟩ := Option.bind_eq_some_iff.mp hlookup.symm
  obtain ⟨other, hother, hkey, hrows⟩ :=
    backed_of_run ((List.suffix_cons _ before).trans hrun) _ entry hentry
  have hsame : hashQuery other = hashQuery sql := List.append_cancel_left hkey
  split at hvalue
  · cases hvalue
  · cases hvalue
    exact hrows.trans (hseparate _ before hrun other hother hsame)

/-- Where no two queries of different rows have one key, every listing carries the rows that the
database has for the query built from its request. -/
theorem listed_rows_of_query (platform : Platform) (config : Config) (backend : Backend Row)
    (actions : List (Action (Request platform) Choice))
    (hseparate : Throughout (Separate backend) (runFrom platform config backend actions)) :
    ∀ thread body listing past,
      ⟨thread, .listEvents body, .answered (.listed listing)⟩ :: past <:+
        runFrom platform config backend actions →
      ∃ req now, prepare platform config body = .ok req ∧ ⟨.now, now⟩ ∈ own thread past ∧
        listing.data = backend.rowsOf (querySQL platform now req) := by
  intro thread body listing past hlisted
  have hpast := (List.suffix_cons _ past).trans hlisted
  obtain ⟨req, now, hreq, hnow, hhit | hquery⟩ := owes_of_run actions _ past hlisted
  · exact ⟨req, now, hreq, hnow, rows_of_cacheGet hpast hseparate hhit⟩
  · exact ⟨req, now, hreq, hnow, (rows_of_executeQuery hpast hquery).2⟩

end Runs

section Sample

def sampleTime : Text := "1970-01-01T00:00:00Z".toList

/-- The numbers 1 and -1, and one text for all times. -/
def samplePlatform : Platform where
  Number := Bool
  negative x := x
  magnitude _ := ['1']
  parseFloat _ := none
  outOfRange _ := false
  formatRFC3339 _ := sampleTime
  addMonths time _ := time

def sampleRequest (filters : Filters samplePlatform) : QueryRequest samplePlatform :=
  ⟨filters, [], 1, 10, none, [], []⟩

/-- A table of three names; a query returns those it has in quotes. -/
def sampleBackend : Backend Text where
  rowsOf sql := ["ada".toList, "bob".toList, "cy".toList].filter fun name =>
    ('\'' :: name ++ ['\'']) <:+: sql
  countOf _ := 1

def sampleConfig : Config := ⟨5, 100, 20⟩

def byName (name : Text) : Body samplePlatform :=
  .decoded (sampleRequest [("name".toList, .text name)])

/-- Two requests, one after the other. -/
def oneByOne (first second : Body samplePlatform) : List (Action (Request samplePlatform) Choice) :=
  Action.start (Request.listEvents first) :: List.replicate 6 (.step 0 ⟨0, none, none⟩) ++
    Action.start (Request.listEvents second) :: List.replicate 6 (.step 1 ⟨0, none, none⟩)

/-- The responses of a run, newest first. -/
def responses (history : Trace samplePlatform Text) : List (Response Text) :=
  history.filterMap fun entry =>
    match entry.step with
    | .answered response => some response
    | _ => none

/-- A run that asks for names of different lengths. -/
def separateNames : List (Action (Request samplePlatform) Choice) :=
  oneByOne (byName "ada".toList) (byName "cy".toList)

theorem separateNames_listed :
    responses (runFrom samplePlatform sampleConfig sampleBackend separateNames) =
      [.listed ⟨["cy".toList], some ⟨1, 10, 1, false, 1⟩, false⟩,
        .listed ⟨["ada".toList], some ⟨1, 10, 1, false, 1⟩, false⟩] ∧
    ∀ thread body listing past,
      ⟨thread, .listEvents body, .answered (.listed listing)⟩ :: past <:+
        runFrom samplePlatform sampleConfig sampleBackend separateNames →
      ∃ req now, prepare samplePlatform sampleConfig body = .ok req ∧
        ⟨.now, now⟩ ∈ own thread past ∧
          listing.data = sampleBackend.rowsOf (querySQL samplePlatform now req) := by
  refine ⟨by decide +kernel, listed_rows_of_query samplePlatform sampleConfig sampleBackend
    separateNames ?_⟩
  decide +kernel

/-- Whoever asks for one name gets the cached row of another name of the same length. -/
theorem listed_rows_of_another :
    responses (runFrom samplePlatform sampleConfig sampleBackend
        (oneByOne (byName "ada".toList) (byName "bob".toList))) =
      [.listed ⟨["ada".toList], none, true⟩,
        .listed ⟨["ada".toList], some ⟨1, 10, 1, false, 1⟩, false⟩] ∧
    ∃ req, prepare samplePlatform sampleConfig (byName "bob".toList) = .ok req ∧
      ∀ now, sampleBackend.rowsOf (querySQL samplePlatform now req) = ["bob".toList] := by
  refine ⟨by decide +kernel, sampleRequest [("name".toList, .text "bob".toList)], ?_, ?_⟩
  · rfl
  · intro now
    have hsame : querySQL samplePlatform now
        (sampleRequest [("name".toList, .text "bob".toList)]) =
          querySQL samplePlatform 0 (sampleRequest [("name".toList, .text "bob".toList)]) := rfl
    rw [hsame]
    decide +kernel

end Sample

end Aegion.Analytics
