/-
Walking through the pages of `ListEvents` without a cache.  The database reads the paging
clauses of a query back from its text; the total is the count of the query with these
clauses in it, so that it is the size of a page.
-/
import Aegion.EventListing
import Aegion.GoText
import Mathlib.Data.List.Perm.Basic

namespace Aegion.Analytics

open OAuth (Time)
open Service

section Database

/-- The text before a given end. -/
def stripEnd (ending text : Text) : Option Text :=
  if ending.isSuffixOf text then some (text.take (text.length - ending.length)) else none

/-- The text between a given beginning and a given end. -/
def unwrap (beginning ending text : Text) : Option Text :=
  (stripEnd ending text).map fun text => text.drop beginning.length

/-- The text before the number at its end, and the number. -/
def lastNumber (text : Text) : Option (Text × Nat) :=
  (Go.digitsValue (text.reverse.takeWhile Char.isDigit).reverse).map fun n =>
    ((text.reverse.dropWhile Char.isDigit).reverse, n)

/-- A query in the default order: the selection, its limit and its offset. -/
def parsePage (sql : Text) : Option (Text × Nat × Nat) := do
  let (sql, offset) ← lastNumber sql
  let sql ← stripEnd " OFFSET ".toList sql
  let (sql, limit) ← lastNumber sql
  let selection ← stripEnd " ORDER BY created_at DESC LIMIT ".toList sql
  some (selection, limit, offset)

/-- An events table that does not change, with the rows that a selection keeps. -/
structure EventTable (Row : Type) where
  rows : List Row
  createdAt : Row → Time
  distinct : (rows.map createdAt).Nodup
  selects : Text → Row → Bool

variable {Row : Type} (table : EventTable Row)

/-- The rows that a selection keeps, the latest first. -/
def EventTable.matching (selection : Text) : List Row :=
  (table.rows.filter (table.selects selection)).insertionSort fun earlier later =>
    table.createdAt later ≤ table.createdAt earlier

def EventTable.rowsOf (sql : Text) : List Row :=
  match parsePage sql with
  | some (selection, limit, offset) => ((table.matching selection).drop offset).take limit
  | none => []

/-- The database counts the rows of the inner query. -/
def EventTable.countOf (sql : Text) : Int :=
  (((unwrap "SELECT COUNT(*) as count FROM (".toList ") as subq".toList sql).map fun inner =>
    (table.rowsOf inner).length).getD 0 : Nat)

end Database

section Texts

theorem stripEnd_append (text ending : Text) : stripEnd ending (text ++ ending) = some text := by
  have hsuffix : ending.isSuffixOf (text ++ ending) = true :=
    List.isSuffixOf_iff_suffix.mpr (List.suffix_append text ending)
  rw [stripEnd, if_pos hsuffix, List.length_append, Nat.add_sub_cancel, List.take_left]

theorem unwrap_append (beginning text ending : Text) :
    unwrap beginning ending (beginning ++ text ++ ending) = some text := by
  rw [unwrap, stripEnd_append, Option.map_some, List.drop_left]

/-- A number is read back behind a text that does not end in a digit. -/
theorem lastNumber_append (front ending : Text) (n : Nat)
    (hending : ending.getLast?.any (fun c => !c.isDigit) = true) :
    lastNumber (front ++ ending ++ n.repr.toList) = some (front ++ ending, n) := by
  have hdigits : ∀ d ∈ n.repr.toList.reverse, d.isDigit = true :=
    fun d hd => Go.isDigit_of_mem_repr (List.mem_reverse.mp hd)
  obtain ⟨c, hlast, hc⟩ := Option.any_eq_true _ _ |>.mp hending
  obtain ⟨middle, rfl⟩ := List.getLast?_eq_some_iff.mp hlast
  have hvalue := Go.digitsValue_repr n
  rw [Nat.toList_repr] at hvalue
  have hc : c.isDigit = false := by simpa using hc
  rw [lastNumber, List.reverse_append, List.takeWhile_append_of_pos hdigits,
    List.dropWhile_append_of_pos hdigits]
  simp [hc, hvalue]

theorem append_five (first second third fourth fifth : Text) :
    first ++ (second ++ third ++ fourth ++ fifth) =
      first ++ second ++ third ++ fourth ++ fifth := by
  simp only [List.append_assoc]

theorem parsePage_append (selection : Text) (limit offset : Nat) :
    parsePage (selection ++ (" ORDER BY created_at DESC LIMIT ".toList ++
      (limit : Int).repr.toList ++ " OFFSET ".toList ++ (offset : Int).repr.toList)) =
        some (selection, limit, offset) := by
  have hoffset : (" OFFSET ".toList).getLast?.any (fun c => !c.isDigit) = true := by decide
  have hlimit : (" ORDER BY created_at DESC LIMIT ".toList).getLast?.any
      (fun c => !c.isDigit) = true := by
    decide
  refine (congrArg parsePage (append_five _ _ _ _ _)).trans ?_
  change parsePage (_ ++ limit.repr.toList ++ _ ++ offset.repr.toList) = _
  rw [parsePage, lastNumber_append _ _ offset hoffset]
  simp only [Option.bind_eq_bind, Option.bind_some, stripEnd_append,
    lastNumber_append _ _ limit hlimit]

variable {Row : Type} (table : EventTable Row)

/-- The rows of a page. -/
theorem rowsOf_page (selection : Text) (limit offset : Nat) :
    table.rowsOf (selection ++ (" ORDER BY created_at DESC LIMIT ".toList ++
      (limit : Int).repr.toList ++ " OFFSET ".toList ++ (offset : Int).repr.toList)) =
      ((table.matching selection).drop offset).take limit := by
  rw [EventTable.rowsOf, parsePage_append]

theorem countOf_countSQL (sql : Text) :
    table.countOf (countSQL sql) = ((table.rowsOf sql).length : Nat) := by
  have hinner : unwrap "SELECT COUNT(*) as count FROM (".toList ") as subq".toList
      (countSQL sql) = some sql := unwrap_append _ _ _
  exact congrArg
    (fun inner => (((inner.map fun sql => (table.rowsOf sql).length).getD 0 : Nat) : Int)) hinner

end Texts

section Pages

variable {Row : Type} (platform : Platform) (config : Config) (table : EventTable Row)

/-- The cache is disabled and the database does not fail. -/
def performUncached (now : Time) (c : Call Row) (_ : Unit) : Reply c × Unit :=
  (match c with
    | .now => now
    | .cacheGet _ => .ok none
    | .cacheSet _ _ _ => .ok now
    | .executeQuery sql => .ok (table.rowsOf sql)
    | .executeCount sql => .ok (table.countOf sql)
    | .evictExpired => now, ())

/-- A request for a page of the events that pass some filters. -/
def pageRequest (filters : Filters platform) (page pageSize : Int) : QueryRequest platform :=
  ⟨filters, [], page, pageSize, none, [], []⟩

/-- The response to a request for a page. -/
def listPage (filters : Filters platform) (pageSize : Int) (clock : Int → Time) (page : Int) :
    Option (Except Failure (Listing Row)) :=
  ((listEvents platform config (.decoded (pageRequest platform filters page pageSize))).run
    (performUncached table) (List.replicate 5 (clock page)) ()).map Prod.fst

def Listing.hasNext (listing : Listing Row) : Bool := listing.pagination.any Pagination.hasNext

/-- Pages are requested one after the other as long as the responses say that there is a next
one. -/
inductive Walk (fetch : Int → Option (Except Failure (Listing Row))) :
    Int → List (Listing Row) → Prop where
  | last {page : Int} {listing : Listing Row} : fetch page = some (.ok listing) →
      listing.hasNext = false → Walk fetch page [listing]
  | next {page : Int} {listing : Listing Row} {rest : List (Listing Row)} :
      fetch page = some (.ok listing) → listing.hasNext = true → Walk fetch (page + 1) rest →
      Walk fetch page (listing :: rest)

/-- The rows that pass the filters. -/
def passing (filters : Filters platform) : List Row :=
  table.matching (render (selectFrom platform ['*'] "events".toList filters))

/-- The walk from the first page returns every row exactly once, and every total is their
number. -/
def ReachesAll (filters : Filters platform) (pageSize : Int) (clock : Int → Time) : Prop :=
  ∃ listings, Walk (listPage platform config table filters pageSize clock) 1 listings ∧
    (listings.flatMap Listing.data).Perm (passing platform table filters) ∧
    ∀ listing ∈ listings, ∃ pagination, listing.pagination = some pagination ∧
      pagination.total = (passing platform table filters).length

end Pages

section Totals

variable {Row : Type} {platform : Platform} {config : Config} {table : EventTable Row}
  {filters : Filters platform} {pageSize : Int} {clock : Int → Time}

theorem int64_of_small {n : Int} (hlow : 0 ≤ n) (hhigh : n < 9223372036854775808) :
    int64 n = n := by
  rw [int64, Int.bmod_eq_emod, Int.emod_eq_of_lt hlow (by omega), if_neg (by omega)]
  omega

/-- The paging clauses of a query in the default order. -/
theorem orderBy_text (limit offset : Text) :
    " ORDER BY ".toList ++ buildOrderClause [] ++ " LIMIT ".toList ++ limit ++
        " OFFSET ".toList ++ offset =
      " ORDER BY created_at DESC LIMIT ".toList ++ limit ++ " OFFSET ".toList ++ offset := by
  have horder : " ORDER BY ".toList ++ buildOrderClause [] ++ " LIMIT ".toList =
      " ORDER BY created_at DESC LIMIT ".toList := by
    decide
  exact congrArg (fun text => text ++ limit ++ " OFFSET ".toList ++ offset) horder

theorem render_concat {ν : Type} (pieces : List (Piece ν)) (text : Text) :
    render (pieces ++ [.fixed text]) = render pieces ++ text := by
  rw [render, List.flatMap_append, List.flatMap_singleton]
  rfl

theorem buildQuery_page (now : Time) {page : Int} (hpage : page ≠ 0) (hsize : pageSize ≠ 0)
    (name : Text) :
    buildQuery platform now (pageRequest platform filters page pageSize) name =
      selectFrom platform ['*'] name filters ++
        [.fixed (" ORDER BY ".toList ++ buildOrderClause [] ++ " LIMIT ".toList ++
          pageSize.repr.toList ++ " OFFSET ".toList ++
          (int64 (int64 (page - 1) * pageSize)).repr.toList)] := by
  change selectFrom platform ['*'] name filters ++
      [Piece.fixed (" ORDER BY ".toList ++ buildOrderClause [] ++ " LIMIT ".toList ++
        (if pageSize = 0 then 100 else pageSize).repr.toList ++ " OFFSET ".toList ++
        (int64 (int64 ((if page = 0 then 1 else page) - 1) *
          (if pageSize = 0 then 100 else pageSize))).repr.toList)] = _
  rw [if_neg hsize, if_neg hpage]

theorem querySQL_page (filters : Filters platform) (now : Time) {page : Int} (hpage : page ≠ 0)
    (hsize : pageSize ≠ 0) :
    querySQL platform now (pageRequest platform filters page pageSize) =
      render (selectFrom platform ['*'] "events".toList filters) ++
        (" ORDER BY created_at DESC LIMIT ".toList ++ pageSize.repr.toList ++
        " OFFSET ".toList ++ (int64 (int64 (page - 1) * pageSize)).repr.toList) := by
  refine (congrArg render (buildQuery_page now hpage hsize _)).trans ?_
  refine (render_concat _ _).trans ?_
  exact congrArg _ (orderBy_text _ _)

theorem rowsOf_first (table : EventTable Row) (filters : Filters platform) (now : Time)
    (limit : Nat) (hlimit : limit ≠ 0) :
    table.rowsOf (querySQL platform now (pageRequest platform filters 1 limit)) =
      (passing platform table filters).take limit := by
  have hoffset : int64 (int64 (1 - 1) * (limit : Int)) = (0 : Nat) := by
    rw [Int.sub_self, int64_of_small (le_refl 0) (by decide), Int.zero_mul]
    rfl
  have hquery := querySQL_page filters now (by decide : (1 : Int) ≠ 0)
    (by omega : (limit : Int) ≠ 0)
  rw [hoffset] at hquery
  exact (congrArg table.rowsOf hquery).trans (rowsOf_page table _ limit 0)

/-- Without a cache a response has the rows of the query, and their number as the total. -/
theorem listEvents_uncached {body : Body platform} {req : QueryRequest platform} (now : Time)
    (hprepare : prepare platform config body = .ok req) :
    ((listEvents platform config body).run (performUncached table) (List.replicate 5 now)
      ()).map Prod.fst =
      some ((paginate platform req (table.rowsOf (querySQL platform now req)).length).map
        fun pagination => ⟨table.rowsOf (querySQL platform now req), some pagination, false⟩) := by
  have hcount := countOf_countSQL table (querySQL platform now req)
  rw [listEvents, hprepare, ← hcount]
  simp only [List.replicate, Service.bind_eq, Service.run_bind, Service.run_ofExcept,
    Service.run_statement_cons, performUncached, Option.bind_some, Service.resume_ok,
    Except.toOption, Except.mapError, id_eq, Option.getD_some]
  cases paginate platform req (table.countOf (countSQL (querySQL platform now req))) with
  | error e =>
      rw [Service.resume_error]
      rfl
  | ok pagination =>
      rw [Service.resume_ok, Service.run_succeed]
      rfl

/-- A page size in the range is not changed. -/
theorem prepare_page (hlow : 1 ≤ pageSize) (hmax : pageSize ≤ config.maxPageSize) :
    prepare platform config (.decoded (pageRequest platform filters 1 pageSize)) =
    ((validateQueryRequest platform (pageRequest platform filters 1 pageSize)).mapError
      Failure.invalidQuery).map fun _ => pageRequest platform filters 1 pageSize := by
  have hdefaults : withDefaults platform config (pageRequest platform filters 1 pageSize) =
      pageRequest platform filters 1 pageSize := by
    have hsize : pageSize ≠ 0 := by omega
    have hnot : ¬ config.maxPageSize < pageSize := by omega
    simp [withDefaults, pageRequest, hsize, hnot]
  change (do
    (validateQueryRequest platform (withDefaults platform config
      (pageRequest platform filters 1 pageSize))).mapError Failure.invalidQuery
    Except.ok (withDefaults platform config (pageRequest platform filters 1 pageSize))) = _
  rw [hdefaults]
  cases validateQueryRequest platform (pageRequest platform filters 1 pageSize) with
  | error e => rfl
  | ok _ => rfl

/-- There is never a page after the first one. -/
theorem paginate_first (filters : Filters platform) {total : Nat} (hlow : 1 ≤ pageSize)
    (htotal : total ≤ pageSize) (hbound : pageSize ≤ 100000) :
    ∃ totalPages, paginate platform (pageRequest platform filters 1 pageSize) total =
      .ok ⟨1, pageSize, total, false, totalPages⟩ := by
  have hsmall : int64 (total + pageSize - 1) = total + pageSize - 1 :=
    int64_of_small (by omega) (by omega)
  have hpages : ¬ 1 < (total + pageSize - 1).tdiv pageSize := by
    rw [Int.tdiv_eq_ediv_of_nonneg (by omega), Int.not_lt]
    refine Int.le_of_lt_add_one (Int.ediv_lt_of_lt_mul (by omega) ?_)
    omega
  refine ⟨(total + pageSize - 1).tdiv pageSize, ?_⟩
  rw [paginate, if_neg (show ¬ (pageRequest platform filters 1 pageSize).pageSize = 0 by
    change ¬ pageSize = 0
    omega)]
  change Except.ok (Pagination.mk 1 pageSize total
    (decide (1 < (int64 (total + pageSize - 1)).tdiv pageSize))
    ((int64 (total + pageSize - 1)).tdiv pageSize)) = _
  rw [hsmall, decide_eq_false hpages]

theorem pageSize_of_valid
    (hvalid : validateQueryRequest platform (pageRequest platform filters 1 pageSize) = .ok ()) :
    pageSize ≤ 100000 := by
  by_contra hlarge
  have hlarge : 100000 < pageSize := by omega
  have hnonneg : ¬ pageSize < 0 := by omega
  simp only [validateQueryRequest, pageRequest, refuseIf, hlarge, hnonneg, ↓reduceIte] at hvalid
  cases hvalid

/-- The first page: at most a page of rows, their number, and no next page. -/
theorem listPage_first (table : EventTable Row) (clock : Int → Time) (hlow : 1 ≤ pageSize)
    (hmax : pageSize ≤ config.maxPageSize)
    (hvalid : validateQueryRequest platform (pageRequest platform filters 1 pageSize) = .ok ()) :
    ∃ totalPages, listPage platform config table filters pageSize clock 1 =
      some (.ok ⟨(passing platform table filters).take pageSize.toNat,
        some ⟨1, pageSize, ((passing platform table filters).take pageSize.toNat).length, false,
          totalPages⟩, false⟩) := by
  obtain ⟨limit, rfl⟩ := Int.eq_ofNat_of_zero_le (show 0 ≤ pageSize by omega)
  have hprepare : prepare platform config (.decoded (pageRequest platform filters 1 limit)) =
      .ok (pageRequest platform filters 1 limit) := by
    rw [prepare_page hlow hmax, hvalid]
    rfl
  have hrows := rowsOf_first table filters (clock 1) limit (by omega)
  have htotal : ((passing platform table filters).take limit).length ≤ limit :=
    List.length_take_le _ _
  obtain ⟨totalPages, hpaginate⟩ := paginate_first filters hlow
    (Int.ofNat_le.mpr htotal) (pageSize_of_valid hvalid)
  refine ⟨totalPages, ?_⟩
  rw [listPage, listEvents_uncached (clock 1) hprepare, hrows, hpaginate]
  rfl

theorem listPage_error (table : EventTable Row) (clock : Int → Time) {e : Text}
    (hlow : 1 ≤ pageSize) (hmax : pageSize ≤ config.maxPageSize)
    (hinvalid : validateQueryRequest platform (pageRequest platform filters 1 pageSize) =
      .error e) :
    listPage platform config table filters pageSize clock 1 = some (.error (.invalidQuery e)) := by
  have hprepare : prepare platform config (.decoded (pageRequest platform filters 1 pageSize)) =
      .error (.invalidQuery e) := by
    rw [prepare_page hlow hmax, hinvalid]
    rfl
  rw [listPage, listEvents, hprepare, Service.bind_eq, Service.run_bind, Service.run_ofExcept]
  rfl

/-- Paging reaches every event exactly if the request is valid and its events fit on the first
page. -/
theorem reachesAll_iff (platform : Platform) (config : Config) (table : EventTable Row)
    (filters : Filters platform) (pageSize : Int) (clock : Int → Time) (hlow : 1 ≤ pageSize)
    (hmax : pageSize ≤ config.maxPageSize) :
    ReachesAll platform config table filters pageSize clock ↔
      validateQueryRequest platform (pageRequest platform filters 1 pageSize) = .ok () ∧
        (passing platform table filters).length ≤ pageSize := by
  constructor
  · rintro ⟨listings, hwalk, hperm, -⟩
    cases hvalid : validateQueryRequest platform (pageRequest platform filters 1 pageSize) with
    | error e =>
        have herror := listPage_error table clock hlow hmax hvalid
        cases hwalk with
        | last hlisted _ => cases herror.symm.trans hlisted
        | next hlisted _ _ => cases herror.symm.trans hlisted
    | ok _ =>
        obtain ⟨totalPages, hfirst⟩ :=
          listPage_first table clock hlow hmax hvalid
        refine ⟨rfl, ?_⟩
        cases hwalk with
        | last hlisted _ =>
            cases hfirst.symm.trans hlisted
            have hlength := hperm.length_eq
            simp only [List.flatMap_cons, List.flatMap_nil, List.append_nil,
              List.length_take] at hlength
            omega
        | next hlisted hnext _ =>
            cases hfirst.symm.trans hlisted
            cases hnext
  · rintro ⟨hvalid, hfits⟩
    obtain ⟨totalPages, hfirst⟩ :=
      listPage_first table clock hlow hmax hvalid
    rw [List.take_of_length_le (by omega)] at hfirst
    refine ⟨_, .last hfirst rfl, ?_, ?_⟩
    · simp
    · intro listing hlisting
      cases List.mem_singleton.mp hlisting
      exact ⟨_, rfl, rfl⟩

end Totals

/-- Two events, and selections that keep both. -/
def twoEvents : EventTable Nat := ⟨[1, 2], fun row => row, by decide, fun _ _ => true⟩

theorem passing_twoEvents : passing samplePlatform twoEvents [] = [2, 1] := rfl

theorem twoEvents_on_one_page :
    ReachesAll samplePlatform sampleConfig twoEvents [] 2 fun _ => 0 := by
  refine (reachesAll_iff samplePlatform sampleConfig twoEvents [] 2 (fun _ => 0) (by decide)
    (by decide)).mpr ⟨rfl, ?_⟩
  rw [passing_twoEvents]
  decide

/-- With one event on a page, the first response says that there is one event and no next
page, but there are two events. -/
theorem second_event_not_reached :
    passing samplePlatform twoEvents [] = [2, 1] ∧
    ∃ totalPages, listPage samplePlatform sampleConfig twoEvents [] 1 (fun _ => 0) 1 =
      some (.ok ⟨[2], some ⟨1, 1, 1, false, totalPages⟩, false⟩) := by
  obtain ⟨totalPages, hfirst⟩ := listPage_first twoEvents (fun _ => 0)
    (show (1 : Int) ≤ 1 by decide) (show 1 ≤ sampleConfig.maxPageSize by decide)
    (show validateQueryRequest samplePlatform (pageRequest samplePlatform [] 1 1) = .ok () from rfl)
  rw [passing_twoEvents] at hfirst
  exact ⟨passing_twoEvents, totalPages, hfirst⟩

end Aegion.Analytics
