/-
Event queries of the analytics REST API: what `ValidateQueryRequest` accepts, and the SQL
that `BuildQuery` makes of a request.  The SQL is kept in pieces, so that it can be told
where the values of the filters stand in it; a map is the list of its entries in the order
in which the loops meet them.
-/
import Aegion.OAuthRecords
import Mathlib.Data.Char
import Mathlib.Data.List.Lex
import Mathlib.Data.List.Sort

namespace Aegion.Analytics

open OAuth (Time)

abbrev Text := List Char

/-- A text as an SQL literal. -/
def quote (text : Text) : Text := '\'' :: (text ++ ['\''])

/-- What `encoding/json` makes of a text under an empty interface. -/
inductive Value (ν : Type) where
  | null
  | bool (b : Bool)
  | number (x : ν)
  | text (s : Text)
  | array (items : List (Value ν))
  | object (members : List (Text × Value ν))

/-- `float64` numbers with their decimal texts, and times. -/
structure Platform where
  Number : Type
  /-- The sign bit. -/
  negative : Number → Bool
  /-- `fmt.Sprintf("%v", x)` without the sign. -/
  magnitude : Number → Text
  /-- `strconv.ParseFloat(s, 64)`; `none` is its error. -/
  parseFloat : Text → Option Number
  /-- `f <= 0 || f >= 1`. -/
  outOfRange : Number → Bool
  formatRFC3339 : Time → Text
  /-- `t.AddDate(0, n, 0)`. -/
  addMonths : Time → Int → Time

variable (platform : Platform)

section Printing

/-- `strings.Join`. -/
def join (separator : Text) (parts : List Text) : Text := separator.intercalate parts

def printBool (b : Bool) : Text := if b then "true".toList else "false".toList

def printNumber (x : platform.Number) : Text :=
  if platform.negative x then '-' :: platform.magnitude x else platform.magnitude x

/-- A printed member of a map; maps are printed in the order of their keys. -/
def printMember (member : Text × Text) : Text := member.1 ++ ':' :: member.2

def sortMembers (members : List (Text × Text)) : List (Text × Text) :=
  members.insertionSort fun left right => left.1 ≤ right.1

mutual

/-- `fmt.Sprintf("%v", v)`. -/
def print : Value platform.Number → Text
  | .null => "<nil>".toList
  | .bool b => printBool b
  | .number x => printNumber platform x
  | .text s => s
  | .array items => '[' :: (join [' '] (printItems items) ++ [']'])
  | .object members =>
      "map[".toList ++ join [' '] ((sortMembers (printMembers members)).map printMember) ++ [']']

def printItems : List (Value platform.Number) → List Text
  | [] => []
  | item :: rest => print item :: printItems rest

def printMembers : List (Text × Value platform.Number) → List (Text × Text)
  | [] => []
  | (key, item) :: rest => (key, print item) :: printMembers rest

end

end Printing

structure SortField where
  field : Text
  direction : Text
deriving Repr, DecidableEq

structure AggregateField where
  function : Text
  field : Text
  aliasName : Text
  param : Text
deriving Repr, DecidableEq

structure TimeRange where
  start : Option Time
  stop : Option Time
  unit : Text
  value : Int
deriving Repr, DecidableEq

abbrev Filters := List (Text × Value platform.Number)

structure QueryRequest where
  filters : Filters platform
  sort : List SortField
  page : Int
  pageSize : Int
  timeRange : Option TimeRange
  aggregate : List AggregateField
  groupBy : List Text

inductive Operator where
  | eq
  | ne
  | gt
  | gte
  | lt
  | lte
  | inList
  | notInList
  | contains
  | regex
  | startsWith
  | endsWith
deriving Repr, DecidableEq

def Operator.name : Operator → Text
  | .eq => "$eq".toList
  | .ne => "$ne".toList
  | .gt => "$gt".toList
  | .gte => "$gte".toList
  | .lt => "$lt".toList
  | .lte => "$lte".toList
  | .inList => "$in".toList
  | .notInList => "$nin".toList
  | .contains => "$contains".toList
  | .regex => "$regex".toList
  | .startsWith => "$startsWith".toList
  | .endsWith => "$endsWith".toList

def operators : List Operator :=
  [.eq, .ne, .gt, .gte, .lt, .lte, .inList, .notInList, .contains, .regex, .startsWith,
    .endsWith]

def operator? (op : Text) : Option Operator := operators.find? fun known => known.name = op

section Validation

/-- `len(s)`. -/
def byteLength (text : Text) : Nat := text.foldl (fun n c => n + c.utf8Size) 0

/-- `fieldNameRe.MatchString`. -/
def isFieldName (text : Text) : Bool :=
  text ≠ [] && text.all fun c => c.isAlphanum || c = '_' || c = '.'

/-- `aliasRe.MatchString`. -/
def isAlias (text : Text) : Bool :=
  text ≠ [] && text.all fun c => c.isAlphanum || c = '_'

/-- Fail if the condition holds. -/
def refuseIf (c : Prop) [Decidable c] (message : Text) : Except Text Unit :=
  if c then .error message else .ok ()

/-- A loop that ends at the first error. -/
def checkAll {α : Type} (check : α → Except Text Unit) : List α → Except Text Unit
  | [] => .ok ()
  | item :: rest => do
      check item
      checkAll check rest

def validateOperator (op : Text) : Except Text Unit :=
  refuseIf ((operator? op).isNone) ("invalid operator: ".toList ++ op)

def validateFilter (filter : Text × Value platform.Number) : Except Text Unit := do
  refuseIf (filter.1 = []) "filter field name cannot be empty".toList
  refuseIf (255 < byteLength filter.1)
    "filter field name exceeds maximum of 255 characters".toList
  refuseIf (isFieldName filter.1 = false) ("invalid filter field name: ".toList ++ filter.1)
  match filter.2 with
  | .object members => checkAll (fun member => validateOperator member.1) members
  | _ => .ok ()

def validateFilters (filters : Filters platform) : Except Text Unit :=
  checkAll (validateFilter platform) filters

def validateSortField (sort : SortField) : Except Text Unit := do
  refuseIf (sort.field = []) "sort field cannot be empty".toList
  refuseIf (255 < byteLength sort.field) "sort field exceeds maximum of 255 characters".toList
  refuseIf (isFieldName sort.field = false) ("invalid sort field name: ".toList ++ sort.field)
  refuseIf (sort.direction.map Char.toLower ≠ "asc".toList ∧
    sort.direction.map Char.toLower ≠ "desc".toList)
    "invalid sort direction: must be asc or desc".toList

def aggregateFunctions : List Text :=
  ["count".toList, "sum".toList, "avg".toList, "min".toList, "max".toList,
    "percentile".toList]

def validateAggregateField (agg : AggregateField) : Except Text Unit := do
  refuseIf (agg.function = []) "aggregate function is required".toList
  refuseIf (agg.function ∉ aggregateFunctions)
    ("invalid aggregate function: ".toList ++ agg.function)
  refuseIf (agg.field = [] ∧ agg.function ≠ "count".toList)
    ("field is required for ".toList ++ agg.function ++ " aggregation".toList)
  -- The field of a count is not looked at.
  refuseIf (agg.function ≠ "count".toList ∧ 255 < byteLength agg.field)
    "aggregate field exceeds maximum of 255 characters".toList
  refuseIf (agg.function ≠ "count".toList ∧ isFieldName agg.field = false)
    ("invalid aggregate field name: ".toList ++ agg.field)
  refuseIf (agg.aliasName ≠ [] ∧ 255 < byteLength agg.aliasName)
    "aggregate alias exceeds maximum of 255 characters".toList
  refuseIf (agg.aliasName ≠ [] ∧ isAlias agg.aliasName = false)
    ("invalid aggregate alias: ".toList ++ agg.aliasName)
  if agg.function = "percentile".toList ∧ agg.param ≠ [] then
    match platform.parseFloat agg.param with
    | none => .error ("invalid percentile param: ".toList ++ agg.param)
    | some f =>
        refuseIf (platform.outOfRange f = true)
          "percentile param must be between 0 and 1 (exclusive)".toList
  else .ok ()

def validateGroupBy (field : Text) : Except Text Unit := do
  refuseIf (field = []) "group_by field cannot be empty".toList
  refuseIf (255 < byteLength field) "group_by field exceeds maximum of 255 characters".toList
  refuseIf (isFieldName field = false) ("invalid group_by field name: ".toList ++ field)

def validateQueryRequest (req : QueryRequest platform) : Except Text Unit := do
  refuseIf (req.pageSize < 0) "page_size must be non-negative".toList
  refuseIf (req.page < 0) "page must be non-negative".toList
  refuseIf (100000 < req.pageSize) "page_size exceeds maximum of 100000".toList
  validateFilters platform req.filters
  checkAll validateSortField req.sort
  checkAll (validateAggregateField platform) req.aggregate
  checkAll validateGroupBy req.groupBy

end Validation

section Building

/-- A piece of SQL: written by the code, the text of a time, or the text that a value of a
filter gets. -/
inductive Piece (ν : Type) where
  | fixed (text : Text)
  | stamp (text : Text)
  | value (v : Value ν) (text : Text)

def Piece.text {ν : Type} : Piece ν → Text
  | .fixed text => text
  | .stamp text => text
  | .value _ text => text

abbrev Pieces := List (Piece platform.Number)

def render {ν : Type} (pieces : List (Piece ν)) : Text := pieces.flatMap Piece.text

/-- `strings.Join`. -/
def joinPieces {ν : Type} (separator : Text) (parts : List (List (Piece ν))) : List (Piece ν) :=
  [Piece.fixed separator].intercalate parts

/-- `strings.ReplaceAll(input, "'", "''")`. -/
def sanitizeInput (input : Text) : Text :=
  input.flatMap fun c => if c = '\'' then ['\'', '\''] else [c]

def formatValue (v : Value platform.Number) (quoted : Bool) : Text :=
  match v with
  | .text s => if quoted then quote (sanitizeInput s) else sanitizeInput s
  | v => if quoted then quote (print platform v) else print platform v

/-- A condition on one value. -/
def comparison (field symbol : Text) (v : Value platform.Number) (text : Text) : Pieces platform :=
  [.fixed (field ++ symbol), .value v text]

/-- `IN` and `NOT IN`; there is no condition if the value is not an array. -/
def membership (field symbol : Text) : Value platform.Number → Option (Pieces platform)
  | .array items =>
      some (.fixed (field ++ symbol) ::
        joinPieces [','] (items.map fun v => [.value v (formatValue platform v true)]) ++
          [.fixed [')']])
  | _ => none

def operatorCondition (field : Text) (op : Operator) (v : Value platform.Number) :
    Option (Pieces platform) :=
  let sanitized := sanitizeInput (print platform v)
  match op with
  | .eq => some (comparison platform field " = ".toList v (formatValue platform v true))
  | .ne => some (comparison platform field " != ".toList v (formatValue platform v true))
  | .gt => some (comparison platform field " > ".toList v (formatValue platform v false))
  | .gte => some (comparison platform field " >= ".toList v (formatValue platform v false))
  | .lt => some (comparison platform field " < ".toList v (formatValue platform v false))
  | .lte => some (comparison platform field " <= ".toList v (formatValue platform v false))
  | .inList => membership platform field " IN (".toList v
  | .notInList => membership platform field " NOT IN (".toList v
  | .contains =>
      some (comparison platform field " ILIKE ".toList v (quote ('%' :: (sanitized ++ ['%']))))
  | .regex => some (comparison platform field " ~ ".toList v (quote sanitized))
  | .startsWith =>
      some (comparison platform field " ILIKE ".toList v (quote (sanitized ++ ['%'])))
  | .endsWith =>
      some (comparison platform field " ILIKE ".toList v (quote ('%' :: sanitized)))

def buildOperatorCondition (field : Text) (members : Filters platform) : Pieces platform :=
  let conditions := members.filterMap fun member =>
    (operator? member.1).bind fun op => operatorCondition platform field op member.2
  if conditions.isEmpty then [.fixed "1=1".toList]
  else .fixed ['('] :: joinPieces " AND ".toList conditions ++ [.fixed [')']]

def buildFieldCondition (field : Text) (v : Value platform.Number) : Pieces platform :=
  match v with
  | .object members => buildOperatorCondition platform field members
  | .text s => comparison platform field " = ".toList v (quote (sanitizeInput s))
  | .number x => comparison platform field " = ".toList v (printNumber platform x)
  | .bool b => comparison platform field " = ".toList v (printBool b)
  | v => comparison platform field " = ".toList v (quote (print platform v))

/-- `buildWhereClause`, whose error is always `nil`. -/
def buildWhereClause (filters : Filters platform) : Pieces platform :=
  joinPieces " AND ".toList
    (filters.map fun filter => buildFieldCondition platform filter.1 filter.2)

/-- Arithmetic of `int64`. -/
def int64 (n : Int) : Int := n.bmod 18446744073709551616

/-- `-time.Duration(n) * time.Hour`. -/
def hoursAgo (n : Int) : Int := int64 (int64 (-n) * 3600000000000)

def rangeStart (now : Time) (unit : Text) (value : Int) : Time :=
  if unit = ['h'] then now + hoursAgo value
  else if unit = ['d'] then now + hoursAgo (int64 (value * 24))
  else if unit = ['w'] then now + hoursAgo (int64 (int64 (value * 24) * 7))
  else if unit = "mo".toList then platform.addMonths now (int64 (-value))
  else now + hoursAgo 1

def buildTimeFilter (now : Time) (tr : TimeRange) : Pieces platform :=
  match tr.start, tr.stop with
  | some start, some stop =>
      [.fixed "created_at BETWEEN ".toList, .stamp (quote (platform.formatRFC3339 start)),
        .fixed " AND ".toList, .stamp (quote (platform.formatRFC3339 stop))]
  | _, _ =>
      if 0 < tr.value ∧ tr.unit ≠ [] then
        [.fixed "created_at >= ".toList,
          .stamp (quote (platform.formatRFC3339 (rangeStart platform now tr.unit tr.value)))]
      else [.fixed "1=1".toList]

def buildAggregateFunction (agg : AggregateField) : Text :=
  if agg.function = "count".toList then "COUNT(*)".toList
  else if agg.function = "sum".toList then "SUM(".toList ++ agg.field ++ [')']
  else if agg.function = "avg".toList then "AVG(".toList ++ agg.field ++ [')']
  else if agg.function = "min".toList then "MIN(".toList ++ agg.field ++ [')']
  else if agg.function = "max".toList then "MAX(".toList ++ agg.field ++ [')']
  else if agg.function = "percentile".toList then
    if agg.param ≠ [] then
      "percentile_cont(".toList ++ agg.param ++ ") WITHIN GROUP (ORDER BY ".toList ++
        agg.field ++ [')']
    else "percentile_cont(0.5) WITHIN GROUP (ORDER BY ".toList ++ agg.field ++ [')']
  else "COUNT(".toList ++ agg.field ++ [')']

def aggregateAlias (agg : AggregateField) : Text :=
  if agg.aliasName = [] then agg.function ++ '_' :: agg.field else agg.aliasName

def selectClause (groupBy : List Text) (aggregate : List AggregateField) : Text :=
  join ", ".toList (groupBy ++ aggregate.map fun agg =>
    buildAggregateFunction agg ++ " AS ".toList ++ aggregateAlias agg)

/-- `SELECT ... FROM table`, and the filters. -/
def selectFrom (columns table : Text) (filters : Filters platform) : Pieces platform :=
  [.fixed ("SELECT ".toList ++ columns), .fixed (" FROM ".toList ++ table)] ++
    if filters.isEmpty then []
    else .fixed " WHERE ".toList :: buildWhereClause platform filters

/-- `buildAggregateQuery`; the query built before it is not used. -/
def buildAggregateQuery (req : QueryRequest platform) (table : Text) : Pieces platform :=
  selectFrom platform (selectClause req.groupBy req.aggregate) table req.filters ++
    [.fixed (" GROUP BY ".toList ++ join ", ".toList req.groupBy)]

def orderDirection (direction : Text) : Text :=
  if direction = "desc".toList ∨ direction = "DESC".toList then "DESC".toList
  else "ASC".toList

def buildOrderClause (sorts : List SortField) : Text :=
  if sorts.isEmpty then "created_at DESC".toList
  else join ", ".toList (sorts.map fun sort => sort.field ++ ' ' :: orderDirection sort.direction)

/-- The query up to its order. -/
def buildSelection (now : Time) (req : QueryRequest platform) (table : Text) : Pieces platform :=
  let query := selectFrom platform ['*'] table req.filters
  if req.aggregate.isEmpty = false ∧ req.groupBy.isEmpty = false then
    buildAggregateQuery platform req table
  else
    match req.timeRange with
    | none => query
    | some tr =>
        let connective := if render query ≠ render (selectFrom platform ['*'] table [])
          then " AND ".toList else " WHERE ".toList
        query ++ .fixed connective :: buildTimeFilter platform now tr

/-- `BuildQuery`, whose error is always `nil`. -/
def buildQuery (now : Time) (req : QueryRequest platform) (table : Text) : Pieces platform :=
  let pageSize := if req.pageSize = 0 then 100 else req.pageSize
  let page := if req.page = 0 then 1 else req.page
  let offset := int64 (int64 (page - 1) * pageSize)
  buildSelection platform now req table ++
    [.fixed (" ORDER BY ".toList ++ buildOrderClause req.sort ++
      " LIMIT ".toList ++ pageSize.repr.toList ++ " OFFSET ".toList ++ offset.repr.toList)]

end Building

end Aegion.Analytics
