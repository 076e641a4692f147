/-
`BatchSync` of the analytics module: copying source tables to the analytics database page by
page, with the last copied id as cursor.  A new position has no cursor, and the page beyond NULL
is empty: from a fresh start nothing is ever copied.
-/
import Mathlib.Data.List.Sort
import Mathlib.Order.Basic

namespace Aegion.BatchSync

structure SyncPosition where
  strategy : String
  sourceTable : String
  lastSyncedID : Option String
deriving Repr, DecidableEq

/-- The columns that are copied; a value may be NULL. -/
structure Row (κ ν : Type) where
  id : κ
  data : ν
  createdAt : ν
  updatedAt : ν
deriving Repr, DecidableEq

/-- How an id is printed with `%v`, and how the database reads the text of an id and of a
UUID. -/
structure Platform (κ : Type) where
  format : κ → String
  parse : String → Option κ
  isUUID : String → Bool

structure SyncLog where
  eventType : String
  recordsSynced : Nat
  errorMessage : String
deriving Repr, DecidableEq

/-- The source tables, the tables of the analytics database, the rows of
`analytics_sync_position` for the strategy, the log of sync events, and the positions in
memory. -/
structure World (κ ν : Type) where
  source : String → List (Row κ ν)
  destination : String → List (Row κ ν)
  stored : String → Option (Option String)
  events : List SyncLog
  positions : String → Option SyncPosition

/-- What fails while one table is synced: reading the stored position, the query, an insert, and
storing the new position. -/
structure Faults where
  position : Option String
  query : Option String
  insert : Nat → Option String
  store : Option String

variable {κ ν : Type}

section Statements

variable [LinearOrder κ]

/-- `id > $1`, which is unknown for NULL. -/
def greater (id : κ) (cursor : Option κ) : Option Bool :=
  cursor.map fun bound => decide (bound < id)

def readID (platform : Platform κ) : Option String → Except String (Option κ)
  | none => .ok none
  | some text =>
      match platform.parse text with
      | some id => .ok (some id)
      | none => .error ("invalid input syntax: " ++ text)

/-- `SELECT * FROM table WHERE id > $1 ORDER BY id LIMIT $2`. -/
def queryRows (platform : Platform κ) (rows : List (Row κ ν)) (lastSyncedID : Option String)
    (limit : Int) : Except String (List (Row κ ν)) := do
  let cursor ← readID platform lastSyncedID
  if limit < 0 then .error "LIMIT must not be negative"
  else
    let matching := rows.filter fun row => greater row.id cursor = some true
    .ok ((matching.insertionSort fun left right => left.id ≤ right.id).take limit.toNat)

def World.remember (world : World κ ν) (pos : SyncPosition) : World κ ν :=
  { world with positions := Function.update world.positions pos.sourceTable (some pos) }

/-- `INSERT INTO analytics_sync_position ... ON CONFLICT ... DO UPDATE`. -/
def World.store (world : World κ ν) (pos : SyncPosition) : World κ ν :=
  { world with stored := Function.update world.stored pos.sourceTable (some pos.lastSyncedID) }

def World.insert (world : World κ ν) (target : String) (row : Row κ ν) : World κ ν :=
  { world with
    destination := Function.update world.destination target (world.destination target ++ [row]) }

end Statements

section Sync

def SyncPosition.moveTo (pos : SyncPosition) (id : String) : SyncPosition :=
  { pos with lastSyncedID := some id }

def newPosition (table : String) : SyncPosition := ⟨"batch", table, none⟩

/-- A stored row is looked for, but nothing is read from it. -/
def getOrCreatePosition (faults : Faults) (table : String) (world : World κ ν) :
    SyncPosition × World κ ν :=
  match world.positions table with
  | some pos => (pos, world)
  | none =>
      match faults.position, world.stored table with
      | none, some _ => (newPosition table, world.remember (newPosition table))
      | _, _ => (newPosition table, world.remember (newPosition table))

/-- The position in memory is set before it is stored. -/
def setPosition (platform : Platform κ) (faults : Faults) (pos : SyncPosition)
    (world : World κ ν) : Option String × World κ ν :=
  let world := world.remember pos
  match faults.store with
  | some err => (some err, world)
  | none =>
      if pos.lastSyncedID.all platform.isUUID then (none, world.store pos)
      else (some "invalid input syntax for type uuid", world)

/-- The inserts of one page, numbered from `number` on, up to the first that fails. -/
def insertRows (fails : Nat → Option String) (target : String) :
    Nat → List (Row κ ν) → World κ ν → Option String × World κ ν
  | _, [], world => (none, world)
  | number, row :: rest, world =>
      match fails number with
      | some err => (some err, world)
      | none => insertRows fails target (number + 1) rest (world.insert target row)

variable [LinearOrder κ] (platform : Platform κ) (batchSize : Int)

def query (faults : Faults) (table : String) (pos : SyncPosition) (world : World κ ν) :
    Except String (List (Row κ ν)) :=
  match faults.query with
  | some err => .error err
  | none => queryRows platform (world.source table) pos.lastSyncedID batchSize

/-- `syncTable`, once it has the position. -/
def syncFrom (faults : Faults) (table : String) (pos : SyncPosition) (world : World κ ν) :
    Except String Nat × World κ ν :=
  match query platform batchSize faults table pos world with
  | .error err => (.error ("failed to query table " ++ table ++ ": " ++ err), world)
  | .ok rows =>
      match rows.getLast? with
      | none => (.ok 0, world)
      | some lastRow =>
          match insertRows faults.insert (table ++ "_sync") 0 rows world with
          | (some err, world) =>
              (.error ("failed to insert into DuckDB for table " ++ table ++ ": " ++ err), world)
          | (none, world) =>
              -- an error of `SetPosition` is only logged
              (.ok rows.length,
                (setPosition platform faults (pos.moveTo (platform.format lastRow.id)) world).2)

def syncTable (faults : Faults) (table : String) (world : World κ ν) :
    Except String Nat × World κ ν :=
  let found := getOrCreatePosition faults table world
  syncFrom platform batchSize faults table found.1 found.2

/-- What fails during one run: for each table by its number, and the final log entry. -/
structure RunFaults where
  tables : Nat → Faults
  log : Option String

/-- The loop over the tables; it carries the number of records and the last error. -/
def syncTables (faults : Nat → Faults) :
    Nat → List String → Nat × Option String → World κ ν → (Nat × Option String) × World κ ν
  | _, [], total, world => (total, world)
  | number, table :: rest, (records, lastErr), world =>
      match syncTable platform batchSize (faults number) table world with
      | (.error err, world) => syncTables faults (number + 1) rest (records, some err) world
      | (.ok copied, world) => syncTables faults (number + 1) rest (records + copied, lastErr) world

def logSyncEvent (fails : Option String) (records : Nat) (err : Option String)
    (world : World κ ν) : World κ ν :=
  match fails with
  | some _ => world
  | none =>
      let event := match err with
        | none => ⟨"sync_complete", records, ""⟩
        | some message => ⟨"sync_error", records, message⟩
      { world with events := world.events ++ [event] }

/-- One run over the configured tables; `none` is the nil error. -/
def runBatchSync (tables : List String) (faults : RunFaults) (world : World κ ν) :
    Option String × World κ ν :=
  let synced := syncTables platform batchSize faults.tables 0 tables (0, none) world
  (synced.1.2, logSyncEvent faults.log synced.1.1 synced.1.2 synced.2)

/-- A new process has no positions in memory. -/
def restart (world : World κ ν) : World κ ν := { world with positions := fun _ => none }

def noFaults : Faults := ⟨none, none, fun _ => none, none⟩

/-- A run in which nothing fails. -/
def errorFree : RunFaults := ⟨fun _ => noFaults, none⟩

inductive Step where
  | sync (faults : RunFaults)
  | restart

def advance (tables : List String) (world : World κ ν) : Step → World κ ν
  | .sync faults => (runBatchSync platform batchSize tables faults world).2
  | .restart => restart world

/-- The world after a schedule of runs and restarts. -/
def after (tables : List String) (world : World κ ν) (schedule : List Step) : World κ ν :=
  schedule.foldl (advance platform batchSize tables) world

/-- Nothing copied and no positions anywhere. -/
def fresh (source : String → List (Row κ ν)) : World κ ν where
  source := source
  destination := fun _ => []
  stored := fun _ => none
  events := []
  positions := fun _ => none

end Sync

section FreshStart

variable {source : String → List (Row κ ν)} {world : World κ ν} {faults : Faults}
  {table : String}

/-- Nothing has been copied, and no position in memory has a cursor. -/
structure Blank (source : String → List (Row κ ν)) (world : World κ ν) : Prop where
  source : world.source = source
  copied : world.destination = fun _ => []
  cursors : ∀ table pos, world.positions table = some pos → pos.lastSyncedID = none

theorem fresh_blank (source : String → List (Row κ ν)) : Blank source (fresh source) where
  source := rfl
  copied := rfl
  cursors := by
    intro _ _ hfound
    cases hfound

theorem Blank.remember (hblank : Blank source world) {pos : SyncPosition}
    (hpos : pos.lastSyncedID = none) : Blank source (world.remember pos) where
  source := hblank.source
  copied := hblank.copied
  cursors := by
    intro table' pos' hfound
    simp only [World.remember, Function.update_apply] at hfound
    split at hfound
    · rwa [← Option.some.inj hfound]
    · exact hblank.cursors table' pos' hfound

theorem getOrCreatePosition_blank (hblank : Blank source world) :
    (getOrCreatePosition faults table world).1.lastSyncedID = none ∧
      Blank source (getOrCreatePosition faults table world).2 := by
  unfold getOrCreatePosition
  split
  · rename_i pos hfound
    exact ⟨hblank.cursors table pos hfound, hblank⟩
  · split <;> exact ⟨rfl, hblank.remember rfl⟩

variable [LinearOrder κ] {platform : Platform κ} {batchSize : Int}

/-- No id is greater than NULL. -/
theorem query_blank {pos : SyncPosition} (hpos : pos.lastSyncedID = none) {rows : List (Row κ ν)}
    (hrows : query platform batchSize faults table pos world = .ok rows) : rows = [] := by
  unfold query at hrows
  split at hrows
  · cases hrows
  · rw [hpos] at hrows
    change (if batchSize < 0 then _ else _) = _ at hrows
    split at hrows
    · cases hrows
    · simpa [greater] using (Except.ok.inj hrows).symm

theorem syncFrom_blank {pos : SyncPosition} (hpos : pos.lastSyncedID = none)
    (hblank : Blank source world) :
    Blank source (syncFrom platform batchSize faults table pos world).2 := by
  unfold syncFrom
  split
  · exact hblank
  · rename_i rows hrows
    rw [query_blank hpos hrows]
    exact hblank

theorem syncTable_blank (hblank : Blank source world) :
    Blank source (syncTable platform batchSize faults table world).2 := by
  have hfound : _ ∧ Blank source (getOrCreatePosition faults table world).2 :=
    getOrCreatePosition_blank hblank
  exact syncFrom_blank hfound.1 hfound.2

theorem syncTables_blank {faults : Nat → Faults} {tables : List String} {number : Nat}
    {total : Nat × Option String} (hblank : Blank source world) :
    Blank source (syncTables platform batchSize faults number tables total world).2 := by
  induction tables generalizing number total world with
  | nil => exact hblank
  | cons table rest ih =>
      have hnext : Blank source (syncTable platform batchSize (faults number) table world).2 :=
        syncTable_blank hblank
      unfold syncTables
      split
      · rename_i hsync
        rw [hsync] at hnext
        exact ih hnext
      · rename_i hsync
        rw [hsync] at hnext
        exact ih hnext

theorem advance_blank {tables : List String} (hblank : Blank source world) (step : Step) :
    Blank source (advance platform batchSize tables world step) := by
  cases step with
  | restart =>
      constructor
      · exact hblank.source
      · exact hblank.copied
      · intro _ _ hfound
        cases hfound
  | sync faults =>
      have hsynced : Blank source
          (syncTables platform batchSize faults.tables 0 tables (0, none) world).2 :=
        syncTables_blank hblank
      change Blank source (logSyncEvent _ _ _ _)
      unfold logSyncEvent
      split
      · exact hsynced
      · exact ⟨hsynced.source, hsynced.copied, hsynced.cursors⟩

theorem after_blank {tables : List String} (hblank : Blank source world) (schedule : List Step) :
    Blank source (after platform batchSize tables world schedule) := by
  induction schedule generalizing world with
  | nil => exact hblank
  | cons step rest ih => exact ih (advance_blank hblank step)

/-- After the schedule each source row is in the destination exactly once, and no further runs or
restarts add anything. -/
def CopiedOnce [DecidableEq ν] (platform : Platform κ) (batchSize : Int) (tables : List String)
    (source : String → List (Row κ ν)) (table : String) (schedule : List Step) : Prop :=
  (∀ row ∈ source table,
    ((after platform batchSize tables (fresh source) schedule).destination
      (table ++ "_sync")).count row = 1) ∧
  ∀ further, (after platform batchSize tables (fresh source) (schedule ++ further)).destination
      (table ++ "_sync") =
    (after platform batchSize tables (fresh source) schedule).destination (table ++ "_sync")

/-- From a fresh start, whatever runs are made with whatever restarts, with or without errors, a
table is copied exactly if it has no rows. -/
theorem copiedOnce_iff [DecidableEq ν] (platform : Platform κ) (batchSize : Int)
    (tables : List String) (source : String → List (Row κ ν)) (table : String)
    (schedule : List Step) :
    CopiedOnce platform batchSize tables source table schedule ↔ source table = [] := by
  have hnever : ∀ steps, (after platform batchSize tables (fresh source) steps).destination =
      fun _ => [] := fun steps => (after_blank (fresh_blank source) steps).copied
  constructor
  · intro hcopied
    apply List.eq_nil_iff_forall_not_mem.mpr
    intro row hrow
    have hcount := hcopied.1 row hrow
    rw [hnever] at hcount
    cases hcount
  · intro hempty
    constructor
    · rw [hempty]
      exact fun _ hrow => absurd hrow List.not_mem_nil
    · intro further
      rw [hnever, hnever]

end FreshStart

section Sample

/-- Ids are numbers in unary. -/
def samplePlatform : Platform Nat where
  format id := String.ofList (List.replicate id '|')
  parse text := some text.length
  isUUID _ := true

def sampleSource (table : String) : List (Row Nat Unit) :=
  if table = "t" then [⟨7, (), (), ()⟩] else []

/-- A run over one table with one row ends without an error and has copied nothing. -/
theorem row_not_copied :
    (runBatchSync samplePlatform 1 ["t"] errorFree (fresh sampleSource)).1 = none ∧
      (after samplePlatform 1 ["t"] (fresh sampleSource) [.sync errorFree]).events =
        [⟨"sync_complete", 0, ""⟩] ∧
      (after samplePlatform 1 ["t"] (fresh sampleSource) [.sync errorFree]).destination "t_sync" =
        [] ∧
      ¬CopiedOnce samplePlatform 1 ["t"] sampleSource "t" [.sync errorFree] := by
  refine ⟨by decide +kernel, by decide +kernel, by decide +kernel, ?_⟩
  intro hcopied
  have hrow := hcopied.1 ⟨7, (), (), ()⟩ (by decide +kernel)
  revert hrow
  decide +kernel

end Sample

end Aegion.BatchSync
