/-
The limit on sending codes: one row per key that counts the calls of a fixed window, and
a cleanup that deletes the rows of past windows.  Every statement is atomic and carries the
time its process has read.
-/
import Mathlib.Data.Int.Order.Basic
import Mathlib.Order.Basic

namespace Aegion.MagicLink

/-- A time in nanoseconds as the microseconds of a `TIMESTAMPTZ`. -/
def timestamp (time : Int) : Int := time / 1000

theorem timestamp_mono {earlier later : Int} (hle : earlier ≤ later) :
    timestamp earlier ≤ timestamp later :=
  Int.ediv_le_ediv (by decide) hle

section Store

structure Row where
  count : Int
  windowEnd : Int
deriving Repr, DecidableEq

/-- The table `ml_rate_limits` by its primary key. -/
abbrev Table := String → Option Row

def emptyTable : Table := fun _ => none

inductive Outcome where
  | allowed
  | rateLimited
  /-- The database reports an integer out of range. -/
  | failed
deriving Repr, DecidableEq

def Outcome.isAllowed : Outcome → Bool
  | .allowed => true
  | _ => false

/-- The row that the upsert leaves and whose count it returns; `none` if the count does not
fit into an `INT`. -/
def upsert (row : Option Row) (windowEnd now : Int) : Option Row :=
  match row with
  | none => some ⟨1, windowEnd⟩
  | some row =>
      if row.windowEnd < now then some ⟨1, windowEnd⟩
      else if 2147483647 < row.count + 1 then none
      else some ⟨row.count + 1, row.windowEnd⟩

def checkRateLimit (table : Table) (key : String) (limit window now : Int) : Outcome × Table :=
  match upsert (table key) (timestamp (now + window)) (timestamp now) with
  | none => (.failed, table)
  | some row =>
      (if limit < row.count then .rateLimited else .allowed,
        fun other => if other = key then some row else table other)

/-- The statement of `Cleanup` on the limits. -/
def cleanup (table : Table) (now : Int) : Table :=
  fun key => (table key).filter fun row => decide (¬ row.windowEnd < timestamp now)

end Store

section Statements

inductive Call where
  | check (key : String) (limit window : Int)
  | cleanup
deriving Repr, DecidableEq

structure Statement where
  now : Int
  call : Call
deriving Repr, DecidableEq

def Statement.isCheck (statement : Statement) : Bool :=
  match statement.call with
  | .check _ _ _ => true
  | .cleanup => false

def step (table : Table) (statement : Statement) : Table :=
  match statement.call with
  | .check key limit window => (checkRateLimit table key limit window statement.now).2
  | .cleanup => cleanup table statement.now

/-- What a call of `CheckRateLimit` returns. -/
def answer (table : Table) (statement : Statement) : Option Outcome :=
  match statement.call with
  | .check key limit window => some (checkRateLimit table key limit window statement.now).1
  | .cleanup => none

/-- The results of the calls of `CheckRateLimit`, one after the other. -/
def results : Table → List Statement → List Outcome
  | _, [] => []
  | table, statement :: rest =>
      (answer table statement).toList ++ results (step table statement) rest

/-- The statement is a call for the key that is let through. -/
def Statement.allows (statement : Statement) (key : String) (table : Table) : Bool :=
  match statement.call with
  | .check other _ _ => other = key && (answer table statement).any Outcome.isAllowed
  | .cleanup => false

/-- The times of the calls for a key that are let through. -/
def allowedTimes (key : String) : Table → List Statement → List Int
  | _, [] => []
  | table, statement :: rest =>
      (if statement.allows key table then [statement.now] else []) ++
        allowedTimes key (step table statement) rest

end Statements

section Windows

/-- The row is of a window that has ended. -/
def Expired (now : Int) (row : Option Row) : Prop :=
  ∀ old, row = some old → old.windowEnd < timestamp now

/-- What a statement does to the row of a key, and whether it lets a call for it through. -/
inductive Move (limit window now : Int) : Option Row → Option Row → Bool → Prop where
  | stay (row : Option Row) : Move limit window now row row false
  | expire (row : Row) : Expired now (some row) → Move limit window now (some row) none false
  | opened (row : Option Row) : Expired now row →
      Move limit window now row (some ⟨1, timestamp (now + window)⟩) (1 ≤ limit)
  | counted (row : Row) : timestamp now ≤ row.windowEnd →
      Move limit window now (some row) (some ⟨row.count + 1, row.windowEnd⟩)
        (row.count + 1 ≤ limit)

/-- All calls for the key have one limit and one window. -/
def Fixed (key : String) (limit window : Int) (statement : Statement) : Prop :=
  ∀ limit' window', statement.call = .check key limit' window' →
    limit' = limit ∧ window' = window

variable {key : String} {limit window : Int} {table : Table} {statement : Statement}
  {statements : List Statement}

theorem expired_some_iff {now : Int} {row : Row} :
    Expired now (some row) ↔ row.windowEnd < timestamp now := by
  constructor
  · exact fun hexpired => hexpired row rfl
  · rintro hlt old ⟨⟩
    exact hlt

theorem move_cleanup (table : Table) (key : String) (limit window now : Int) :
    Move limit window now (table key) (cleanup table now key) false := by
  rw [cleanup]
  cases table key with
  | none => exact .stay none
  | some row =>
      by_cases hexpired : row.windowEnd < timestamp now
      · rw [Option.filter_some_neg (by simpa using hexpired)]
        exact .expire row (expired_some_iff.mpr hexpired)
      · rw [Option.filter_some_pos (by simpa using hexpired)]
        exact .stay (some row)

theorem move_check (table : Table) (key : String) (limit window now : Int) :
    Move limit window now (table key) ((checkRateLimit table key limit window now).2 key)
      (checkRateLimit table key limit window now).1.isAllowed := by
  have hle : ∀ count : Int,
      (if limit < count then Outcome.rateLimited else .allowed).isAllowed =
        decide (count ≤ limit) := by
    intro count
    by_cases hlt : limit < count
    · simp [hlt, Outcome.isAllowed]
    · simp [hlt, Outcome.isAllowed, Int.not_lt.mp hlt]
  rw [checkRateLimit]
  cases hrow : table key with
  | none =>
      simp only [upsert, ↓reduceIte, hle]
      exact .opened none fun _ hnone => by cases hnone
  | some row =>
      by_cases hexpired : row.windowEnd < timestamp now
      · simp only [upsert, hexpired, ↓reduceIte, hle]
        exact .opened _ (expired_some_iff.mpr hexpired)
      · by_cases hrange : 2147483647 < row.count + 1
        · simp only [upsert, hexpired, hrange, ↓reduceIte, hrow]
          exact .stay _
        · simp only [upsert, hexpired, hrange, ↓reduceIte, hle]
          exact .counted row (Int.not_lt.mp hexpired)

theorem move_step (table : Table) (hfixed : Fixed key limit window statement) :
    Move limit window statement.now (table key) (step table statement key)
      (statement.allows key table) := by
  obtain ⟨now, call⟩ := statement
  cases call with
  | cleanup => exact move_cleanup table key limit window now
  | check other limit' window' =>
      by_cases hkey : other = key
      · subst hkey
        obtain ⟨rfl, rfl⟩ := hfixed limit' window' rfl
        simpa [step, Statement.allows, answer] using move_check table other limit' window' now
      · have hsame : (checkRateLimit table other limit' window' now).2 key = table key := by
          rw [checkRateLimit]
          split
          · rfl
          · exact if_neg fun heq => hkey heq.symm
        simp only [step, Statement.allows, hkey, decide_false, Bool.false_and, hsame]
        exact .stay _

end Windows

section Bound

variable {key : String} {limit window : Int} {table : Table} {statement : Statement}
  {statements : List Statement}

/-- The times of a run do not go back. -/
abbrev InOrder (statements : List Statement) : Prop :=
  statements.Pairwise fun earlier later => earlier.now ≤ later.now

theorem now_of_mem_allowedTimes {time : Int} (htime : time ∈ allowedTimes key table statements) :
    ∃ statement ∈ statements, statement.now = time := by
  induction statements generalizing table with
  | nil => cases htime
  | cons statement rest ih =>
      rcases List.mem_append.mp htime with hhead | htail
      · split at hhead
        · exact ⟨statement, List.mem_cons_self, (List.mem_singleton.mp hhead).symm⟩
        · cases hhead
      · obtain ⟨later, hlater, hnow⟩ := ih htail
        exact ⟨later, List.mem_cons_of_mem _ hlater, hnow⟩

/-- How many more calls the window of a row lets through. -/
def left (limit : Int) : Option Row → Int
  | none => 0
  | some row => max 0 (limit - row.count)

/-- The calls up to some time. -/
def allowedUntil (stop : Int) (key : String) (table : Table) (statements : List Statement) : Nat :=
  (allowedTimes key table statements).countP fun time => time ≤ stop

theorem allowedUntil_cons (stop : Int) : allowedUntil stop key table (statement :: rest) =
    (if statement.allows key table ∧ statement.now ≤ stop then 1 else 0) +
      allowedUntil stop key (step table statement) rest := by
  rw [allowedUntil, allowedTimes, List.countP_append]
  by_cases hallows : statement.allows key table = true
  · simp [hallows, allowedUntil]
  · simp [hallows, allowedUntil]

theorem allowedUntil_late {stop : Int} (hlate : ∀ statement ∈ statements, stop < statement.now) :
    allowedUntil stop key table statements = 0 := by
  rw [allowedUntil, List.countP_eq_zero]
  intro time htime
  obtain ⟨statement, hmem, rfl⟩ := now_of_mem_allowedTimes htime
  simpa using hlate statement hmem

/-- As long as its window lasts, a row lets through what it has left. -/
theorem allowedUntil_window {row : Row} {stop : Int} (hsorted : InOrder statements)
    (hfixed : ∀ statement ∈ statements, Fixed key limit window statement)
    (hrow : table key = some row) (hstop : timestamp stop ≤ row.windowEnd) :
    (allowedUntil stop key table statements : Int) ≤ left limit (some row) := by
  induction statements generalizing table row with
  | nil => exact le_max_left 0 _
  | cons statement rest ih =>
      obtain ⟨hhead, hrest⟩ := List.pairwise_cons.mp hsorted
      by_cases hnow : statement.now ≤ stop
      · have hopen : ¬ Expired statement.now (some row) := by
          rw [expired_some_iff, Int.not_lt]
          exact (timestamp_mono hnow).trans hstop
        have hmove := move_step table (hfixed statement List.mem_cons_self)
        have hlater := fun later hlater => hfixed later (List.mem_cons_of_mem statement hlater)
        rw [allowedUntil_cons]
        rw [hrow] at hmove
        generalize hnext : step table statement key = next at hmove
        generalize statement.allows key table = allowed at hmove
        cases hmove with
        | stay => simpa using ih hrest hlater hnext hstop
        | expire _ hexpired => exact absurd hexpired hopen
        | opened _ hexpired => exact absurd hexpired hopen
        | counted _ _ =>
            have hafter := ih hrest hlater hnext hstop
            simp only [left, decide_eq_true_eq] at hafter ⊢
            split
            · omega
            · omega
      · rw [allowedUntil_late]
        · exact le_max_left 0 _
        · intro later hlater
          rcases List.mem_cons.mp hlater with rfl | hlater
          · omega
          · have := hhead later hlater
            omega

/-- From some time on, a window lets through what is left, and one more window begins. -/
theorem allowedUntil_two_windows {start : Int} (hlimit : 0 ≤ limit) (hsorted : InOrder statements)
    (hfixed : ∀ statement ∈ statements, Fixed key limit window statement)
    (hstart : ∀ statement ∈ statements, start ≤ statement.now) :
    (allowedUntil (start + window) key table statements : Int) ≤
      left limit (table key) + limit := by
  have hleft : ∀ row, 0 ≤ left limit row := by
    rintro (_ | row)
    · exact le_refl 0
    · exact le_max_left 0 _
  induction statements generalizing table with
  | nil =>
      have := hleft (table key)
      change (0 : Int) ≤ _
      omega
  | cons statement rest ih =>
      obtain ⟨hhead, hrest⟩ := List.pairwise_cons.mp hsorted
      have hlater := fun later hlater => hfixed later (List.mem_cons_of_mem statement hlater)
      have hmove := move_step table (hfixed statement List.mem_cons_self)
      have hafter : (allowedUntil (start + window) key (step table statement) rest : Int) ≤
          left limit (step table statement key) + limit :=
        ih hrest hlater fun later hlater => hstart later (List.mem_cons_of_mem _ hlater)
      have hnow := hstart statement List.mem_cons_self
      have hrow := hleft (table key)
      rw [allowedUntil_cons]
      generalize hnext : step table statement key = next at hmove hafter
      generalize statement.allows key table = allowed at hmove
      generalize table key = row at hmove hrow
      cases hmove with
      | stay => simpa using hafter
      | expire _ _ =>
          simp only [left, Bool.false_eq_true, false_and, ↓reduceIte] at hafter ⊢
          omega
      | opened _ _ =>
          -- The window opened now lasts until the end of the interval.
          have hwindow := allowedUntil_window hrest hlater hnext
            (timestamp_mono (Int.add_le_add_right hnow window))
          simp only [left] at hwindow
          simp only [decide_eq_true_eq]
          split
          · omega
          · omega
      | counted _ _ =>
          simp only [left, decide_eq_true_eq] at hafter ⊢
          split
          · omega
          · omega

/-- No statement makes a count negative. -/
theorem count_nonneg_step (hfixed : Fixed key limit window statement)
    (hcount : ∀ row, table key = some row → 0 ≤ row.count) :
    ∀ row, step table statement key = some row → 0 ≤ row.count := by
  have hmove := move_step table hfixed
  generalize step table statement key = next at hmove
  generalize statement.allows key table = allowed at hmove
  generalize table key = row at hmove hcount
  intro after hafter
  cases hmove with
  | stay => exact hcount after hafter
  | expire _ _ => cases hafter
  | opened _ _ =>
      cases hafter
      change (0 : Int) ≤ 1
      decide
  | counted old _ =>
      cases hafter
      have := hcount old rfl
      change 0 ≤ old.count + 1
      omega

/-- An interval of the length of the window meets at most two windows of a row. -/
theorem allowedTimes_interval (start : Int) (hlimit : 0 ≤ limit) (hsorted : InOrder statements)
    (hfixed : ∀ statement ∈ statements, Fixed key limit window statement)
    (hcount : ∀ row, table key = some row → 0 ≤ row.count) :
    ((allowedTimes key table statements).countP fun time =>
      start ≤ time ∧ time ≤ start + window : Int) ≤ 2 * limit := by
  induction statements generalizing table with
  | nil =>
      change (0 : Int) ≤ _
      omega
  | cons statement rest ih =>
      obtain ⟨hhead, hrest⟩ := List.pairwise_cons.mp hsorted
      by_cases hnow : statement.now < start
      · have hafter := ih hrest (fun later hlater => hfixed later (List.mem_cons_of_mem _ hlater))
          (count_nonneg_step (hfixed statement List.mem_cons_self) hcount)
        have hskip : (if statement.allows key table then [statement.now] else []).countP
            (fun time => start ≤ time ∧ time ≤ start + window) = 0 := by
          split
          · simp [Int.not_le.mpr hnow]
          · rfl
        rw [allowedTimes, List.countP_append, hskip, Nat.zero_add]
        exact hafter
      · have hstart : ∀ later ∈ statement :: rest, start ≤ later.now := by
          intro later hlater
          rcases List.mem_cons.mp hlater with rfl | hlater
          · omega
          · have := hhead later hlater
            omega
        have hbound : (allowedUntil (start + window) key table (statement :: rest) : Int) ≤
            left limit (table key) + limit :=
          allowedUntil_two_windows hlimit hsorted hfixed hstart
        have hle : (allowedTimes key table (statement :: rest)).countP
            (fun time => start ≤ time ∧ time ≤ start + window) ≤
              allowedUntil (start + window) key table (statement :: rest) :=
          List.countP_mono_left fun time _ htime => by
            simp only [decide_eq_true_eq] at htime ⊢
            exact htime.2
        have hleft : left limit (table key) ≤ limit := by
          cases hrow : table key with
          | none => exact hlimit
          | some row =>
              have := hcount row hrow
              simp only [left]
              omega
        omega

end Bound

section Cleanup

/-- The tables with and without the cleanups up to some time: they differ in rows that have
expired. -/
def Cleaned (now : Int) (table kept : Table) : Prop :=
  ∀ key, table key = kept key ∨ (table key = none ∧ Expired now (kept key))

variable {now : Int} {table kept : Table}

theorem Cleaned.later (hcleaned : Cleaned now table kept) {later : Int} (hle : now ≤ later) :
    Cleaned later table kept := by
  intro key
  refine (hcleaned key).imp_right fun ⟨hnone, hexpired⟩ => ⟨hnone, fun old hold => ?_⟩
  exact (hexpired old hold).trans_le (timestamp_mono hle)

/-- An expired row is as good as none. -/
theorem upsert_of_expired {row : Option Row} (hexpired : Expired now row) (windowEnd : Int) :
    upsert row windowEnd (timestamp now) = upsert none windowEnd (timestamp now) := by
  cases row with
  | none => rfl
  | some row =>
      exact if_pos (expired_some_iff.mp hexpired)

theorem Cleaned.check (hcleaned : Cleaned now table kept) (key : String) (limit window : Int) :
    (checkRateLimit table key limit window now).1 = (checkRateLimit kept key limit window now).1 ∧
      Cleaned now (checkRateLimit table key limit window now).2
        (checkRateLimit kept key limit window now).2 := by
  have hupsert : upsert (table key) (timestamp (now + window)) (timestamp now) =
      upsert (kept key) (timestamp (now + window)) (timestamp now) := by
    rcases hcleaned key with hsame | ⟨hnone, hexpired⟩
    · rw [hsame]
    · rw [hnone, upsert_of_expired hexpired]
  rw [checkRateLimit, checkRateLimit, hupsert]
  split
  · exact ⟨rfl, hcleaned⟩
  · refine ⟨rfl, fun other => ?_⟩
    by_cases hkey : other = key
    · simp [hkey]
    · simpa [hkey] using hcleaned other

theorem Cleaned.cleanup (hcleaned : Cleaned now table kept) :
    Cleaned now (cleanup table now) kept := by
  intro key
  rw [MagicLink.cleanup]
  rcases hcleaned key with hsame | hgone
  · rw [hsame]
    cases kept key with
    | none => exact .inl rfl
    | some row =>
        by_cases hexpired : row.windowEnd < timestamp now
        · exact .inr ⟨Option.filter_some_neg (by simpa using hexpired),
            expired_some_iff.mpr hexpired⟩
        · exact .inl (Option.filter_some_pos (by simpa using hexpired))
  · rw [hgone.1]
    exact .inr ⟨rfl, hgone.2⟩

/-- A run and the same run without its cleanups. -/
theorem results_cleaned {statements : List Statement} (hcleaned : Cleaned now table kept)
    (hsorted : InOrder statements) (hnow : ∀ statement ∈ statements, now ≤ statement.now) :
    results table statements = results kept (statements.filter Statement.isCheck) := by
  induction statements generalizing table kept now with
  | nil => rfl
  | cons statement rest ih =>
      obtain ⟨hhead, hrest⟩ := List.pairwise_cons.mp hsorted
      have hcleaned := hcleaned.later (hnow statement List.mem_cons_self)
      obtain ⟨time, call⟩ := statement
      cases call with
      | cleanup => exact ih hcleaned.cleanup hrest hhead
      | check key limit window =>
          obtain ⟨hsame, hnext⟩ := hcleaned.check key limit window
          exact congrArg₂ List.cons hsame (ih hnext hrest hhead)

end Cleanup

/-- In no interval of the length of the window are more than twice the limit of calls let
through, and the cleanups change no result. -/
theorem checkRateLimit_concurrent (key : String) (limit window : Int) (hlimit : 0 ≤ limit)
    (statements : List Statement) (hsorted : InOrder statements)
    (hfixed : ∀ statement ∈ statements, Fixed key limit window statement) :
    (∀ start, ((allowedTimes key emptyTable statements).countP fun time =>
      start ≤ time ∧ time ≤ start + window : Int) ≤ 2 * limit) ∧
    results emptyTable statements = results emptyTable (statements.filter Statement.isCheck) := by
  have hempty : ∀ row, emptyTable key = some row → 0 ≤ row.count := by
    intro row hrow
    cases hrow
  refine ⟨fun start => allowedTimes_interval start hlimit hsorted hfixed hempty, ?_⟩
  cases statements with
  | nil => rfl
  | cons first rest =>
      have hcleaned : Cleaned first.now emptyTable emptyTable := fun _ => .inl rfl
      refine results_cleaned hcleaned hsorted ?_
      intro later hlater
      rcases List.mem_cons.mp hlater with rfl | hlater
      · exact le_refl _
      · exact (List.pairwise_cons.mp hsorted).1 later hlater

/-- Three calls with a limit of one, the third after the window and a cleanup. -/
def threeCalls : List Statement :=
  [⟨0, .check "login" 1 60000000000⟩, ⟨60000000000, .check "login" 1 60000000000⟩,
    ⟨60000001000, .cleanup⟩, ⟨60000001000, .check "login" 1 60000000000⟩]

theorem threeCalls_concurrent :
    results emptyTable threeCalls = [.allowed, .rateLimited, .allowed] ∧
    (∀ start, ((allowedTimes "login" emptyTable threeCalls).countP fun time =>
      start ≤ time ∧ time ≤ start + 60000000000 : Int) ≤ 2 * 1) ∧
    results emptyTable threeCalls = results emptyTable (threeCalls.filter Statement.isCheck) := by
  refine ⟨by decide, checkRateLimit_concurrent "login" 1 60000000000 (by decide)
    threeCalls (by decide) ?_⟩
  intro statement hstatement limit window hcall
  simp only [threeCalls, List.mem_cons, List.not_mem_nil, or_false] at hstatement
  rcases hstatement with rfl | rfl | rfl | rfl
  · exact ⟨(Call.check.inj hcall).2.1.symm, (Call.check.inj hcall).2.2.symm⟩
  · exact ⟨(Call.check.inj hcall).2.1.symm, (Call.check.inj hcall).2.2.symm⟩
  · cases hcall
  · exact ⟨(Call.check.inj hcall).2.1.symm, (Call.check.inj hcall).2.2.symm⟩

end Aegion.MagicLink
