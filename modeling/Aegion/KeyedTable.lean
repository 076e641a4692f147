/-
A relational table with a primary key.  The uniqueness constraint is a field
of the table, so an insert that would violate it has no result, and updates
must leave the key column alone.
-/
import Mathlib.Data.List.Nodup

namespace Aegion

universe u v

variable {α : Type u} {κ : Type v} {key : α → κ}

/-- Rows in insertion order; no two of them share their key. -/
structure Table (key : α → κ) where
  rows : List α
  keysNodup : (rows.map key).Nodup

namespace Table

@[ext]
theorem ext_rows {left right : Table key} (hrows : left.rows = right.rows) : left = right := by
  cases left
  cases right
  simp only [mk.injEq]
  exact hrows

def empty : Table key := ⟨[], by simp⟩

/-- A table with one row. -/
def single (row : α) : Table key := ⟨[row], List.nodup_singleton (key row)⟩

/-- `SELECT ... WHERE key = k`. -/
def find? [DecidableEq κ] (table : Table key) (k : κ) : Option α :=
  table.rows.find? fun row => decide (key row = k)

/-- `INSERT`: `none` is the unique-violation answer. -/
def insert? [DecidableEq κ] (table : Table key) (row : α) : Option (Table key) :=
  if hkey : key row ∈ table.rows.map key then none
  else some ⟨table.rows ++ [row], by
    rw [List.map_append, List.nodup_append']
    refine ⟨table.keysNodup, by simp, ?_⟩
    simpa [List.disjoint_singleton] using hkey⟩

/-- `UPDATE ... SET ... WHERE p`, for an assignment that keeps the key. -/
def updateWhere (table : Table key) (p : α → Bool) (assign : α → α)
    (hkey : ∀ row, key (assign row) = key row) : Table key :=
  ⟨table.rows.map fun row => if p row then assign row else row, by
    have hcomp : (key ∘ fun row => if p row then assign row else row) = key := by
      funext row
      by_cases hp : p row = true
      · simp [hp, hkey]
      · simp [hp]
    rw [List.map_map, hcomp]
    exact table.keysNodup⟩

/-- `DELETE ... WHERE p`. -/
def deleteWhere (table : Table key) (p : α → Bool) : Table key :=
  ⟨table.rows.filter fun row => !p row,
    table.keysNodup.sublist (List.filter_sublist.map key)⟩

/-- The row count a statement with this `WHERE` clause reports. -/
def affected (table : Table key) (p : α → Bool) : Nat :=
  table.rows.countP p

theorem row_eq_of_key_eq (table : Table key) {left right : α}
    (hleft : left ∈ table.rows) (hright : right ∈ table.rows)
    (heq : key left = key right) : left = right :=
  List.inj_on_of_nodup_map table.keysNodup hleft hright heq

/-- A lookup by primary key is exact in both directions. -/
theorem find?_eq_some_iff [DecidableEq κ] (table : Table key) (k : κ)
    (row : α) : table.find? k = some row ↔ row ∈ table.rows ∧ key row = k := by
  constructor
  · intro hfind
    refine ⟨List.mem_of_find?_eq_some hfind, ?_⟩
    simpa using List.find?_some hfind
  · rintro ⟨hmem, hkey⟩
    cases hfind : table.find? k with
    | none =>
        have hnone := List.find?_eq_none.mp hfind row hmem
        simp [hkey] at hnone
    | some other =>
        have hother : key other = k := by simpa using List.find?_some hfind
        have hsame := table.row_eq_of_key_eq
          (List.mem_of_find?_eq_some hfind) hmem (hother.trans hkey.symm)
        rw [hsame]

theorem find?_eq_none_iff [DecidableEq κ] (table : Table key) (k : κ) :
    table.find? k = none ↔ ∀ row ∈ table.rows, key row ≠ k := by
  simp [find?, List.find?_eq_none]

/-- A successful insert appends the row, whose key was not in use. -/
theorem insert?_eq_some_iff [DecidableEq κ] (table next : Table key) (row : α) :
    table.insert? row = some next ↔
      (∀ old ∈ table.rows, key old ≠ key row) ∧
        next.rows = table.rows ++ [row] := by
  unfold insert?
  by_cases hkey : key row ∈ table.rows.map key
  · simp only [hkey, ↓reduceDIte, reduceCtorEq, false_iff, not_and]
    intro hfresh
    obtain ⟨old, hold, heq⟩ := List.mem_map.mp hkey
    exact absurd heq (hfresh old hold)
  · simp only [hkey, ↓reduceDIte, Option.some.injEq]
    have hfresh : ∀ old ∈ table.rows, key old ≠ key row := by
      intro old hold heq
      exact hkey (List.mem_map.mpr ⟨old, hold, heq⟩)
    constructor
    · rintro rfl
      exact ⟨hfresh, rfl⟩
    · rintro ⟨-, hrows⟩
      exact ext_rows hrows.symm

@[simp]
theorem updateWhere_rows (table : Table key) (p : α → Bool) (assign : α → α)
    (hkey : ∀ row, key (assign row) = key row) :
    (table.updateWhere p assign hkey).rows =
      table.rows.map fun row => if p row then assign row else row := rfl

@[simp]
theorem deleteWhere_rows (table : Table key) (p : α → Bool) :
    (table.deleteWhere p).rows = table.rows.filter fun row => !p row := rfl

/-- A lookup after an update sees the assignment where it applies. -/
theorem find?_updateWhere [DecidableEq κ] (table : Table key) (p : α → Bool)
    (assign : α → α) (hkey : ∀ row, key (assign row) = key row) (k : κ) :
    (table.updateWhere p assign hkey).find? k =
      (table.find? k).map fun row => if p row then assign row else row := by
  have hcomp : ((fun row => decide (key row = k)) ∘
      fun row => if p row then assign row else row) =
        fun row => decide (key row = k) := by
    funext row
    by_cases hp : p row = true
    · simp [hp, hkey]
    · simp [hp]
  rw [find?, updateWhere_rows, List.find?_map, hcomp]
  rfl

/-- A lookup after a deletion misses the rows it selects. -/
theorem find?_deleteWhere [DecidableEq κ] (table : Table key) (p : α → Bool) (k : κ) :
    (table.deleteWhere p).find? k = (table.find? k).filter fun row => !p row := by
  ext row
  rw [Option.filter_eq_some_iff, find?_eq_some_iff, find?_eq_some_iff,
    deleteWhere_rows, List.mem_filter]
  constructor
  · rintro ⟨⟨hrow, hkept⟩, hkey⟩
    exact ⟨⟨hrow, hkey⟩, hkept⟩
  · rintro ⟨⟨hrow, hkey⟩, hkept⟩
    exact ⟨⟨hrow, hkept⟩, hkey⟩

theorem affected_pos_iff (table : Table key) (p : α → Bool) :
    0 < table.affected p ↔ ∃ row ∈ table.rows, p row = true := by
  simp [affected, List.countP_pos_iff]

theorem affected_eq_zero_iff (table : Table key) (p : α → Bool) :
    table.affected p = 0 ↔ ∀ row ∈ table.rows, p row = false := by
  simp [affected, List.countP_eq_zero]

/-- An update that selects nothing is no update. -/
theorem updateWhere_of_affected_eq_zero (table : Table key) (p : α → Bool)
    (assign : α → α) (hkey : ∀ row, key (assign row) = key row) (hzero : table.affected p = 0) :
    table.updateWhere p assign hkey = table := by
  apply ext_rows
  rw [updateWhere_rows]
  have hnone := (affected_eq_zero_iff table p).mp hzero
  calc
    table.rows.map (fun row => if p row then assign row else row)
        = table.rows.map id := by
          apply List.map_congr_left
          intro row hrow
          simp [hnone row hrow]
    _ = table.rows := by simp

/-- An update leaves the rows of a selection alone if and only if it assigns
them what they have. -/
theorem filter_updateWhere_eq_iff (table : Table key) (p q : α → Bool)
    (assign : α → α) (hkey : ∀ row, key (assign row) = key row)
    (hq : ∀ row, q (assign row) = q row) :
    (table.updateWhere p assign hkey).rows.filter q = table.rows.filter q ↔
      ∀ row ∈ table.rows, p row = true → q row = true → assign row = row := by
  have hcomp : (q ∘ fun row => if p row then assign row else row) = q := by
    funext row
    by_cases hp : p row = true
    · simp [hp, hq]
    · simp [hp]
  rw [updateWhere_rows, List.filter_map, hcomp]
  nth_rewrite 2 [← List.map_id (table.rows.filter q)]
  rw [List.map_inj_left]
  constructor
  · intro hsame row hrow hp hqrow
    have heq := hsame row (List.mem_filter.mpr ⟨hrow, hqrow⟩)
    simpa [hp] using heq
  · intro hassign row hrow
    obtain ⟨hrow, hqrow⟩ := List.mem_filter.mp hrow
    by_cases hp : p row = true
    · simp [hp, hassign row hrow hp hqrow]
    · simp [hp]

end Table

end Aegion
