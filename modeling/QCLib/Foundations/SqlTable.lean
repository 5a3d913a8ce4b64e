import Mathlib.Data.List.Nodup
import Mathlib.Logic.Function.Basic
import QCLib.Foundations.SqlText

/-!
# What SQL statements do

Tables of texts, as a client sees them: a cell is a text or `NULL`, a column has a name and the type
and flags that the server reports for it, and the rows are in the order in which they are returned.
A table keeps its primary key: rows that would not are refused, and with them the whole statement.

A row is known by its cells (`row_ext`), and what an assignment does is said cell by cell
(`cell_setCell`, `cell_setCells`).

The types and flags of a column are those that the client library reports, since that is what the
program looks at. Execution is a partial function: a statement about a column that there is not, or
with rows that would violate the key, is refused as a whole. An insert takes the default of every
column that it does not name, and an update counts as a whole: if one row cannot be changed, none
is.
-/

namespace Sql

/-! ### Tables -/

/-- A column, with what the server reports of it, and what a row gets that says nothing about it. -/
structure Column where
  name : String
  type : UInt32
  flags : UInt32
  default : Option String := none
  deriving DecidableEq, Repr

/-- `PRI_KEY_FLAG`. -/
def priKeyFlag : UInt32 := 2

/-- The column is part of the primary key. -/
def Column.isPrimary (c : Column) : Bool := c.flags &&& priKeyFlag ≠ 0

/-- A text, or `NULL`. -/
abbrev Cell := Option String

/-- The cells of a row, in the order of the columns. -/
abbrev Row := List Cell

/-- The cell under a name. -/
def cell (columns : List Column) (row : Row) (name : String) : Option Cell :=
  ((columns.zip row).find? fun p ↦ p.1.name = name).map Prod.snd

/-- The primary key of a row. -/
def keyCells (columns : List Column) (row : Row) : List Cell :=
  ((columns.zip row).filter fun p ↦ p.1.isPrimary).map Prod.snd

/-- The rows are as long as they should be, and have keys that are different and not `NULL`. -/
def ValidRows (columns : List Column) (rows : List Row) : Prop :=
  (∀ row ∈ rows, row.length = columns.length) ∧ (∀ row ∈ rows, none ∉ keyCells columns row) ∧
    ((∃ c ∈ columns, c.isPrimary) → (rows.map (keyCells columns)).Nodup)

instance (columns : List Column) (rows : List Row) : Decidable (ValidRows columns rows) :=
  inferInstanceAs (Decidable (_ ∧ _ ∧ (_ → _)))

/-- A table. -/
@[ext] structure Table where
  columns : List Column
  rows : List Row
  names_nodup : (columns.map Column.name).Nodup
  valid : ValidRows columns rows

namespace Table

/-- The names of the columns. -/
def names (t : Table) : List String := t.columns.map Column.name

/-- The same columns with other rows, if the key allows them. -/
def withRows (t : Table) (rows : List Row) : Option Table :=
  if h : ValidRows t.columns rows then some ⟨t.columns, rows, t.names_nodup, h⟩ else none

end Table

/-- The tables, by name. -/
abbrev Database := String → Option Table

/-! ### Execution -/

/-- The row with another text under a name. -/
def setCell (columns : List Column) (row : Row) (name value : String) : Row :=
  List.zipWith (fun c cell ↦ if c.name = name then some value else cell) columns row

/-- The row after some assignments, from left to right. -/
def setCells (columns : List Column) (row : Row) (assignments : List (String × String)) : Row :=
  assignments.foldl (fun row a ↦ setCell columns row a.1 a.2) row

/-- The condition `key = 'value'`. -/
def holds (columns : List Column) (key value : String) (row : Row) : Bool :=
  cell columns row key = some (some value)

namespace Table

/-- The number of rows that meet a condition. -/
def count (t : Table) (key value : String) : Option Nat :=
  if key ∈ t.names then some (t.rows.countP (holds t.columns key value)) else none

/-- The table after an `update`. -/
def update (t : Table) (assignments : List (String × String)) (key value : String) :
    Option Table :=
  if key ∈ t.names ∧ ∀ a ∈ assignments, a.1 ∈ t.names then
    t.withRows (t.rows.map fun row ↦
      if holds t.columns key value row then setCells t.columns row assignments else row)
  else none

/-- The table after an `insert`. -/
def insert (t : Table) (names values : List String) : Option Table :=
  if names.length = values.length ∧ names.Nodup ∧ ∀ name ∈ names, name ∈ t.names then
    t.withRows (t.rows ++ [t.columns.map fun c ↦
      match (names.zip values).lookup c.name with
      | some value => some value
      | none => c.default])
  else none

end Table

/-- A result set. -/
structure Resultset where
  columns : List Column
  rows : List Row
  deriving DecidableEq

/-- The column of a count, a `BIGINT`. -/
def countColumn : Column := { name := "count(*)", type := 8, flags := 0 }

/-- A statement, executed: the database after it, and the result set of a query. -/
def execute (db : Database) : Statement → Option (Database × Option Resultset)
  | .selectAll table => (db table).map fun t ↦ (db, some ⟨t.columns, t.rows⟩)
  | .selectCount table key value =>
    (db table).bind fun t ↦ (t.count key value).map fun n ↦
      (db, some ⟨[countColumn], [[some (toString n)]]⟩)
  | .update table assignments key value =>
    (db table).bind fun t ↦ (t.update assignments key value).map fun t' ↦
      (Function.update db table (some t'), none)
  | .insert table names values =>
    (db table).bind fun t ↦ (t.insert names values).map fun t' ↦
      (Function.update db table (some t'), none)

/-! ### Cells -/

variable {columns : List Column} {row row' : Row} {name m value : String}

@[simp] theorem cell_nil : cell columns [] name = none := by
  simp [cell]

theorem cell_cons {c : Column} {x : Cell} :
    cell (c :: columns) (x :: row) name =
      if c.name = name then some x else cell columns row name := by
  rw [cell, List.zip_cons_cons, List.find?_cons]
  split_ifs with h <;> simp [h, cell]

@[simp] theorem length_setCell (h : row.length = columns.length) :
    (setCell columns row name value).length = columns.length := by
  rw [setCell, List.length_zipWith, h, Nat.min_self]

/-- **An assignment**, cell by cell. -/
theorem cell_setCell (h : row.length = columns.length) :
    cell columns (setCell columns row name value) m =
      if m = name then (cell columns row m).map fun _ ↦ some value else cell columns row m := by
  induction columns generalizing row with
  | nil =>
    obtain rfl := List.eq_nil_of_length_eq_zero h
    simp [setCell]
  | cons c columns ih =>
    obtain ⟨x, row, rfl⟩ := List.exists_cons_of_length_eq_add_one h
    have hrow : row.length = columns.length := by simpa using h
    have htail := ih hrow
    rw [setCell] at htail
    rw [setCell, List.zipWith_cons_cons, cell_cons, cell_cons, htail]
    by_cases hm : m = name
    · subst hm
      by_cases hc : c.name = m <;> simp [hc]
    · by_cases hc : c.name = m
      · subst hc
        simp [hm]
      · simp [hm, hc]

@[simp] theorem length_setCells (h : row.length = columns.length)
    (assignments : List (String × String)) :
    (setCells columns row assignments).length = columns.length := by
  induction assignments generalizing row with
  | nil => exact h
  | cons a assignments ih => exact ih (length_setCell h)

/-- Names that are not assigned to keep their cells. -/
theorem cell_setCells_of_notMem {assignments : List (String × String)}
    (h : row.length = columns.length) (hm : m ∉ assignments.map Prod.fst) :
    cell columns (setCells columns row assignments) m = cell columns row m := by
  induction assignments generalizing row with
  | nil => rfl
  | cons a assignments ih =>
    obtain ⟨hne, hm⟩ := not_or.1 (mt List.mem_cons.2 hm)
    rw [setCells, List.foldl_cons, ← setCells, ih (length_setCell h) hm, cell_setCell h, if_neg hne]

/-- **Assignments to different names**, cell by cell. -/
theorem cell_setCells {assignments : List (String × String)} (h : row.length = columns.length)
    (hnodup : (assignments.map Prod.fst).Nodup) (hmem : (m, value) ∈ assignments) :
    cell columns (setCells columns row assignments) m =
      (cell columns row m).map fun _ ↦ some value := by
  induction assignments generalizing row with
  | nil => exact absurd hmem List.not_mem_nil
  | cons a assignments ih =>
    obtain ⟨hnot, hnodup⟩ := List.nodup_cons.1 hnodup
    rw [setCells, List.foldl_cons, ← setCells]
    rcases List.mem_cons.1 hmem with rfl | hmem
    · rw [cell_setCells_of_notMem (length_setCell h) hnot, cell_setCell h, if_pos rfl]
    · have hne : m ≠ a.1 := by
        rintro rfl
        exact hnot (List.mem_map.2 ⟨(a.1, value), hmem, rfl⟩)
      rw [ih (length_setCell h) hnodup hmem, cell_setCell h, if_neg hne]

/-- The cell of a column. -/
theorem cell_of_mem_zip {c : Column} {x : Cell} (hnodup : (columns.map Column.name).Nodup)
    (h : (c, x) ∈ columns.zip row) : cell columns row c.name = some x := by
  induction columns generalizing row with
  | nil => exact absurd h (by simp)
  | cons d columns ih =>
    obtain ⟨hnot, hnodup⟩ := List.nodup_cons.1 hnodup
    cases row with
    | nil => exact absurd h (by simp)
    | cons y row =>
      rw [cell_cons]
      rw [List.zip_cons_cons, List.mem_cons] at h
      rcases h with heq | h
      · obtain ⟨rfl, rfl⟩ := Prod.mk.inj heq
        exact if_pos rfl
      · have hne : d.name ≠ c.name := fun heq ↦
          hnot (heq ▸ List.mem_map_of_mem (List.of_mem_zip h).1)
        rw [if_neg hne, ih hnodup h]

theorem exists_cell (h : row.length = columns.length) (hname : name ∈ columns.map Column.name) :
    ∃ x, cell columns row name = some x := by
  induction columns generalizing row with
  | nil => exact absurd hname List.not_mem_nil
  | cons c columns ih =>
    obtain ⟨x, row, rfl⟩ := List.exists_cons_of_length_eq_add_one h
    rw [cell_cons]
    by_cases hc : c.name = name
    · exact ⟨x, if_pos hc⟩
    · rw [if_neg hc]
      refine ih (by simpa using h) ?_
      rcases List.mem_cons.1 hname with heq | hname
      · exact absurd heq.symm hc
      · exact hname

/-- **A row is known by its cells.** -/
theorem row_ext (hnodup : (columns.map Column.name).Nodup) (h : row.length = columns.length)
    (h' : row'.length = columns.length)
    (hcells : ∀ name ∈ columns.map Column.name, cell columns row name = cell columns row' name) :
    row = row' := by
  induction columns generalizing row row' with
  | nil => rw [List.eq_nil_of_length_eq_zero h, List.eq_nil_of_length_eq_zero h']
  | cons c columns ih =>
    obtain ⟨x, row, rfl⟩ := List.exists_cons_of_length_eq_add_one h
    obtain ⟨x', row', rfl⟩ := List.exists_cons_of_length_eq_add_one h'
    obtain ⟨hnot, hnodup⟩ := List.nodup_cons.1 hnodup
    have hhead := hcells c.name List.mem_cons_self
    rw [cell_cons, cell_cons, if_pos rfl, if_pos rfl] at hhead
    obtain rfl := Option.some.inj hhead
    refine congrArg (x :: ·) (ih hnodup (by simpa using h) (by simpa using h') fun name hname ↦ ?_)
    have hne : c.name ≠ name := fun heq ↦ hnot (heq ▸ hname)
    have htail := hcells name (List.mem_cons_of_mem _ hname)
    rwa [cell_cons, cell_cons, if_neg hne, if_neg hne] at htail

/-! ### Keys -/

/-- Rows with the same cells in the key columns have the same key. -/
theorem keyCells_congr (hnodup : (columns.map Column.name).Nodup)
    (h : row.length = columns.length) (h' : row'.length = columns.length)
    (hcells : ∀ c ∈ columns, c.isPrimary → cell columns row c.name = cell columns row' c.name) :
    keyCells columns row = keyCells columns row' := by
  induction columns generalizing row row' with
  | nil => rw [List.eq_nil_of_length_eq_zero h, List.eq_nil_of_length_eq_zero h']
  | cons c columns ih =>
    obtain ⟨x, row, rfl⟩ := List.exists_cons_of_length_eq_add_one h
    obtain ⟨x', row', rfl⟩ := List.exists_cons_of_length_eq_add_one h'
    obtain ⟨hnot, hnodup⟩ := List.nodup_cons.1 hnodup
    have htail : keyCells columns row = keyCells columns row' := by
      refine ih hnodup (by simpa using h) (by simpa using h') fun d hd hprimary ↦ ?_
      have hne : c.name ≠ d.name := fun heq ↦ hnot (heq ▸ List.mem_map_of_mem hd)
      have hcell := hcells d (List.mem_cons_of_mem _ hd) hprimary
      rwa [cell_cons, cell_cons, if_neg hne, if_neg hne] at hcell
    simp only [keyCells] at htail
    by_cases hprimary : c.isPrimary
    · have hhead := hcells c List.mem_cons_self hprimary
      rw [cell_cons, cell_cons, if_pos rfl, if_pos rfl] at hhead
      simp [keyCells, hprimary, htail, Option.some.inj hhead]
    · simp [keyCells, hprimary, htail]

/-- The column is the whole primary key. -/
def IsKey (columns : List Column) (key : String) : Prop :=
  (∃ c ∈ columns, c.name = key) ∧ ∀ c ∈ columns, c.isPrimary ↔ c.name = key

instance (columns : List Column) (key : String) : Decidable (IsKey columns key) :=
  inferInstanceAs (Decidable (_ ∧ _))

namespace Table

variable {t : Table} {key : String} {rows : List Row}

/-- A row of a table has as many cells as the table has columns. -/
theorem length_row (hrow : row ∈ t.rows) : row.length = t.columns.length := t.valid.1 row hrow

/-- Rows with the same text in the key column are the same. -/
theorem eq_of_holds (hkey : IsKey t.columns key) (hrow : row ∈ t.rows) (hrow' : row' ∈ t.rows)
    (h : holds t.columns key value row) (h' : holds t.columns key value row') : row = row' := by
  obtain ⟨c, hc, rfl⟩ := hkey.1
  have hcells : keyCells t.columns row = keyCells t.columns row' := by
    refine keyCells_congr t.names_nodup (length_row hrow) (length_row hrow') fun d hd hprimary ↦ ?_
    rw [(hkey.2 d hd).1 hprimary, of_decide_eq_true h, of_decide_eq_true h']
  exact List.inj_on_of_nodup_map (t.valid.2.2 ⟨c, hc, (hkey.2 c hc).2 rfl⟩) hrow hrow' hcells

/-- **The key column counts rows once.** -/
theorem count_eq_one (hkey : IsKey t.columns key) (hrow : row ∈ t.rows)
    (h : holds t.columns key value row) : t.count key value = some 1 := by
  obtain ⟨c, hc, rfl⟩ := hkey.1
  have hnodup : t.rows.Nodup := (t.valid.2.2 ⟨c, hc, (hkey.2 c hc).2 rfl⟩).of_map _
  have hsame : ∀ row' ∈ t.rows, holds t.columns c.name value row' ↔ (row' == row) = true := by
    intro row' hrow'
    rw [beq_iff_eq]
    refine ⟨fun h' ↦ eq_of_holds hkey hrow' hrow h' h, ?_⟩
    rintro rfl
    exact h
  have hname : c.name ∈ t.names := List.mem_map_of_mem hc
  rw [count, if_pos hname, List.countP_congr hsame]
  exact congrArg some (List.count_eq_one_of_mem hnodup hrow)

/-- Rows that keep their keys are still allowed. -/
theorem withRows_map {f : Row → Row} (hlen : ∀ row ∈ t.rows, (f row).length = t.columns.length)
    (hcells : ∀ row ∈ t.rows, ∀ c ∈ t.columns, c.isPrimary →
      cell t.columns (f row) c.name = cell t.columns row c.name) :
    ∃ t', t.withRows (t.rows.map f) = some t' ∧ t'.columns = t.columns ∧
      t'.rows = t.rows.map f := by
  have hkeys : ∀ row ∈ t.rows, keyCells t.columns (f row) = keyCells t.columns row := fun row hrow ↦
    keyCells_congr t.names_nodup (hlen row hrow) (length_row hrow) (hcells row hrow)
  have hvalid : ValidRows t.columns (t.rows.map f) := by
    refine ⟨List.forall_mem_map.2 hlen, List.forall_mem_map.2 fun row hrow ↦ ?_, fun hprimary ↦ ?_⟩
    · rw [hkeys row hrow]
      exact t.valid.2.1 row hrow
    · have hmap : t.rows.map (keyCells t.columns ∘ f) = t.rows.map (keyCells t.columns) :=
        List.map_congr_left hkeys
      rw [List.map_map, hmap]
      exact t.valid.2.2 hprimary
  exact ⟨⟨t.columns, t.rows.map f, t.names_nodup, hvalid⟩, dif_pos hvalid, rfl, rfl⟩

end Table

end Sql
